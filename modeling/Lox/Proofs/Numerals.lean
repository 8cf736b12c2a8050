import Mathlib.Algebra.Order.Field.Rat
import Mathlib.Data.List.DropRight
import Mathlib.Tactic.Ring
import Mathlib.Tactic.FieldSimp
import Mathlib.Tactic.Positivity
import Lox.Decimal

set_option autoImplicit false

namespace Lox

theorem zpow_of_nat (b : ℚ) {e : Int} {n : Nat} (same : e = n) : b ^ e = b ^ n := by
  rw [same, zpow_natCast]

theorem zpow_of_neg (b : ℚ) {e : Int} {n : Nat} (same : e = -n) : b ^ e = (b ^ n)⁻¹ := by
  rw [same, zpow_neg, zpow_natCast]

namespace Decimal

theorem isDigit_eq (c : Char) : isDigit c = c.isDigit := by
  simp only [isDigit, Char.isDigit, Char.le_def, ge_iff_le]

theorem ofDigits_eq (row : List Char) : ofDigits row = Nat.ofDigitChars 10 row 0 :=
  Nat.ofDigitChars_eq_foldl.symm

theorem ofDigits_digits (n : Nat) : ofDigits (digits n) = n := by
  rw [ofDigits_eq]
  exact Nat.ofDigitChars_ten_toDigits

theorem isDigit_of_mem_digits {n : Nat} {c : Char} (member : c ∈ digits n) : isDigit c = true := by
  rw [isDigit_eq]
  exact Nat.isDigit_of_mem_toDigits (by decide) (by decide) member

theorem ofDigits_append (row more : List Char) :
    ofDigits (row ++ more) = 10 ^ more.length * ofDigits row + ofDigits more := by
  simp only [ofDigits_eq, Nat.ofDigitChars_append]
  exact Nat.ofDigitChars_eq_ofDigitChars_zero

theorem ofDigits_replicate (k : Nat) : ofDigits (List.replicate k '0') = 0 := by
  rw [ofDigits_eq, Nat.ofDigitChars_replicate_zero, Nat.mul_zero]

theorem toNat_of_isDigit {c : Char} (digit : isDigit c = true) :
    '0'.toNat ≤ c.toNat ∧ c.toNat ≤ '0'.toNat + 9 := by
  simpa [isDigit, Char.le_def, UInt32.le_iff_toNat_le] using digit

theorem ofDigits_concat (row : List Char) (c : Char) :
    ofDigits (row ++ [c]) = 10 * ofDigits row + (c.toNat - '0'.toNat) := by
  rw [ofDigits_append, List.length_singleton, Nat.pow_one]
  simp [ofDigits]

theorem ofDigits_lt {row : List Char} (all : ∀ c ∈ row, isDigit c = true) :
    ofDigits row < 10 ^ row.length := by
  induction row using List.reverseRecOn with
  | nil => decide
  | append_singleton row c ih =>
    have shorter := ih fun d member => all d (List.mem_append_left _ member)
    have digit := toNat_of_isDigit (all c (by simp))
    rw [ofDigits_concat, List.length_append, List.length_singleton, Nat.pow_succ]
    omega

/-- Rows of one length that write one number are the same row. -/
theorem ofDigits_inj {row other : List Char} (all : ∀ c ∈ row, isDigit c = true)
    (others : ∀ c ∈ other, isDigit c = true) (length : row.length = other.length)
    (same : ofDigits row = ofDigits other) : row = other := by
  induction row using List.reverseRecOn generalizing other with
  | nil => exact (List.length_eq_zero_iff.mp length.symm).symm
  | append_singleton row c ih =>
    rcases List.eq_nil_or_concat other with rfl | ⟨other, d, rfl⟩
    · simp at length
    · rw [List.concat_eq_append] at *
      have first := toNat_of_isDigit (all c (by simp))
      have second := toNat_of_isDigit (others d (by simp))
      rw [ofDigits_concat, ofDigits_concat] at same
      have front : row = other := ih (fun e member => all e (List.mem_append_left _ member))
        (fun e member => others e (List.mem_append_left _ member)) (by simpa using length)
        (by omega)
      have back : c = d := Char.toNat_inj.mp (by omega)
      rw [front, back]

theorem digits_concat {n : Nat} (large : 10 ≤ n) :
    digits n = digits (n / 10) ++ [(n % 10).digitChar] :=
  Nat.toDigits_of_base_le (by decide) large

theorem length_digits_le_iff {n k : Nat} (some : 0 < k) : (digits n).length ≤ k ↔ n < 10 ^ k :=
  Nat.length_toDigits_le_iff (by decide) some

/-- Digits cut off at the end divide the number. -/
theorem take_digits {n k : Nat} (less : k < (digits n).length) :
    (digits n).take ((digits n).length - k) = digits (n / 10 ^ k) := by
  induction k generalizing n with
  | zero => simp
  | succ k ih =>
    have large : 10 ≤ n := by
      by_contra small
      have short := (length_digits_le_iff (n := n) (by decide : 0 < 1)).mpr (by omega)
      omega
    have count : (digits n).length = (digits (n / 10)).length + 1 := by
      rw [digits_concat large, List.length_append, List.length_singleton]
    rw [count, Nat.add_sub_add_right, digits_concat large,
      List.take_append_of_le_length (Nat.sub_le _ _), ih (by omega), Nat.div_div_eq_div_mul,
      Nat.pow_succ, Nat.mul_comm]

def value (d : Decimal) : ℚ :=
  d.coefficient * 10 ^ d.exponent

theorem value_eq_zero {d : Decimal} : d.value = 0 ↔ d.coefficient = 0 := by
  have power : (10 : ℚ) ^ d.exponent ≠ 0 := zpow_ne_zero _ (by decide)
  simp [value, power]

theorem value_shift (n k : Nat) (e : Int) :
    (⟨n * 10 ^ k, e⟩ : Decimal).value = (⟨n, e + k⟩ : Decimal).value := by
  simp only [value]
  rw [zpow_add₀ (by decide), zpow_natCast]
  push_cast
  ring

def IsNormal (d : Decimal) : Prop :=
  d.coefficient % 10 ≠ 0 ∨ d = ⟨0, 0⟩

theorem value_stripZeros (steps n : Nat) (e : Int) :
    (stripZeros steps n e).value = (⟨n, e⟩ : Decimal).value := by
  induction steps generalizing n e with
  | zero => rfl
  | succ steps ih =>
    rw [stripZeros]
    split
    · rename_i even
      have whole : n / 10 * 10 ^ 1 = n := by omega
      rw [ih, ← whole, value_shift]
      simp
    · rfl

theorem stripZeros_coefficient {steps n : Nat} (e : Int) (some : n ≠ 0) (enough : n < 10 ^ steps) :
    (stripZeros steps n e).coefficient % 10 ≠ 0 := by
  induction steps generalizing n e with
  | zero => omega
  | succ steps ih =>
    rw [stripZeros]
    rw [Nat.pow_succ] at enough
    split
    · exact ih (e + 1) (by omega) (by omega)
    · assumption

theorem value_normal (d : Decimal) : d.normal.value = d.value := by
  rw [normal]
  split
  · rename_i none
    rw [value_eq_zero.mpr rfl, value_eq_zero.mpr none]
  · exact value_stripZeros _ _ _

theorem isNormal_normal (d : Decimal) : d.normal.IsNormal := by
  rw [normal]
  split
  · exact .inr rfl
  · rename_i some
    have enough : d.coefficient < 10 ^ (digits d.coefficient).length :=
      (length_digits_le_iff Nat.length_toDigits_pos).mp (Nat.le_refl _)
    exact .inl (stripZeros_coefficient _ some enough)

/-- A coefficient without a trailing zero has the largest exponent of its value. -/
theorem exponent_le {a b : Decimal} (last : a.coefficient % 10 ≠ 0) (same : a.value = b.value) :
    b.exponent ≤ a.exponent := by
  by_contra less
  obtain ⟨k, more⟩ := Int.le.dest (Int.le_of_lt (Int.not_le.mp less))
  have scaled : (⟨b.coefficient * 10 ^ k, a.exponent⟩ : Decimal).value = a.value := by
    rw [value_shift, more, same]
  have power : (10 : ℚ) ^ a.exponent ≠ 0 := zpow_ne_zero _ (by decide)
  have equal : b.coefficient * 10 ^ k = a.coefficient := by
    exact_mod_cast mul_right_cancel₀ power scaled
  obtain ⟨j, rfl⟩ : ∃ j, k = j + 1 := ⟨k - 1, by omega⟩
  apply last
  rw [← equal, Nat.pow_succ, ← Nat.mul_assoc, Nat.mul_mod_left]

theorem coefficient_eq {a b : Decimal} (exponents : a.exponent = b.exponent)
    (same : a.value = b.value) : a.coefficient = b.coefficient := by
  have power : (10 : ℚ) ^ b.exponent ≠ 0 := zpow_ne_zero _ (by decide)
  rw [value, value, exponents] at same
  exact_mod_cast mul_right_cancel₀ power same

/-- A value has one normal form. -/
theorem IsNormal.eq_of_value_eq {a b : Decimal} (first : a.IsNormal) (second : b.IsNormal)
    (same : a.value = b.value) : a = b := by
  rcases first with last | rfl
  · rcases second with final | rfl
    · have exponents := Int.le_antisymm (exponent_le final same.symm) (exponent_le last same)
      have coefficients := coefficient_eq exponents same
      cases a
      cases b
      exact congrArg₂ mk coefficients exponents
    · have none : a.coefficient = 0 := value_eq_zero.mp (same ▸ value_eq_zero.mpr rfl)
      exact absurd (by rw [none]) last
  · have none : b.coefficient = 0 := value_eq_zero.mp (same ▸ value_eq_zero.mpr rfl)
    rcases second with final | rfl
    · exact absurd (by rw [none]) final
    · rfl

theorem normal_eq_of_value_eq {a b : Decimal} (same : a.value = b.value) : a.normal = b.normal :=
  (isNormal_normal a).eq_of_value_eq (isNormal_normal b) (by rw [value_normal, value_normal, same])

/-- Reading sees nothing of a decimal but its value. -/
theorem toFloat_congr {a b : Decimal} (same : a.value = b.value) : a.toFloat = b.toFloat := by
  rw [toFloat, toFloat, normal_eq_of_value_eq same]

/-- What stands after the digits of a whole number: nothing, or a point and more digits. -/
def fractional : List Char → List Char
  | [] => []
  | c :: row => '.' :: c :: row

/-- The texts of numbers without anything needless: the digits of a whole number and perhaps a
point and more digits, of which the last is not zero. -/
def Plain (text : List Char) : Prop :=
  ∃ n fraction, text = digits n ++ fractional fraction ∧ (∀ c ∈ fraction, isDigit c = true) ∧
    fraction.getLast? ≠ some '0'

theorem ofText_fractional {whole fraction : List Char} (all : ∀ c ∈ whole, isDigit c = true)
    (others : ∀ c ∈ fraction, isDigit c = true) :
    ofText (whole ++ fractional fraction) = ⟨ofDigits (whole ++ fraction), -fraction.length⟩ := by
  simp only [ofText, List.takeWhile_append_of_pos all, List.dropWhile_append_of_pos all]
  cases fraction with
  | nil => simp [fractional]
  | cons c fraction =>
    have point : isDigit '.' = false := by decide
    simp [fractional, point]

theorem ofText_point {whole fraction : List Char} (all : ∀ c ∈ whole, isDigit c = true) :
    ofText (whole ++ '.' :: fraction) = ⟨ofDigits (whole ++ fraction), -fraction.length⟩ := by
  have point : isDigit '.' = false := by decide
  simp only [ofText, List.takeWhile_append_of_pos all, List.dropWhile_append_of_pos all]
  simp [point]

theorem ofDigits_append_mod {whole row : List Char} (rows : ∀ c ∈ row, isDigit c = true)
    (filled : row ≠ []) : ofDigits (whole ++ row) % 10 = 0 ↔ row.getLast? = some '0' := by
  obtain ⟨front, c, rfl⟩ := (List.eq_nil_or_concat row).resolve_left filled
  rw [List.concat_eq_append] at *
  have digit := toNat_of_isDigit (rows c (by simp))
  have same : c = '0' ↔ c.toNat = '0'.toNat := Char.toNat_inj.symm
  rw [← List.append_assoc, ofDigits_concat, List.getLast?_append, List.getLast?_singleton,
    Option.some_or, Option.some_inj, same]
  omega

/-- A plain text is known by what it denotes. -/
theorem Plain.eq_of_value_eq {text other : List Char} (first : Plain text) (second : Plain other)
    (same : (ofText text).value = (ofText other).value) : text = other := by
  obtain ⟨n, row, rfl, rows, last⟩ := first
  obtain ⟨m, line, rfl, lines, final⟩ := second
  rw [ofText_fractional (fun _ => isDigit_of_mem_digits) rows,
    ofText_fractional (fun _ => isDigit_of_mem_digits) lines] at same
  have shorter : row.length ≤ line.length := by
    by_cases empty : row = []
    · simp [empty]
    · have := exponent_le (mt (ofDigits_append_mod rows empty).mp last) same
      simpa using this
  have longer : line.length ≤ row.length := by
    by_cases empty : line = []
    · simp [empty]
    · have := exponent_le (mt (ofDigits_append_mod lines empty).mp final) same.symm
      simpa using this
  have length := Nat.le_antisymm shorter longer
  have equal := coefficient_eq (by simp [length]) same
  simp only [ofDigits_append, ofDigits_digits, length] at equal
  have below := ofDigits_lt rows
  have under := ofDigits_lt lines
  rw [length] at below
  have wholes : n = m := by
    have left := congrArg (· / 10 ^ line.length) equal
    simpa [Nat.mul_add_div (Nat.pow_pos (by decide : 0 < 10)), Nat.div_eq_of_lt below,
      Nat.div_eq_of_lt under] using left
  subst wholes
  rw [ofDigits_inj rows lines length (Nat.add_left_cancel equal)]

theorem digits_mul_pow {n : Nat} (some : 0 < n) (k : Nat) :
    digits (n * 10 ^ k) = digits n ++ List.replicate k '0' := by
  induction k with
  | zero => simp
  | succ k ih =>
    have large : 10 ≤ n * 10 ^ (k + 1) := by
      have := Nat.mul_pos some (Nat.pow_pos (by decide : 0 < 10) : 0 < 10 ^ k)
      rw [Nat.pow_succ, ← Nat.mul_assoc]
      omega
    rw [digits_concat large, Nat.pow_succ, ← Nat.mul_assoc, Nat.mul_div_cancel _ (by decide),
      Nat.mul_mod_left, ih, List.replicate_succ', List.append_assoc]
    rfl

theorem positional_of_whole {d : Decimal} (whole : 0 ≤ d.exponent) :
    d.positional = digits d.coefficient ++ List.replicate d.exponent.toNat '0' := by
  rw [positional]
  exact if_pos whole

/-- With a negative exponent the digits before the point are those of the whole part, and there
are as many after it as the exponent says. -/
theorem positional_of_places {n k : Nat} (some : 0 < k) :
    ∃ fraction, (⟨n, -k⟩ : Decimal).positional = digits (n / 10 ^ k) ++ '.' :: fraction ∧
      fraction.length = k ∧ (∀ c ∈ fraction, isDigit c = true) ∧
      ofDigits (digits (n / 10 ^ k) ++ fraction) = n := by
  have negative : ¬ (0 : Int) ≤ -k := by omega
  have padded : ∀ c ∈ List.replicate (k + 1 - (digits n).length) '0' ++ digits n,
      isDigit c = true := by
    intro c member
    rcases List.mem_append.mp member with zero | digit
    · rw [List.eq_of_mem_replicate zero]
      decide
    · exact isDigit_of_mem_digits digit
  simp only [positional, negative, if_false, Int.natAbs_neg, Int.natAbs_natCast]
  generalize shape : List.replicate (k + 1 - (digits n).length) '0' ++ digits n = row at *
  have long : k < row.length := by
    rw [← shape, List.length_append, List.length_replicate]
    omega
  have value : ofDigits row = n := by
    rw [← shape, ofDigits_append, ofDigits_replicate, ofDigits_digits, Nat.mul_zero, Nat.zero_add]
  have front : row.take (row.length - k) = digits (n / 10 ^ k) := by
    rw [← shape]
    by_cases short : (digits n).length ≤ k
    · have none : n / 10 ^ k = 0 := Nat.div_eq_of_lt ((length_digits_le_iff some).mp short)
      have one : k + 1 - (digits n).length = (k - (digits n).length) + 1 := by omega
      rw [none, List.length_append, List.length_replicate,
        show k + 1 - (digits n).length + (digits n).length - k = 1 by omega, one,
        List.replicate_succ]
      rfl
    · rw [Nat.sub_eq_zero_of_le (by omega : k + 1 ≤ (digits n).length)]
      exact take_digits (by omega)
  refine ⟨row.drop (row.length - k), by rw [front], ?_, ?_, ?_⟩
  · rw [List.length_drop]
    omega
  · exact fun c member => padded c (List.mem_of_mem_drop member)
  · rw [← front, List.take_append_drop, value]

theorem exponent_cases (d : Decimal) :
    (∃ n k : Nat, d = ⟨n, k⟩) ∨ ∃ n k : Nat, 0 < k ∧ d = ⟨n, -k⟩ := by
  obtain ⟨n, e⟩ := d
  rcases Int.lt_or_le e 0 with negative | whole
  · exact .inr ⟨n, e.natAbs, by omega, by congr 1; omega⟩
  · exact .inl ⟨n, e.toNat, by congr 1; omega⟩

/-- Reading a positional text gives back what the decimal denotes. -/
theorem value_ofText_positional (d : Decimal) : (ofText d.positional).value = d.value := by
  rcases exponent_cases d with ⟨n, k, rfl⟩ | ⟨n, k, some, rfl⟩
  · have all : ∀ c ∈ digits n ++ List.replicate k '0', isDigit c = true := by
      intro c member
      rcases List.mem_append.mp member with digit | zero
      · exact isDigit_of_mem_digits digit
      · rw [List.eq_of_mem_replicate zero]
        decide
    have read := @ofText_fractional _ [] all (by simp)
    simp only [fractional, List.append_nil, ofDigits_append, ofDigits_digits, ofDigits_replicate,
      List.length_replicate] at read
    rw [positional_of_whole (Int.natCast_nonneg k), Int.toNat_natCast, read, Nat.add_zero,
      Nat.mul_comm, value_shift]
    simp
  · obtain ⟨fraction, text, length, _, written⟩ := positional_of_places (n := n) some
    rw [text, ofText_point fun _ => isDigit_of_mem_digits, written, length]

theorem plain_digits (n : Nat) : Plain (digits n) :=
  ⟨n, [], (List.append_nil _).symm, by simp, by simp⟩

theorem plain_of_whole {n k : Nat} (proper : n ≠ 0 ∨ k = 0) :
    Plain (⟨n, k⟩ : Decimal).positional := by
  rw [positional_of_whole (Int.natCast_nonneg k), Int.toNat_natCast]
  rcases proper with filled | rfl
  · rw [← digits_mul_pow (Nat.pos_of_ne_zero filled)]
    exact plain_digits _
  · rw [List.replicate_zero, List.append_nil]
    exact plain_digits n

/-- A normal form is written plainly. -/
theorem plain_positional {d : Decimal} (normal : d.IsNormal) : Plain d.positional := by
  rcases exponent_cases d with ⟨n, k, rfl⟩ | ⟨n, k, places, rfl⟩
  · apply plain_of_whole
    rcases normal with last | zero
    · exact .inl fun none => last (by simp [none])
    · injection zero with _ none
      exact .inr (by exact_mod_cast none)
  · obtain ⟨fraction, text, length, all, written⟩ := positional_of_places (n := n) places
    have last : n % 10 ≠ 0 := by
      rcases normal with last | zero
      · exact last
      · injection zero with _ none
        omega
    cases fraction with
    | nil => simp at length; omega
    | cons c fraction =>
      refine ⟨_, c :: fraction, text, all, ?_⟩
      rw [← written] at last
      exact mt (ofDigits_append_mod all (List.cons_ne_nil _ _)).mpr last

/-- A positional text without the zeros at its end, and then without a point there. In a text
without a point no zero is needless. -/
def trimmed (text : List Char) : List Char :=
  if '.' ∈ text then (text.rdropWhile (· == '0')).rdropWhile (· == '.') else text

theorem rdropWhile_append_of_stop {p : Char → Bool} {stop : Char} (stops : p stop = false)
    (front row : List Char) :
    (front ++ stop :: row).rdropWhile p = front ++ stop :: row.rdropWhile p := by
  induction row using List.reverseRecOn with
  | nil => rw [List.rdropWhile_nil, List.rdropWhile_concat_neg _ _ _ (by simp [stops])]
  | append_singleton row c ih =>
    rw [← List.cons_append, ← List.append_assoc, List.rdropWhile_concat, List.rdropWhile_concat, ih]
    split
    · rfl
    · simp

theorem rdropWhile_of_last {p : Char → Bool} {text : List Char} (all : ∀ c ∈ text, p c = false) :
    text.rdropWhile p = text := by
  rw [List.rdropWhile_eq_self_iff]
  intro filled
  simp [all _ (List.getLast_mem filled)]

theorem ne_point_of_isDigit {c : Char} (digit : isDigit c = true) : (c == '.') = false := by
  rw [beq_eq_false_iff_ne]
  rintro rfl
  exact absurd digit (by decide)

theorem trimmed_point {whole fraction : List Char} (all : ∀ c ∈ whole, isDigit c = true)
    (others : ∀ c ∈ fraction, isDigit c = true) :
    trimmed (whole ++ '.' :: fraction) =
      whole ++ fractional (fraction.rdropWhile (· == '0')) := by
  have fewer : ∀ c ∈ fraction.rdropWhile (· == '0'), (c == '.') = false :=
    fun c member => ne_point_of_isDigit (others c ((List.rdropWhile_prefix _ _).mem member))
  rw [trimmed, if_pos (by simp), rdropWhile_append_of_stop (by decide)]
  generalize fraction.rdropWhile (· == '0') = row at fewer
  cases row with
  | nil =>
    rw [List.rdropWhile_concat_pos _ _ _ (by decide), fractional, List.append_nil]
    exact rdropWhile_of_last fun c member => ne_point_of_isDigit (all c member)
  | cons c row =>
    rw [fractional, List.rdropWhile_eq_self_iff]
    intro filled
    rw [List.getLast_append_of_ne_nil filled (List.cons_ne_nil _ _),
      List.getLast_cons (List.cons_ne_nil _ _)]
    simp only [fewer _ (List.getLast_mem _), Bool.false_eq_true, not_false_eq_true]

/-- Zeros at the end of a fraction do not change what it denotes. -/
theorem value_rdropWhile (whole fraction : List Char) :
    (⟨ofDigits (whole ++ fraction.rdropWhile (· == '0')),
      -(fraction.rdropWhile (· == '0')).length⟩ : Decimal).value =
      (⟨ofDigits (whole ++ fraction), -fraction.length⟩ : Decimal).value := by
  have split := List.rdropWhile_append_rtakeWhile (p := (· == '0')) (l := fraction)
  have zeros : fraction.rtakeWhile (· == '0') =
      List.replicate (fraction.rtakeWhile (· == '0')).length '0' :=
    List.eq_replicate_iff.mpr ⟨rfl, fun c member => by simpa using List.mem_rtakeWhile_imp member⟩
  generalize fraction.rdropWhile (· == '0') = row at split
  generalize (fraction.rtakeWhile (· == '0')).length = k at zeros
  rw [zeros] at split
  rw [← split, ← List.append_assoc, ofDigits_append (whole ++ row), ofDigits_replicate,
    List.length_replicate, List.length_append, List.length_replicate, Nat.add_zero, Nat.mul_comm,
    value_shift]
  congr 2
  push_cast
  ring

/-- The trimmed text of a decimal is the text of its normal form. -/
theorem trimmed_positional {d : Decimal} (proper : d.coefficient ≠ 0 ∨ d.exponent ≤ 0) :
    trimmed d.positional = d.normal.positional := by
  suffices shown : Plain (trimmed d.positional) ∧ (ofText (trimmed d.positional)).value = d.value by
    refine shown.1.eq_of_value_eq (plain_positional (isNormal_normal d)) ?_
    rw [shown.2, value_ofText_positional, value_normal]
  rcases exponent_cases d with ⟨n, k, rfl⟩ | ⟨n, k, places, rfl⟩
  · have pointless : trimmed (⟨n, k⟩ : Decimal).positional = (⟨n, k⟩ : Decimal).positional := by
      refine if_neg fun member => ?_
      rw [positional_of_whole (Int.natCast_nonneg k)] at member
      rcases List.mem_append.mp member with digit | zero
      · exact absurd (isDigit_of_mem_digits digit) (by decide)
      · exact absurd (List.eq_of_mem_replicate zero) (by decide)
    rw [pointless]
    exact ⟨plain_of_whole (by simpa using proper), value_ofText_positional _⟩
  · obtain ⟨fraction, text, length, all, written⟩ := positional_of_places (n := n) places
    have fewer : ∀ c ∈ fraction.rdropWhile (· == '0'), isDigit c = true :=
      fun c member => all c ((List.rdropWhile_prefix _ _).mem member)
    rw [text, trimmed_point (fun _ => isDigit_of_mem_digits) all]
    refine ⟨⟨_, _, rfl, fewer, ?_⟩, ?_⟩
    · intro last
      have filled := List.ne_nil_of_mem (List.mem_of_getLast? last)
      have stop := List.rdropWhile_last_not (· == '0') fraction filled
      rw [List.getLast?_eq_some_getLast filled, Option.some_inj] at last
      simp [last] at stop
    · rw [ofText_fractional (fun _ => isDigit_of_mem_digits) fewer, value_rdropWhile, written,
        length]

end Decimal

end Lox
