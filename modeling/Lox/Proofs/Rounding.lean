import Mathlib
import Lox.Proofs.Doubles
import Lox.Proofs.Numerals

set_option autoImplicit false

/- A mantissa with its residual bits stands for an exact number, and shifting keeps track of it. So
whatever lies nearer to a double than one part in `2 ^ 54` is rounded to it, from a product, from a
quotient, and in the end from a decimal. -/

namespace Lox.Double

open Float.Model (Format UnpackedFloat totalExponent)
open Float.Model.UnpackedFloat

/-- The numbers that a mantissa with a round bit and a sticky bit may stand for. -/
def Represents : ExtendedMantissa → ℚ → Prop
  | ⟨n, false, false⟩, x => x = n
  | ⟨n, false, true⟩, x => n < x ∧ x < n + 1 / 2
  | ⟨n, true, false⟩, x => x = n + 1 / 2
  | ⟨n, true, true⟩, x => n + 1 / 2 < x ∧ x < n + 1

variable {em : ExtendedMantissa} {x : ℚ}

theorem Represents.bounds (stands : Represents em x) : em.mantissa ≤ x ∧ x < em.mantissa + 1 := by
  obtain ⟨n, round, sticky⟩ := em
  cases round <;> cases sticky <;> simp only [Represents] at stands ⊢
  · exact ⟨stands.ge, by linarith⟩
  · exact ⟨stands.1.le, by linarith⟩
  · exact ⟨by linarith, by linarith⟩
  · exact ⟨by linarith, stands.2⟩

theorem Represents.shiftRightOne (stands : Represents em x) :
    Represents em.shiftRightOne (x / 2) := by
  obtain ⟨n, round, sticky⟩ := em
  obtain ⟨h, even | odd⟩ := Nat.even_or_odd' n
  · subst even
    cases round <;> cases sticky <;>
      simp [Represents, ExtendedMantissa.shiftRightOne] at stands ⊢ <;>
      first
        | linarith
        | constructor <;> linarith
  · subst odd
    have half : (2 * h + 1) / 2 = h := by omega
    cases round <;> cases sticky <;>
      simp [Represents, ExtendedMantissa.shiftRightOne, half] at stands ⊢ <;>
      first
        | linarith
        | constructor <;> linarith

theorem Represents.shiftRight (stands : Represents em x) (k : Nat) :
    Represents (em >>> k) (x / 2 ^ k) := by
  change Represents (Nat.repeat ExtendedMantissa.shiftRightOne k em) _
  induction k with
  | zero => simpa [Nat.repeat] using stands
  | succ k ih =>
    rw [Nat.repeat, pow_succ, ← div_div]
    exact ih.shiftRightOne

/-- A number nearer than one half to a whole number is rounded to it. -/
theorem Represents.rounded (stands : Represents em x) {n : Nat} (near : |x - n| < 1 / 2) :
    em.roundedMantissa = n := by
  obtain ⟨m, round, sticky⟩ := em
  obtain ⟨below, above⟩ := abs_lt.mp near
  have least : m < n + 1 := by
    have := stands.bounds.1
    exact_mod_cast (by linarith : (m : ℚ) < n + 1)
  have most : n < m + 2 := by
    have := stands.bounds.2
    exact_mod_cast (by linarith : (n : ℚ) < m + 2)
  cases round <;> cases sticky <;>
    simp only [Represents, ExtendedMantissa.roundedMantissa, ExtendedMantissa.accuracy,
      Accuracy.roundToNearestEven] at stands ⊢
  · have : n < m + 1 := by exact_mod_cast (by linarith : (n : ℚ) < m + 1)
    omega
  · have : n < m + 1 := by exact_mod_cast (by linarith : (n : ℚ) < m + 1)
    omega
  · have : n < m + 1 := by exact_mod_cast (by linarith : (n : ℚ) < m + 1)
    have : m < n := by exact_mod_cast (by linarith : (m : ℚ) < n)
    omega
  · have : m < n := by exact_mod_cast (by linarith : (m : ℚ) < n)
    omega

theorem represents_exact (n : Nat) : Represents (.ofMantissaAndAccuracy n .exact) n :=
  rfl

/-- The residual bits of a quotient. -/
theorem represents_fraction (n : Nat) {d : Nat} (some : 0 < d) :
    Represents (.ofMantissaAndAccuracy (n / d) (accuracyOfFraction (n % d) d)) ((n : ℚ) / d) := by
  have positive : (0 : ℚ) < d := by exact_mod_cast some
  have split : (n : ℚ) / d = (n / d : Nat) + (n % d : Nat) / d := by
    have whole : (n : ℚ) = d * (n / d : Nat) + (n % d : Nat) := by
      exact_mod_cast (Nat.div_add_mod n d).symm
    rw [whole, add_div, mul_div_cancel_left₀ _ positive.ne']
  have proper : ((n % d : Nat) : ℚ) / d < 1 := by
    rw [div_lt_one positive]
    exact_mod_cast Nat.mod_lt n some
  rw [split, accuracyOfFraction]
  generalize n / d = m at *
  generalize n % d = r at *
  split_ifs with zero
  · simp [Represents, ExtendedMantissa.ofMantissaAndAccuracy, zero]
  · have filled : (0 : ℚ) < (r : ℚ) / d := by
      have : (0 : ℚ) < r := by exact_mod_cast Nat.pos_of_ne_zero zero
      positivity
    rcases lt_trichotomy (2 * r) d with less | same | more
    · have half : (r : ℚ) / d < 1 / 2 := by
        rw [div_lt_div_iff₀ positive (by norm_num)]
        exact_mod_cast (by omega : r * 2 < 1 * d)
      rw [Nat.compare_eq_lt.mpr less]
      exact ⟨by linarith, by linarith⟩
    · have half : (r : ℚ) / d = 1 / 2 := by
        rw [div_eq_div_iff positive.ne' (by norm_num)]
        exact_mod_cast (by omega : r * 2 = 1 * d)
      rw [Nat.compare_eq_eq.mpr same]
      exact congrArg _ half
    · have half : 1 / 2 < (r : ℚ) / d := by
        rw [div_lt_div_iff₀ (by norm_num) positive]
        exact_mod_cast (by omega : 1 * d < r * 2)
      rw [Nat.compare_eq_gt.mpr more]
      exact ⟨by linarith, by linarith⟩

/-- The mantissas and exponents of the positive doubles. -/
structure Canonical (m : Nat) (q : Int) : Prop where
  positive : 0 < m
  short : m < 2 ^ 53
  reach : -1074 ≤ q
  top : q ≤ 971
  full : 2 ^ 52 ≤ m ∨ q = -1074

/-- A number is near to a double if they differ by less than one part in `2 ^ 54`. -/
def Near (x : ℚ) (m : Nat) (q : Int) : Prop :=
  |x - m * 2 ^ q| * 2 ^ 54 < m * 2 ^ q

def target (n : Nat) (e : Int) : Int :=
  Format.binary64.targetExponent (totalExponent n e)

theorem target_eq (n : Nat) (e : Int) : target n e = max (n.log2 + e - 52) (-1074) := by
  simp only [target, Format.targetExponent, totalExponent, Format.mantissaBits, Format.minExponent]
  norm_num
  omega

theorem two_zpow_pos (e : Int) : (0 : ℚ) < 2 ^ e :=
  zpow_pos (by norm_num) e

theorem zpow_lt_iff {a b : Int} : (2 : ℚ) ^ a < 2 ^ b ↔ a < b :=
  zpow_lt_zpow_iff_right₀ (by norm_num)

/-- A number whose whole part at an exponent is not zero lies between two powers of two. -/
theorem between_powers {x : ℚ} {n : Nat} {e : Int} (some : 0 < n) (least : n ≤ x / 2 ^ e)
    (most : x / 2 ^ e < n + 1) : 2 ^ (n.log2 + e) ≤ x ∧ x < 2 ^ (n.log2 + 1 + e) := by
  have power := two_zpow_pos e
  have low : 2 ^ n.log2 ≤ n := Nat.log2_self_le (Nat.ne_of_gt some)
  have high : n + 1 ≤ 2 ^ (n.log2 + 1) := Nat.lt_log2_self
  rw [le_div_iff₀ power] at least
  rw [div_lt_iff₀ power] at most
  constructor
  · rw [zpow_add₀ (by norm_num), zpow_natCast]
    have : ((2 ^ n.log2 : Nat) : ℚ) ≤ n := by exact_mod_cast low
    push_cast at this
    nlinarith
  · rw [zpow_add₀ (by norm_num)]
    have : ((n + 1 : Nat) : ℚ) ≤ ((2 ^ (n.log2 + 1) : Nat) : ℚ) := by exact_mod_cast high
    push_cast at this
    have same : (2 : ℚ) ^ ((n.log2 : Int) + 1) = 2 ^ (n.log2 + 1) := by
      exact_mod_cast zpow_natCast (2 : ℚ) (n.log2 + 1)
    rw [same]
    nlinarith

theorem abs_div_sub_lt {x y power : ℚ} (positive : 0 < power) (below : (y - 1 / 2) * power < x)
    (above : x < (y + 1 / 2) * power) : |x / power - y| < 1 / 2 := by
  have least := (lt_div_iff₀ positive).mpr below
  have most := (div_lt_iff₀ positive).mpr above
  rw [abs_lt]
  constructor <;> linarith

section Near

variable {m n : Nat} {q e : Int}

theorem Near.bounds (near : Near x m q) (canonical : Canonical m q) :
    (m - 1 / 2) * 2 ^ q < x ∧ x < (m + 1 / 2) * 2 ^ q := by
  have power := two_zpow_pos q
  have short : (m : ℚ) < 2 ^ 53 := by exact_mod_cast canonical.short
  have close : |x - m * 2 ^ q| < 2 ^ q / 2 := by
    rw [Near] at near
    nlinarith
  obtain ⟨below, above⟩ := abs_lt.mp close
  constructor <;> linarith

theorem Near.lt_power (near : Near x m q) (canonical : Canonical m q) : x < 2 ^ (53 + q) := by
  have power := two_zpow_pos q
  have above := (near.bounds canonical).2
  have short : (m : ℚ) + 1 ≤ 2 ^ 53 := by exact_mod_cast canonical.short
  rw [zpow_add₀ (by norm_num)]
  norm_num at short ⊢
  nlinarith

/-- Unless the number lies below the power of two of a double, it is rounded to the exponent of
the double. -/
theorem target_of_regular (near : Near x m q) (canonical : Canonical m q)
    (regular : 2 ^ (52 + q) ≤ x ∨ q = -1074) (least : n ≤ x / 2 ^ e) (most : x / 2 ^ e < n + 1)
    (room : e ≤ target n e) : target n e = q := by
  have bound := near.lt_power canonical
  rw [target_eq] at room ⊢
  rcases Nat.eq_zero_or_pos n with rfl | some
  · have small : x < 2 ^ e := by
      rwa [Nat.cast_zero, zero_add, div_lt_one (two_zpow_pos e)] at most
    simp only [Nat.log2_zero, Nat.cast_zero, zero_add] at room ⊢
    rcases regular with large | last
    · have := zpow_lt_iff.mp (large.trans_lt small)
      have := canonical.reach
      omega
    · omega
  · obtain ⟨low, high⟩ := between_powers some least most
    have upper := zpow_lt_iff.mp (low.trans_lt bound)
    have := canonical.reach
    rcases regular with large | last
    · have lower := zpow_lt_iff.mp (large.trans_lt high)
      omega
    · omega

/-- Below the power of two of a double the exponent is one less. -/
theorem target_of_boundary (near : Near x m q) (canonical : Canonical m q)
    (below : x < 2 ^ (52 + q)) (normal : q ≠ -1074) (least : n ≤ x / 2 ^ e)
    (most : x / 2 ^ e < n + 1) (room : e ≤ target n e) : m = 2 ^ 52 ∧ target n e = q - 1 := by
  have power := two_zpow_pos q
  have under := (near.bounds canonical).1
  have full := canonical.full.resolve_right normal
  have reach := canonical.reach
  have boundary : m = 2 ^ 52 := by
    by_contra other
    have more : (2 ^ 52 + 1 : ℚ) ≤ m := by exact_mod_cast (by omega : 2 ^ 52 + 1 ≤ m)
    rw [zpow_add₀ (by norm_num)] at below
    norm_num at below
    nlinarith
  refine ⟨boundary, ?_⟩
  have lower : (2 : ℚ) ^ (51 + q) < x := by
    rw [boundary] at under
    rw [zpow_add₀ (by norm_num)]
    norm_num at under ⊢
    nlinarith
  rw [target_eq] at room ⊢
  rcases Nat.eq_zero_or_pos n with rfl | some
  · have small : x < 2 ^ e := by
      rwa [Nat.cast_zero, zero_add, div_lt_one (two_zpow_pos e)] at most
    have := zpow_lt_iff.mp (lower.trans small)
    simp only [Nat.log2_zero, Nat.cast_zero, zero_add] at room ⊢
    omega
  · obtain ⟨low, high⟩ := between_powers some least most
    have := zpow_lt_iff.mp (low.trans_lt below)
    have := zpow_lt_iff.mp (lower.trans high)
    omega

theorem shiftToTargetExponent_eq (accuracy : Accuracy) (room : e ≤ target n e) :
    shiftToTargetExponent Format.binary64 n e accuracy = (ExtendedMantissa.ofMantissaAndAccuracy n
      accuracy >>> (target n e - e).toNat, target n e) := by
  refine Prod.ext rfl ?_
  show e + ((target n e - e).toNat : Int) = target n e
  rw [Int.toNat_of_nonneg (by omega), add_sub_cancel]

theorem target_of_canonical (canonical : Canonical m q) : target m q = q := by
  have short : m.log2 ≤ 52 := Nat.lt_succ_iff.mp
    ((Nat.log2_lt (Nat.ne_of_gt canonical.positive)).mpr canonical.short)
  have reach := canonical.reach
  rw [target_eq]
  rcases canonical.full with full | last
  · have long : 52 ≤ m.log2 := (Nat.le_log2 (Nat.ne_of_gt canonical.positive)).mpr full
    omega
  · omega

/-- Rounding shifts to the target exponent, rounds, and shifts once more. -/
theorem roundWithAccuracy_eq {accuracy : Accuracy} (r : Nat) (last : ExtendedMantissa) (s : Sign)
    (some : 0 < m) (room : e ≤ target n e)
    (rounded : (ExtendedMantissa.ofMantissaAndAccuracy n accuracy >>>
      (target n e - e).toNat).roundedMantissa = r)
    (again : shiftToTargetExponent Format.binary64 r (target n e) .exact = (last, q))
    (mantissa : last.mantissa = m) :
    roundWithAccuracy Format.binary64 s n e accuracy = .finite s m q some := by
  have first := shiftToTargetExponent_eq accuracy room
  have once : (shiftToTargetExponent Format.binary64 n e accuracy).1.roundedMantissa = r := by
    rw [first, rounded]
  have exponent : (shiftToTargetExponent Format.binary64 n e accuracy).2 = target n e := by
    rw [first]
  rw [← exponent] at again
  subst once mantissa
  have shifted := congrArg Prod.fst again
  have moved := congrArg Prod.snd again
  dsimp only at shifted moved
  subst shifted moved
  exact dif_neg (Nat.ne_of_gt some)

/-- Shifted to the target exponent, the residual bits stand for the number at that exponent. -/
theorem Represents.shifted {accuracy : Accuracy}
    (stands : Represents (.ofMantissaAndAccuracy n accuracy) (x / 2 ^ e)) (room : e ≤ target n e) :
    Represents (ExtendedMantissa.ofMantissaAndAccuracy n accuracy >>> (target n e - e).toNat)
      (x / 2 ^ target n e) := by
  have scaled : x / 2 ^ e / 2 ^ (target n e - e).toNat = x / 2 ^ target n e := by
    rw [div_div, ← zpow_natCast, Int.toNat_of_nonneg (by omega), ← zpow_add₀ (by norm_num),
      add_sub_cancel]
  rw [← scaled]
  exact stands.shiftRight _

theorem roundWithAccuracy_of_regular {accuracy : Accuracy} (near : Near x m q)
    (canonical : Canonical m q)
    (stands : Represents (.ofMantissaAndAccuracy n accuracy) (x / 2 ^ e)) (room : e ≤ target n e)
    (same : target n e = q) (s : Sign) :
    roundWithAccuracy Format.binary64 s n e accuracy = .finite s m q canonical.positive := by
  obtain ⟨under, above⟩ := near.bounds canonical
  have still := target_of_canonical canonical
  refine roundWithAccuracy_eq m ⟨m, false, false⟩ s canonical.positive room ?_ ?_ rfl
  · refine (stands.shifted room).rounded ?_
    rw [same]
    exact abs_div_sub_lt (two_zpow_pos q) under above
  · rw [same, shiftToTargetExponent_eq .exact still.ge, still, sub_self]
    rfl

/-- Just below a power of two, rounding goes up to it and the mantissa is shifted once more. -/
theorem roundWithAccuracy_of_boundary {accuracy : Accuracy} (near : Near x (2 ^ 52) q)
    (canonical : Canonical (2 ^ 52) q)
    (stands : Represents (.ofMantissaAndAccuracy n accuracy) (x / 2 ^ e)) (room : e ≤ target n e)
    (below : x < 2 ^ (52 + q)) (same : target n e = q - 1) (s : Sign) :
    roundWithAccuracy Format.binary64 s n e accuracy = .finite s (2 ^ 52) q canonical.positive := by
  have power := two_zpow_pos (q - 1)
  have twice : (2 : ℚ) ^ q = 2 ^ (q - 1) * 2 := by
    rw [← zpow_add_one₀ (by norm_num), sub_add_cancel]
  have top : (2 : ℚ) ^ (52 + q) = 2 ^ 52 * 2 ^ q := by
    rw [zpow_add₀ (by norm_num)]
    norm_num
  have up : target (2 ^ 53) (q - 1) = q := by
    have reach := canonical.reach
    rw [target_eq, Nat.log2_two_pow]
    omega
  refine roundWithAccuracy_eq (2 ^ 53) ⟨2 ^ 52, false, false⟩ s canonical.positive room ?_ ?_ rfl
  · refine (stands.shifted room).rounded ?_
    have close := (abs_lt.mp ((lt_div_iff₀ (by norm_num)).mpr near)).1
    rw [top, twice] at below
    push_cast at close ⊢
    rw [twice] at close
    rw [same]
    exact abs_div_sub_lt power (by linarith) (by linarith)
  · rw [same, shiftToTargetExponent_eq .exact (by omega), up, sub_sub_cancel]
    rfl

/-- What is near to a double is rounded to it. -/
theorem roundWithAccuracy_of_near {accuracy : Accuracy} (near : Near x m q)
    (canonical : Canonical m q)
    (stands : Represents (.ofMantissaAndAccuracy n accuracy) (x / 2 ^ e)) (room : e ≤ target n e)
    (s : Sign) :
    roundWithAccuracy Format.binary64 s n e accuracy = .finite s m q canonical.positive := by
  have mantissa : (ExtendedMantissa.ofMantissaAndAccuracy n accuracy).mantissa = n := by
    rcases accuracy with _ | (_ | _ | _) <;> rfl
  obtain ⟨least, most⟩ := stands.bounds
  rw [mantissa] at least most
  by_cases regular : 2 ^ (52 + q) ≤ x ∨ q = -1074
  · have same := target_of_regular near canonical regular least most room
    exact roundWithAccuracy_of_regular near canonical stands room same s
  · rw [not_or, not_le] at regular
    obtain ⟨rfl, same⟩ := target_of_boundary near canonical regular.1 regular.2 least most room
    exact roundWithAccuracy_of_boundary near canonical stands room regular.1 same s

variable {m₁ m₂ : Nat} {e₁ e₂ : Int}

theorem mul_of_near (some : 0 < m₁) (other : 0 < m₂) (canonical : Canonical m q)
    (near : Near (m₁ * 2 ^ e₁ * (m₂ * 2 ^ e₂)) m q)
    (room : e₁ + e₂ ≤ target (m₁ * m₂) (e₁ + e₂)) :
    mul Format.binary64 (.finite .positive m₁ e₁ some) (.finite .positive m₂ e₂ other) =
      .finite .positive m q canonical.positive := by
  refine roundWithAccuracy_of_near near canonical ?_ room .positive
  have power := (two_zpow_pos (e₁ + e₂)).ne'
  have exact : (m₁ : ℚ) * 2 ^ e₁ * (m₂ * 2 ^ e₂) / 2 ^ (e₁ + e₂) = (m₁ * m₂ : Nat) := by
    rw [div_eq_iff power, zpow_add₀ (by norm_num)]
    push_cast
    ring
  rw [exact]
  exact represents_exact _

/-- The exponent of a quotient leaves it at least as many bits as are kept. -/
theorem room_of_quotient (some : 0 < m₁) (other : 0 < m₂) {e : Int}
    (chosen : e = min (e₁ - e₂) (Format.binary64.targetExponent
      (totalExponent m₁ e₁ - totalExponent m₂ e₂))) :
    e ≤ target (m₁ <<< (e₁ - e₂ - e).toNat / m₂) e := by
  have spread : Format.binary64.targetExponent (totalExponent m₁ e₁ - totalExponent m₂ e₂) =
      max (m₁.log2 + e₁ - (m₂.log2 + e₂) - 53) (-1074) := by
    simp only [Format.targetExponent, totalExponent, Format.mantissaBits, Format.minExponent]
    norm_num
    omega
  rw [spread] at chosen
  rw [target_eq, Nat.shiftLeft_eq]
  by_cases small : e ≤ -1074
  · omega
  · obtain ⟨k, shift⟩ : ∃ k : Nat, k = (e₁ - e₂ - e).toNat := ⟨_, rfl⟩
    rw [← shift]
    have enough : m₂.log2 + 53 ≤ m₁.log2 + k := by omega
    have low := Nat.log2_self_le (Nat.ne_of_gt some)
    have high := Nat.lt_log2_self (n := m₂)
    have large : 2 ^ 52 ≤ m₁ * 2 ^ k / m₂ := by
      rw [Nat.le_div_iff_mul_le other]
      calc 2 ^ 52 * m₂ ≤ 2 ^ 52 * 2 ^ (m₂.log2 + 1) := Nat.mul_le_mul_left _ high.le
        _ = 2 ^ (m₂.log2 + 53) := by rw [← Nat.pow_add]; congr 1; omega
        _ ≤ 2 ^ (m₁.log2 + k) := Nat.pow_le_pow_right (by decide) enough
        _ = 2 ^ m₁.log2 * 2 ^ k := Nat.pow_add _ _ _
        _ ≤ m₁ * 2 ^ k := Nat.mul_le_mul_right _ low
    have long : 52 ≤ (m₁ * 2 ^ k / m₂).log2 := (Nat.le_log2 (by omega)).mpr large
    omega

theorem div_of_near (some : 0 < m₁) (other : 0 < m₂) (canonical : Canonical m q)
    (near : Near (m₁ * 2 ^ e₁ / (m₂ * 2 ^ e₂)) m q) :
    div Format.binary64 (.finite .positive m₁ e₁ some) (.finite .positive m₂ e₂ other) =
      .finite .positive m q canonical.positive := by
  obtain ⟨e, chosen⟩ : ∃ e, e = min (e₁ - e₂) (Format.binary64.targetExponent
    (totalExponent m₁ e₁ - totalExponent m₂ e₂)) := ⟨_, rfl⟩
  have room := room_of_quotient some other chosen
  have below : e ≤ e₁ - e₂ := by omega
  have stands := represents_fraction (m₁ <<< (e₁ - e₂ - e).toNat) other
  have scaled : (m₁ : ℚ) * 2 ^ e₁ / (m₂ * 2 ^ e₂) / 2 ^ e =
      (m₁ <<< (e₁ - e₂ - e).toNat : Nat) / m₂ := by
    have first := (two_zpow_pos e).ne'
    have second := (two_zpow_pos e₂).ne'
    have sum : e₁ = e₂ + e + (e₁ - e₂ - e).toNat := by omega
    have power : (2 : ℚ) ^ e₁ = 2 ^ e₂ * 2 ^ e * 2 ^ (e₁ - e₂ - e).toNat := by
      conv_lhs => rw [sum, zpow_add₀ (by norm_num), zpow_add₀ (by norm_num), zpow_natCast]
    rw [power, Nat.shiftLeft_eq]
    push_cast
    field_simp
  rw [← scaled] at stands
  have rounded := roundWithAccuracy_of_near near canonical stands room .positive
  rw [← rounded, chosen]
  rfl

/-- What is near to a finite double lies in the range of the doubles. -/
theorem Near.range (near : Near x m q) (canonical : Canonical m q) :
    2 ^ (-1075 : Int) < x ∧ x < 2 ^ (1024 : Int) := by
  constructor
  · have power := two_zpow_pos q
    have least : (1 : ℚ) ≤ m := by exact_mod_cast canonical.positive
    have small : (2 : ℚ) ^ (-1074 : Int) ≤ 2 ^ q :=
      zpow_le_zpow_right₀ (by norm_num) canonical.reach
    have half : (2 : ℚ) ^ (-1075 : Int) = 2 ^ (-1074 : Int) / 2 := by
      rw [show (-1075 : Int) = -1074 - 1 by norm_num, zpow_sub_one₀ (by norm_num)]
      rfl
    have below := (near.bounds canonical).1
    rw [half]
    nlinarith
  · have top := canonical.top
    exact (near.lt_power canonical).trans_le (zpow_le_zpow_right₀ (by norm_num) (by omega))

theorem Near.positive (near : Near x m q) (canonical : Canonical m q) : 0 < x :=
  (two_zpow_pos _).trans (near.range canonical).1

theorem pos_of_near {c : Nat} {k : Int} (canonical : Canonical m q)
    (near : Near (c * 10 ^ k) m q) : 0 < c := by
  by_contra none
  have positive := near.positive canonical
  rw [Nat.eq_zero_of_not_pos none, Nat.cast_zero, zero_mul] at positive
  exact lt_irrefl _ positive

/-- The exponent of a decimal near to a double is not so far from zero that it is not worked
out. -/
theorem exponent_of_near {c : Nat} {k : Int} (canonical : Canonical m q)
    (near : Near (c * 10 ^ k) m q) : k ≤ 1024 ∧ -1076 - (c.log2 : Int) ≤ k := by
  obtain ⟨low, high⟩ := near.range canonical
  have ten : (0 : ℚ) < 10 ^ k := zpow_pos (by norm_num) k
  constructor
  · by_contra large
    have least : (1 : ℚ) ≤ c := by exact_mod_cast pos_of_near canonical near
    have power : (2 : ℚ) ^ (1024 : Int) ≤ 10 ^ k :=
      (zpow_le_zpow_right₀ one_le_two (by omega)).trans
        (zpow_le_zpow_left₀ (by omega) (by norm_num) (by norm_num))
    exact absurd (power.trans (le_mul_of_one_le_left ten.le least)) (not_le.mpr high)
  · by_contra less
    have opposite : k = -(k.natAbs : Int) := by omega
    have power : (10 : ℚ) ^ k ≤ 2 ^ k := by
      rw [zpow_of_neg 10 opposite, zpow_of_neg 2 opposite]
      exact inv_anti₀ (by positivity) (pow_le_pow_left₀ (by norm_num) (by norm_num) _)
    have bits : (c : ℚ) < 2 ^ ((c.log2 : Int) + 1) := by exact_mod_cast Nat.lt_log2_self (n := c)
    have product : (c : ℚ) * 10 ^ k ≤ 2 ^ ((c.log2 : Int) + 1) * 2 ^ k :=
      mul_le_mul bits.le power ten.le (two_zpow_pos _).le
    rw [← zpow_add₀ (by norm_num)] at product
    have := zpow_lt_iff.mp (low.trans_le product)
    omega

theorem ofScientific_of_near {c : Nat} {k : Int} (canonical : Canonical m q)
    (near : Near (c * 10 ^ k) m q) :
    UnpackedFloat.ofScientific Format.binary64 c k = .finite .positive m q canonical.positive := by
  have some := pos_of_near canonical near
  obtain ⟨small, large⟩ := exponent_of_near canonical near
  rw [UnpackedFloat.ofScientific, dif_neg (Nat.ne_of_gt some), if_neg (by norm_num; omega),
    if_neg (by norm_num; omega)]
  split_ifs with whole
  · refine mul_of_near _ _ canonical ?_ ?_
    · have unit : ((c <<< Format.binary64.mantissaBits : Nat) : ℚ) *
          2 ^ (-(Format.binary64.mantissaBits : Int)) = c := by
        rw [Nat.shiftLeft_eq, zpow_of_neg 2 rfl]
        push_cast
        field_simp
      rw [zpow_of_nat 10 (Int.toNat_of_nonneg whole).symm] at near
      rw [unit, zpow_zero, mul_one, Nat.cast_pow, Nat.cast_ofNat]
      exact near
    · have width : Format.binary64.mantissaBits = 53 := rfl
      have product : 2 ^ 53 ≤ c <<< 53 * 10 ^ k.toNat := by
        rw [Nat.shiftLeft_eq]
        calc 2 ^ 53 ≤ c * 2 ^ 53 := Nat.le_mul_of_pos_left _ some
          _ ≤ c * 2 ^ 53 * 10 ^ k.toNat := Nat.le_mul_of_pos_right _ (by positivity)
      have long : 53 ≤ (c <<< 53 * 10 ^ k.toNat).log2 := (Nat.le_log2 (by omega)).mpr product
      rw [width, target_eq]
      omega
  · refine div_of_near some _ canonical ?_
    have opposite : k = -((-k).toNat : Int) := by omega
    rw [zpow_of_neg 10 opposite, ← div_eq_mul_inv] at near
    rw [zpow_zero, mul_one, mul_one, Nat.cast_pow, Nat.cast_ofNat]
    exact near

/-- The bits of a positive double. -/
theorem exists_bits (canonical : Canonical m q) :
    ∃ bits < 2 ^ 63, field bits ≠ 2047 ∧ mantissa bits = m ∧ exponent bits = q := by
  have short := canonical.short
  have reach := canonical.reach
  have top := canonical.top
  by_cases normal : 2 ^ 52 ≤ m
  · have exponents : field ((q + 1075).toNat * 2 ^ 52 + (m - 2 ^ 52)) = (q + 1075).toNat := by
      simp only [field, Nat.pow_eq]
      omega
    have lows : low ((q + 1075).toNat * 2 ^ 52 + (m - 2 ^ 52)) = m - 2 ^ 52 := by
      simp only [low, Nat.pow_eq]
      omega
    refine ⟨(q + 1075).toNat * 2 ^ 52 + (m - 2 ^ 52), by omega, ?_, ?_, ?_⟩
    · rw [exponents]
      omega
    · rw [mantissa, exponents, lows, if_neg (by omega), Nat.pow_eq]
      omega
    · rw [exponent, exponents]
      omega
  · have last := canonical.full.resolve_left normal
    have exponents : field m = 0 := by
      simp only [field, Nat.pow_eq]
      omega
    refine ⟨m, by omega, ?_, ?_, ?_⟩
    · omega
    · rw [mantissa, if_pos exponents, low, Nat.pow_eq]
      omega
    · rw [exponent, exponents, last]
      rfl

theorem unpack_pack (canonical : Canonical m q) :
    unpack Format.binary64 (pack Format.binary64 (.finite .positive m q canonical.positive)) =
      .finite .positive m q canonical.positive := by
  obtain ⟨bits, clear, finite, rfl, rfl⟩ := exists_bits canonical
  have same := toNat_pack_positive finite canonical.positive
  rw [Nat.mod_eq_of_lt clear] at same
  generalize pack Format.binary64 _ = b at same
  subst same
  rw [unpack_eq finite canonical.positive, unpackSign_of_lt clear]

/-- Whether a double is positive and exactly a number, with a full mantissa. -/
def Exactly (v : Float) (x : ℚ) : Prop :=
  ∃ (m : Nat) (q : Int) (some : 0 < m), 2 ^ 52 ≤ m ∧ (m : ℚ) * 2 ^ q = x ∧
    unpack Format.binary64 v.toBits.toBitVec = .finite .positive m q some

theorem near_self (canonical : Canonical m q) : Near (m * 2 ^ q) m q := by
  have some : (0 : ℚ) < m := by exact_mod_cast canonical.positive
  have power := two_zpow_pos q
  rw [Near, sub_self, abs_zero, zero_mul]
  positivity

/-- The mantissa of a whole number that a double holds exactly. -/
theorem canonical_whole {n : Nat} (some : 0 < n) (short : n < 2 ^ 53) :
    2 ^ 52 ≤ n * 2 ^ (52 - n.log2) ∧ Canonical (n * 2 ^ (52 - n.log2)) (n.log2 - 52) := by
  have log := (Nat.log2_lt (Nat.ne_of_gt some)).mpr short
  have low := Nat.log2_self_le (Nat.ne_of_gt some)
  have high := Nat.lt_log2_self (n := n)
  have least : 2 ^ 52 ≤ n * 2 ^ (52 - n.log2) := by
    calc 2 ^ 52 = 2 ^ n.log2 * 2 ^ (52 - n.log2) := by rw [← Nat.pow_add]; congr 1; omega
      _ ≤ n * 2 ^ (52 - n.log2) := Nat.mul_le_mul_right _ low
  have most : n * 2 ^ (52 - n.log2) < 2 ^ 53 := by
    calc n * 2 ^ (52 - n.log2) < 2 ^ (n.log2 + 1) * 2 ^ (52 - n.log2) :=
          Nat.mul_lt_mul_of_pos_right high (by positivity)
      _ = 2 ^ 53 := by rw [← Nat.pow_add]; congr 1; omega
  exact ⟨least, by omega, most, by omega, by omega, .inl least⟩

theorem value_whole {n : Nat} (some : 0 < n) (short : n < 2 ^ 53) :
    ((n * 2 ^ (52 - n.log2) : Nat) : ℚ) * 2 ^ ((n.log2 : Int) - 52) = n := by
  have log := (Nat.log2_lt (Nat.ne_of_gt some)).mpr short
  have opposite : (n.log2 : Int) - 52 = -((52 - n.log2 : Nat) : Int) := by omega
  rw [zpow_of_neg 2 opposite]
  push_cast
  field_simp

theorem exactly_toFloat {n : Nat} (some : 0 < n) (short : n < 2 ^ 53) :
    Exactly n.toUInt64.toFloat n := by
  have whole : n.toUInt64.toNat = n := by
    simp
    omega
  obtain ⟨full, canonical⟩ := canonical_whole some short
  have value := value_whole some short
  have chosen : Format.binary64.targetExponent (totalExponent n 0) = n.log2 - 52 := by
    have same := target_eq n 0
    rw [target] at same
    omega
  have log := (Nat.log2_lt (Nat.ne_of_gt some)).mpr short
  have shift : ((0 : Int) - (n.log2 - 52)).toNat = 52 - n.log2 := by omega
  have rounded : UnpackedFloat.ofUInt64 Format.binary64 n.toUInt64 =
      .finite .positive (n * 2 ^ (52 - n.log2)) (n.log2 - 52) canonical.positive := by
    have near := near_self canonical
    have represents := represents_exact (n * 2 ^ (52 - n.log2))
    have scaled : ((n * 2 ^ (52 - n.log2) : Nat) : ℚ) * 2 ^ ((n.log2 : Int) - 52) /
        2 ^ ((n.log2 : Int) - 52) = (n * 2 ^ (52 - n.log2) : Nat) :=
      mul_div_cancel_right₀ _ (two_zpow_pos _).ne'
    rw [← scaled] at represents
    have still := target_of_canonical canonical
    have result := roundWithAccuracy_of_near near canonical represents still.ge .positive
    have order : compare (n : Int) 0 = .gt := by
      rw [Int.compare_eq_gt]
      omega
    rw [← result]
    simp only [UnpackedFloat.ofUInt64, UnpackedFloat.ofNat, UnpackedFloat.ofInt,
      UnpackedFloat.normalize, order, Int.toNat_natCast, whole, UnpackedFloat.round,
      decreaseExponent, chosen, shift, Nat.shiftLeft_eq]
    congr 1
    omega
  refine ⟨_, _, canonical.positive, full, value, ?_⟩
  rw [← unpack_pack canonical, ← rounded]
  rfl

theorem powers_table : ∀ k : Fin 23,
    let bits := Float.exactlyRepresentablePowersOfTen[k].toBits.toNat
    bits < 2 ^ 63 ∧ field bits ≠ 2047 ∧ 2 ^ 52 ≤ mantissa bits ∧
      mantissa bits * 2 ^ (exponent bits).toNat = 10 ^ k.val * 2 ^ (-exponent bits).toNat := by
  decide +kernel

theorem two_zpow_split (q : Int) : (2 : ℚ) ^ q = 2 ^ q.toNat / 2 ^ (-q).toNat := by
  rw [← zpow_natCast, ← zpow_natCast, ← zpow_sub₀ (by norm_num)]
  congr 1
  omega

theorem exactly_powers (k : Fin 23) :
    Exactly Float.exactlyRepresentablePowersOfTen[k] (10 ^ k.val) := by
  obtain ⟨clear, finite, full, same⟩ := powers_table k
  generalize Float.exactlyRepresentablePowersOfTen[k] = v at *
  have some : 0 < mantissa v.toBits.toNat := by omega
  refine ⟨mantissa v.toBits.toNat, exponent v.toBits.toNat, some, full, ?_, ?_⟩
  · rw [two_zpow_split, mul_div_assoc', div_eq_iff (by positivity)]
    exact_mod_cast same
  · rw [unpack_eq (b := v.toBits.toBitVec) finite some, unpackSign_of_lt clear]
    rfl

theorem mul_of_exactly {v w : Float} {y z : ℚ} (first : Exactly v y) (second : Exactly w z)
    (canonical : Canonical m q) (near : Near (y * z) m q) :
    (v * w).toBits.toBitVec = pack Format.binary64 (.finite .positive m q canonical.positive) := by
  obtain ⟨m₁, e₁, some, full, rfl, unpacked⟩ := first
  obtain ⟨m₂, e₂, other, wide, rfl, others⟩ := second
  show pack Format.binary64 (mul Format.binary64 (unpack Format.binary64 v.toBits.toBitVec)
    (unpack Format.binary64 w.toBits.toBitVec)) = _
  rw [unpacked, others, mul_of_near some other canonical near]
  have product : 2 ^ 53 ≤ m₁ * m₂ := by nlinarith
  have long : 53 ≤ (m₁ * m₂).log2 := (Nat.le_log2 (by omega)).mpr product
  rw [target_eq]
  omega

theorem div_of_exactly {v w : Float} {y z : ℚ} (first : Exactly v y) (second : Exactly w z)
    (canonical : Canonical m q) (near : Near (y / z) m q) :
    (v / w).toBits.toBitVec = pack Format.binary64 (.finite .positive m q canonical.positive) := by
  obtain ⟨m₁, e₁, some, full, rfl, unpacked⟩ := first
  obtain ⟨m₂, e₂, other, wide, rfl, others⟩ := second
  show pack Format.binary64 (div Format.binary64 (unpack Format.binary64 v.toBits.toBitVec)
    (unpack Format.binary64 w.toBits.toBitVec)) = _
  rw [unpacked, others, div_of_near some other canonical near]

/-- A decimal near to a double is read as that double, also where both its parts are doubles and
one operation on them is enough. -/
theorem float_ofScientific_of_near {c : Nat} {k : Int} (canonical : Canonical m q)
    (near : Near (c * 10 ^ k) m q) :
    (Float.ofScientific c (k < 0) k.natAbs).toBits.toBitVec =
      pack Format.binary64 (.finite .positive m q canonical.positive) := by
  have some := pos_of_near canonical near
  have slow : (Float.ofModel (Float.Model.ofScientific c k)).toBits.toBitVec =
      pack Format.binary64 (.finite .positive m q canonical.positive) := by
    rw [← ofScientific_of_near canonical near]
    rfl
  by_cases negative : k < 0
  · have opposite : (10 : ℚ) ^ k = (10 ^ k.natAbs)⁻¹ := zpow_of_neg 10 (by omega)
    have exponent : Int.negOfNat k.natAbs = k := by
      rw [Int.negOfNat_eq, Int.ofNat_eq_natCast]
      omega
    simp only [Float.ofScientific, negative, decide_true, if_true]
    split_ifs with fast
    · rw [opposite, ← div_eq_mul_inv] at near
      exact div_of_exactly (exactly_toFloat some fast.1)
        (exactly_powers ⟨k.natAbs, Nat.lt_succ_of_le fast.2⟩) canonical near
    · rw [exponent]
      exact slow
  · have same : (10 : ℚ) ^ k = 10 ^ k.natAbs := zpow_of_nat 10 (by omega)
    have exponent : Int.ofNat k.natAbs = k := Int.natAbs_of_nonneg (Int.not_lt.mp negative)
    simp only [Float.ofScientific, negative, decide_false, Bool.false_eq_true, if_false]
    split_ifs with fast
    · rw [same] at near
      exact mul_of_exactly (exactly_toFloat some fast.1)
        (exactly_powers ⟨k.natAbs, Nat.lt_succ_of_le fast.2⟩) canonical near
    · rw [exponent]
      exact slow

end Near

end Lox.Double

namespace Lox.Decimal

open Float.Model (Format)
open Float.Model.UnpackedFloat
open Double (Near Canonical)

theorem digits_bounds {n : Nat} (some : n ≠ 0) :
    10 ^ ((digits n).length - 1) ≤ n ∧ n < 10 ^ (digits n).length := by
  have long : 0 < (digits n).length := Nat.length_toDigits_pos
  refine ⟨?_, (length_digits_le_iff long).mp (Nat.le_refl _)⟩
  by_contra less
  rcases Nat.eq_zero_or_pos ((digits n).length - 1) with zero | more
  · rw [zero] at less
    omega
  · have := (length_digits_le_iff more).mpr (Nat.lt_of_not_le less)
    omega

/-- The leading digit of a decimal says how large it is. -/
theorem value_bounds {d : Decimal} (some : d.coefficient ≠ 0) :
    10 ^ (d.exponent + (digits d.coefficient).length - 1) ≤ d.value ∧
      d.value < 10 ^ (d.exponent + (digits d.coefficient).length) := by
  obtain ⟨low, high⟩ := digits_bounds some
  have long : 0 < (digits d.coefficient).length := Nat.length_toDigits_pos
  have power : (0 : ℚ) < 10 ^ d.exponent := zpow_pos (by norm_num) _
  constructor
  · have shape : d.exponent + ((digits d.coefficient).length : Int) - 1 =
        ((digits d.coefficient).length - 1 : Nat) + d.exponent := by omega
    rw [shape, zpow_add₀ (by norm_num), zpow_natCast, value]
    have cast : (10 : ℚ) ^ ((digits d.coefficient).length - 1) ≤ d.coefficient := by
      exact_mod_cast low
    nlinarith
  · rw [add_comm, zpow_add₀ (by norm_num), zpow_natCast, value]
    have cast : (d.coefficient : ℚ) < 10 ^ (digits d.coefficient).length := by exact_mod_cast high
    nlinarith

theorem two_pow_le_ten_pow {a b : Nat} (less : a ≤ 3 * b) : (2 : ℚ) ^ a ≤ 10 ^ b :=
  calc (2 : ℚ) ^ a ≤ 2 ^ (3 * b) := pow_le_pow_right₀ one_le_two less
    _ = (2 ^ 3) ^ b := pow_mul 2 3 b
    _ ≤ 10 ^ b := pow_le_pow_left₀ (by norm_num) (by norm_num) b

/-- A decimal that differs from a positive double by less than one part in `2 ^ 54` is read as
that double. -/
theorem toFloat_of_near {d : Decimal} {m : Nat} {q : Int} (canonical : Canonical m q)
    (near : Near d.value m q) : d.toFloat.toBits.toBitVec =
      pack Format.binary64 (.finite .positive m q canonical.positive) := by
  rw [← value_normal] at near
  have positive := near.positive canonical
  have some : d.normal.coefficient ≠ 0 := by
    rw [ne_eq, ← value_eq_zero]
    exact positive.ne'
  obtain ⟨least, most⟩ := near.range canonical
  obtain ⟨low, high⟩ := value_bounds some
  have upper : d.normal.exponent + (digits d.normal.coefficient).length - 1 < 400 := by
    have top : (2 : ℚ) ^ (1024 : Int) ≤ 10 ^ (400 : Int) := by
      rw [@zpow_of_nat 2 1024 1024 rfl, @zpow_of_nat 10 400 400 rfl]
      exact two_pow_le_ten_pow (by decide)
    exact (zpow_lt_zpow_iff_right₀ (by norm_num)).mp ((low.trans_lt most).trans_le top)
  have lower : -400 < d.normal.exponent + (digits d.normal.coefficient).length := by
    have bottom : (10 : ℚ) ^ (-400 : Int) ≤ 2 ^ (-1075 : Int) := by
      rw [@zpow_of_neg 10 (-400) 400 rfl, @zpow_of_neg 2 (-1075) 1075 rfl]
      exact inv_anti₀ (by positivity) (two_pow_le_ten_pow (by decide))
    exact (zpow_lt_zpow_iff_right₀ (by norm_num)).mp (bottom.trans_lt (least.trans high))
  have inside : ¬ (d.normal.coefficient = 0 ||
      d.normal.exponent + (digits d.normal.coefficient).length < -reach) = true := by
    rw [Bool.or_eq_true, decide_eq_true_eq, decide_eq_true_eq, not_or, reach]
    exact ⟨some, by omega⟩
  have bounded : ¬ reach < d.normal.exponent + (digits d.normal.coefficient).length := by
    rw [reach]
    omega
  simp only [toFloat]
  rw [if_neg inside, if_neg bounded]
  exact Double.float_ofScientific_of_near canonical near

end Lox.Decimal
