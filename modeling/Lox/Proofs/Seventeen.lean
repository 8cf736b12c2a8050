import Mathlib
import Lox.Proofs.Rounding

set_option autoImplicit false

namespace Lox

namespace Ratio

def value (r : Ratio) : ℚ :=
  r.num / r.den

theorem value_shift (r : Ratio) (e : Int) : (r.shift e).value = r.value * 10 ^ e := by
  rw [shift]
  split_ifs with whole
  · have power : (10 : ℚ) ^ e = 10 ^ e.toNat := zpow_of_nat 10 (by omega)
    simp only [value, power, Nat.pow_eq]
    push_cast
    ring
  · have power : (10 : ℚ) ^ e = (10 ^ e.natAbs)⁻¹ := zpow_of_neg 10 (by omega)
    simp only [value, power, Nat.pow_eq]
    push_cast
    field_simp

theorem den_shift {r : Ratio} (some : 0 < r.den) (e : Int) : 0 < (r.shift e).den := by
  rw [shift]
  split_ifs
  · exact some
  · exact Nat.mul_pos some (Nat.pow_pos (by decide))

def ofParts (m : Nat) (q : Int) : Ratio :=
  if 0 ≤ q then ⟨m * Nat.pow 2 q.toNat, 1⟩ else ⟨m, Nat.pow 2 q.natAbs⟩

theorem ofFloat_eq (v : Float) :
    ofFloat v = ofParts (Double.mantissa v.toBits.toNat) (Double.exponent v.toBits.toNat) :=
  rfl

theorem value_ofParts (m : Nat) (q : Int) : (ofParts m q).value = m * 2 ^ q := by
  rw [ofParts]
  split_ifs with whole
  · have power : (2 : ℚ) ^ q = 2 ^ q.toNat := zpow_of_nat 2 (by omega)
    simp [value, power]
  · have power : (2 : ℚ) ^ q = (2 ^ q.natAbs)⁻¹ := zpow_of_neg 2 (by omega)
    simp [value, power, div_eq_mul_inv]

theorem den_ofParts (m : Nat) (q : Int) : 0 < (ofParts m q).den := by
  rw [ofParts]
  split_ifs
  · exact Nat.one_pos
  · exact Nat.pow_pos (by decide)

theorem num_ofParts {m : Nat} {q : Int} : (ofParts m q).num = 0 ↔ m = 0 := by
  rw [ofParts]
  split_ifs
  · simp
  · rfl

theorem value_split {r : Ratio} (some : 0 < r.den) :
    r.value = (r.num / r.den : Nat) + (r.num % r.den : Nat) / (r.den : ℚ) := by
  have positive : (0 : ℚ) < r.den := by exact_mod_cast some
  have whole : (r.num : ℚ) = r.den * (r.num / r.den : Nat) + (r.num % r.den : Nat) := by
    exact_mod_cast (Nat.div_add_mod _ _).symm
  rw [value, whole, add_div, mul_div_cancel_left₀ _ positive.ne']

/-- The nearer neighbour on a grid is at most half a step away. -/
theorem exists_neighbour {r : Ratio} (some : 0 < r.den) (e : Int) :
    ∃ n rest, r.neighbours e = ⟨n, e⟩ :: rest ∧
      |(⟨n, e⟩ : Decimal).value - r.value| ≤ 10 ^ e / 2 := by
  have step : (0 : ℚ) < 10 ^ e := zpow_pos (by norm_num) e
  have scaled : r.value = (r.shift (-e)).value * 10 ^ e := by
    rw [value_shift, mul_assoc, ← zpow_add₀ (by norm_num), neg_add_cancel, zpow_zero, mul_one]
  suffices nearer : ∃ n rest, r.neighbours e = ⟨n, e⟩ :: rest ∧
      |(n : ℚ) - (r.shift (-e)).value| ≤ 1 / 2 by
    obtain ⟨n, rest, shape, close⟩ := nearer
    refine ⟨n, rest, shape, ?_⟩
    rw [scaled, Decimal.value, ← sub_mul, abs_mul, abs_of_pos step]
    nlinarith
  have filled := den_shift some (-e)
  simp only [neighbours]
  generalize r.shift (-e) = s at *
  have positive : (0 : ℚ) < s.den := by exact_mod_cast filled
  have proper : (s.num % s.den : Nat) / (s.den : ℚ) < 1 := by
    rw [div_lt_one positive]
    exact_mod_cast Nat.mod_lt _ filled
  have least : (0 : ℚ) ≤ (s.num % s.den : Nat) / (s.den : ℚ) := by positivity
  rw [value_split filled]
  split_ifs with below
  · have short : s.num % s.den * 2 ≤ 1 * s.den := by
      rw [Bool.or_eq_true, Bool.and_eq_true, decide_eq_true_eq, decide_eq_true_eq] at below
      omega
    have half : (s.num % s.den : Nat) / (s.den : ℚ) ≤ 1 / 2 := by
      rw [div_le_div_iff₀ positive (by norm_num)]
      exact_mod_cast short
    refine ⟨_, _, rfl, ?_⟩
    rw [sub_add_cancel_left, abs_neg, abs_of_nonneg least]
    exact half
  · have long : 1 * s.den ≤ s.num % s.den * 2 := by
      rw [Bool.or_eq_true, decide_eq_true_eq, not_or] at below
      omega
    have half : 1 / 2 ≤ (s.num % s.den : Nat) / (s.den : ℚ) := by
      rw [div_le_div_iff₀ (by norm_num) positive]
      exact_mod_cast long
    refine ⟨_, _, rfl, ?_⟩
    rw [Nat.cast_add_one, add_sub_add_left_eq_sub, abs_of_nonneg (by linarith)]
    linarith

/-- The magnitude of a ratio is no larger than its leading digit allows. -/
theorem magnitude_le {r : Ratio} (some : 0 < r.den) (filled : 0 < r.num) :
    10 ^ (r.magnitude - 1) ≤ r.value := by
  have positive : (0 : ℚ) < r.den := by exact_mod_cast some
  rw [magnitude, value, le_div_iff₀ positive]
  split_ifs with large tiny
  · have whole : r.num / r.den ≠ 0 := (Nat.div_pos large some).ne'
    have low := (Decimal.digits_bounds whole).1
    have long : 0 < (Decimal.digits (r.num / r.den)).length := Nat.length_toDigits_pos
    have shape : ((Decimal.digits (r.num / r.den)).length : Int) - 1 =
        ((Decimal.digits (r.num / r.den)).length - 1 : Nat) := by omega
    rw [shape, zpow_natCast]
    exact_mod_cast (Nat.le_div_iff_mul_le some).mp low
  · have := Nat.lt_of_div_eq_zero filled tiny
    omega
  · have high := (Decimal.digits_bounds tiny).2
    rw [Nat.div_lt_iff_lt_mul filled] at high
    rw [sub_sub_cancel_left, zpow_neg, zpow_natCast, inv_mul_le_iff₀ (by positivity)]
    exact_mod_cast (by omega : r.den ≤ 10 ^ (Decimal.digits ((r.den - 1) / r.num)).length * r.num)

end Ratio

namespace Double

theorem canonical_of_finite {bits : Nat} (finite : field bits ≠ 2047) (some : 0 < mantissa bits) :
    Canonical (mantissa bits) (exponent bits) := by
  have fields : field bits < 2 ^ 11 := Nat.mod_lt _ (by decide)
  have lows : low bits < 2 ^ 52 := Nat.mod_lt _ (by decide)
  have parts : mantissa bits = if field bits = 0 then low bits else low bits + 2 ^ 52 := rfl
  have powers : exponent bits = (max (field bits) 1 : Nat) - 1075 := rfl
  refine ⟨some, ?_, ?_, ?_, ?_⟩ <;> split_ifs at parts <;> omega

/-- Seventeen digits are enough: with at most half a step on their grid a decimal is near to the
double. -/
theorem near_of_grid {d : Decimal} {x : ℚ} {m : Nat} {q e : Int} (value : x = m * 2 ^ q)
    (large : 10 ^ (e + 16) ≤ x) (close : |d.value - x| ≤ 10 ^ e / 2) : Near d.value m q := by
  have power : (10 : ℚ) ^ (e + 16) = 10 ^ e * 10 ^ 16 := by
    rw [zpow_add₀ (by norm_num)]
    norm_num
  have step : (0 : ℚ) < 10 ^ e := zpow_pos (by norm_num) e
  rw [Near, ← value]
  rw [power] at large
  nlinarith

end Double

namespace Decimal

theorem toFloat_zero : (⟨0, 0⟩ : Decimal).toFloat.toBits.toNat = 0 := by
  decide +kernel

/-- What the shortest decimal of a double is: a normal form that is read as its magnitude. -/
theorem shortest?_reads {v : Float} {d : Decimal} (known : shortest? v = some d) :
    d.IsNormal ∧ readsBack v d = true := by
  rw [shortest?] at known
  split_ifs at known with zero
  · cases known
    refine ⟨.inr rfl, ?_⟩
    rw [readsBack, toFloat_zero, Nat.pow_eq, Double.unsigned_of_zero (Ratio.num_ofParts.mp zero)]
    rfl
  · obtain ⟨k, _, found⟩ := List.exists_of_findSome?_eq_some known
    obtain ⟨c, first, rfl⟩ := Option.map_eq_some_iff.mp found
    refine ⟨isNormal_normal c, ?_⟩
    have reads := List.find?_some first
    rwa [readsBack, toFloat_congr (value_normal c)]

/-- Every finite double has a shortest decimal. -/
theorem exists_shortest {v : Float} (finite : v.isFinite = true) : ∃ d, shortest? v = some d := by
  have fields := Double.field_of_finite finite
  rw [shortest?, Ratio.ofFloat_eq]
  split_ifs with zero
  · exact ⟨_, rfl⟩
  · have filled := Nat.pos_of_ne_zero zero
    have mantissas := Nat.pos_of_ne_zero (mt Ratio.num_ofParts.mpr zero)
    have canonical := Double.canonical_of_finite fields mantissas
    have whole := Ratio.den_ofParts (Double.mantissa v.toBits.toNat)
      (Double.exponent v.toBits.toNat)
    have value := Ratio.value_ofParts (Double.mantissa v.toBits.toNat)
      (Double.exponent v.toBits.toNat)
    generalize Ratio.ofParts _ _ = r at *
    have large := Ratio.magnitude_le whole filled
    obtain ⟨n, rest, shape, close⟩ := Ratio.exists_neighbour whole (r.magnitude - (16 + 1))
    have near := Double.near_of_grid value (by convert large using 2; ring) close
    have reads : readsBack v ⟨n, r.magnitude - (16 + 1)⟩ = true := by
      rw [readsBack, decide_eq_true_eq, ← UInt64.toNat_toBitVec, toFloat_of_near canonical near,
        Double.toNat_pack_positive fields mantissas]
      rfl
    rw [← Option.isSome_iff_exists, List.findSome?_isSome_iff]
    refine ⟨16, by simp, ?_⟩
    rw [Option.isSome_map, List.find?_isSome]
    refine ⟨⟨n, r.magnitude - (16 + 1)⟩, ?_, reads⟩
    rw [Nat.cast_ofNat, shape]
    exact List.mem_cons_self

end Decimal

end Lox
