import Mathlib
import Lox.Decimal.Shortest

set_option autoImplicit false

namespace Lox.Double

open Float.Model (Format UnpackedFloat)
open Float.Model.UnpackedFloat

def field (bits : Nat) : Nat :=
  bits / Nat.pow 2 52 % Nat.pow 2 11

def low (bits : Nat) : Nat :=
  bits % Nat.pow 2 52

/-- The mantissa, which has one more bit than its field unless the exponent field is zero. -/
def mantissa (bits : Nat) : Nat :=
  if field bits = 0 then low bits else low bits + Nat.pow 2 52

/-- The exponent of the last bit of the mantissa. -/
def exponent (bits : Nat) : Int :=
  (max (field bits) 1 : Nat) - 1075

theorem toNat_packComponents (s : Sign) (e : BitVec 11) (m : BitVec 52) :
    (packComponents Format.binary64 s e m).toNat =
      s.toBitVec.toNat * 2 ^ 63 + e.toNat * 2 ^ 52 + m.toNat := by
  have exponents := e.isLt
  have mantissas := m.isLt
  simp only [packComponents, BitVec.toNat_append]
  rw [← Nat.shiftLeft_add_eq_or_of_lt (by omega), ← Nat.shiftLeft_add_eq_or_of_lt (by omega)]
  simp only [Nat.shiftLeft_eq]
  ring

theorem toNat_unpackExponent (b : BitVec 64) :
    (@unpackExponent Format.binary64 b).toNat = field b.toNat := by
  rw [unpackExponent_def, BitVec.extractLsb'_toNat, Nat.shiftRight_eq_div_pow]
  rfl

theorem toNat_unpackMantissa (b : BitVec 64) :
    (@unpackMantissa Format.binary64 b).toNat = low b.toNat := by
  rw [unpackMantissa_def, BitVec.extractLsb'_toNat]
  simp [low]

/-- Packing puts the field of the exponent over the low bits of the mantissa. -/
theorem toNat_pack {bits : Nat} (s : Sign) (finite : field bits ≠ 2047)
    (some : 0 < mantissa bits) :
    (pack Format.binary64 (.finite s (mantissa bits) (exponent bits) some)).toNat =
      s.toBitVec.toNat * 2 ^ 63 + field bits * 2 ^ 52 + low bits := by
  have fields : field bits < 2 ^ 11 := Nat.mod_lt _ (by decide)
  have lows : low bits < 2 ^ 52 := Nat.mod_lt _ (by decide)
  have biased : (exponent bits + Format.binary64.exponentBias +
      Format.binary64.mantissaBitsWithoutImplicit).toNat = max (field bits) 1 := by
    simp [exponent, Format.exponentBias]
    omega
  simp only [pack, biased]
  rw [if_neg (by simp; omega)]
  by_cases subnormal : field bits = 0
  · have same : mantissa bits = low bits := if_pos subnormal
    rw [same] at some
    have short : (low bits).log2 < 52 := (Nat.log2_lt (Nat.ne_of_gt some)).mpr lows
    rw [if_neg (by simp [same, Format.mantissaBits]; omega), toNat_packComponents, subnormal, same,
      BitVec.toNat_ofNat, BitVec.toNat_ofNat, Nat.mod_eq_of_lt lows]
  · have same : mantissa bits = low bits + 2 ^ 52 := if_neg subnormal
    have full : (low bits + 2 ^ 52).log2 = 52 :=
      (Nat.log2_eq_iff (by omega)).mpr ⟨by omega, by omega⟩
    rw [if_pos (by rw [same, full]; rfl), toNat_packComponents, same,
      BitVec.toNat_ofNat, BitVec.toNat_ofNat, Nat.add_mod_right, Nat.mod_eq_of_lt lows,
      Nat.mod_eq_of_lt (by omega), Nat.max_eq_left (by omega)]

theorem finite_congr {s : Sign} {m n : Nat} {e f : Int} {some : 0 < m} {other : 0 < n}
    (mantissas : m = n) (exponents : e = f) :
    UnpackedFloat.finite s m e some = .finite s n f other := by
  subst mantissas exponents
  rfl

theorem unpackExponent_ne {b : BitVec 64} (finite : field b.toNat ≠ 2047) :
    @unpackExponent Format.binary64 b ≠ -1#_ := by
  intro same
  have fields := toNat_unpackExponent b
  rw [same] at fields
  exact finite fields.symm

/-- Unpacking gives the mantissa and the exponent. -/
theorem unpack_eq {b : BitVec 64} (finite : field b.toNat ≠ 2047) (some : 0 < mantissa b.toNat) :
    unpack Format.binary64 b = .finite (Sign.ofBitVec (@unpackSign Format.binary64 b))
      (mantissa b.toNat) (exponent b.toNat) some := by
  have fields := toNat_unpackExponent b
  have lows := toNat_unpackMantissa b
  simp only [unpack, if_neg (unpackExponent_ne finite)]
  by_cases subnormal : field b.toNat = 0
  · have same : mantissa b.toNat = low b.toNat := if_pos subnormal
    have zero : @unpackExponent Format.binary64 b = 0#_ :=
      BitVec.eq_of_toNat_eq (fields.trans subnormal)
    have filled : @unpackMantissa Format.binary64 b ≠ 0#_ := by
      intro none
      rw [none] at lows
      rw [same, ← lows] at some
      exact absurd some (by decide)
    rw [if_pos zero, dif_neg filled]
    refine finite_congr (lows.trans same.symm) ?_
    rw [fields, exponent, subnormal]
    rfl
  · have same : mantissa b.toNat = low b.toNat + 2 ^ 52 := if_neg subnormal
    have nonzero : @unpackExponent Format.binary64 b ≠ 0#_ := by
      intro zero
      rw [zero] at fields
      exact subnormal fields.symm
    rw [if_neg nonzero]
    refine finite_congr ?_ ?_
    · have lead := Nat.two_pow_add_eq_or_of_lt (@unpackMantissa Format.binary64 b).isLt 1
      rw [BitVec.toNat_append, same, ← lows, Nat.add_comm]
      simpa [Nat.shiftLeft_eq] using lead.symm
    · rw [fields, exponent, Nat.max_eq_left (by omega)]
      rfl

/-- A mantissa without its leading bit belongs to the smallest exponent. -/
theorem field_of_zero {bits : Nat} (none : mantissa bits = 0) : field bits = 0 ∧ low bits = 0 := by
  have subnormal : field bits = 0 := by
    by_contra normal
    rw [mantissa, if_neg normal] at none
    exact absurd none (by simp)
  rw [mantissa, if_pos subnormal] at none
  exact ⟨subnormal, none⟩

/-- Unpacking zero bits below the sign gives a zero. -/
theorem unpack_zero {b : BitVec 64} (none : mantissa b.toNat = 0) :
    unpack Format.binary64 b = .zero (Sign.ofBitVec (@unpackSign Format.binary64 b)) := by
  obtain ⟨subnormal, none⟩ := field_of_zero none
  have zero : @unpackExponent Format.binary64 b = 0#_ :=
    BitVec.eq_of_toNat_eq ((toNat_unpackExponent b).trans subnormal)
  have empty : @unpackMantissa Format.binary64 b = 0#_ :=
    BitVec.eq_of_toNat_eq ((toNat_unpackMantissa b).trans none)
  simp only [unpack, if_neg (unpackExponent_ne (by omega : field b.toNat ≠ 2047)), if_pos zero,
    dif_pos empty]

/-- The exponent field of a finite double is not full. -/
theorem field_of_finite {v : Float} (finite : v.isFinite = true) : field v.toBits.toNat ≠ 2047 := by
  intro full
  have all : @unpackExponent Format.binary64 v.toBits.toBitVec = -1#_ :=
    BitVec.eq_of_toNat_eq ((toNat_unpackExponent _).trans full)
  have unpacked : (unpack Format.binary64 v.toBits.toBitVec).isFinite = true := finite
  simp only [unpack, if_pos all] at unpacked
  split at unpacked <;> cases unpacked

theorem unsigned_split (bits : Nat) : bits % 2 ^ 63 = field bits * 2 ^ 52 + low bits := by
  simp only [field, low, Nat.pow_eq]
  omega

theorem toNat_pack_positive {bits : Nat} (finite : field bits ≠ 2047) (some : 0 < mantissa bits) :
    (pack Format.binary64 (.finite .positive (mantissa bits) (exponent bits) some)).toNat =
      bits % 2 ^ 63 := by
  have clear : Sign.positive.toBitVec.toNat = 0 := rfl
  rw [toNat_pack _ finite, clear, Nat.zero_mul, Nat.zero_add, unsigned_split]

/-- The sign of a double is its highest bit. -/
theorem toNat_unpackSign (b : BitVec 64) :
    (@unpackSign Format.binary64 b).toNat = b.toNat / 2 ^ 63 := by
  have bound := b.isLt
  rw [unpackSign_def, BitVec.extractLsb'_toNat, Nat.shiftRight_eq_div_pow]
  apply Nat.mod_eq_of_lt
  show b.toNat / 2 ^ 63 < 2 ^ 1
  omega

theorem unpackSign_of_lt {b : BitVec 64} (clear : b.toNat < 2 ^ 63) :
    Sign.ofBitVec (@unpackSign Format.binary64 b) = .positive := by
  have zero : @unpackSign Format.binary64 b = 0#1 :=
    BitVec.eq_of_toNat_eq ((toNat_unpackSign b).trans (Nat.div_eq_of_lt clear))
  rw [zero]
  rfl

theorem unsigned_of_zero {bits : Nat} (none : mantissa bits = 0) : bits % 2 ^ 63 = 0 := by
  obtain ⟨subnormal, empty⟩ := field_of_zero none
  rw [unsigned_split, subnormal, empty, Nat.zero_mul]

theorem toNat_neg (sign : BitVec 1) : (-Sign.ofBitVec sign).toBitVec.toNat = 1 - sign.toNat := by
  decide +revert

/-- Negation turns the sign of a finite double and leaves all else. -/
theorem toBits_neg {w : Float} (finite : field w.toBits.toNat ≠ 2047) :
    (-w).toBits.toNat = (1 - w.toBits.toNat / 2 ^ 63) * 2 ^ 63 + w.toBits.toNat % 2 ^ 63 := by
  show (pack Format.binary64 (unpack Format.binary64 w.toBits.toBitVec).neg).toNat =
    (1 - w.toBits.toBitVec.toNat / 2 ^ 63) * 2 ^ 63 + w.toBits.toBitVec.toNat % 2 ^ 63
  change field w.toBits.toBitVec.toNat ≠ 2047 at finite
  generalize w.toBits.toBitVec = b at finite
  have sign := toNat_neg (@unpackSign Format.binary64 b)
  rw [toNat_unpackSign] at sign
  by_cases some : 0 < mantissa b.toNat
  · rw [unpack_eq finite some, UnpackedFloat.neg, toNat_pack _ finite, sign, Nat.add_assoc,
      ← unsigned_split]
  · have none := Nat.eq_zero_of_not_pos some
    rw [unpack_zero none, UnpackedFloat.neg, unsigned_of_zero none, ← sign]
    show (packComponents Format.binary64 _ 0#11 0#52).toNat = _
    rw [toNat_packComponents, BitVec.toNat_ofNat, BitVec.toNat_ofNat, Nat.zero_mod, Nat.zero_mul]

theorem neg_neg {w : Float} (finite : field w.toBits.toNat ≠ 2047) : - -w = w := by
  have bound : w.toBits.toNat < 2 ^ 64 := w.toBits.toBitVec.isLt
  have once := toBits_neg finite
  have still : field (-w).toBits.toNat ≠ 2047 := by
    rw [once]
    simp only [field, Nat.pow_eq] at finite ⊢
    omega
  rw [← Float.toBits_inj, ← UInt64.toNat_inj, toBits_neg still, once]
  omega

end Lox.Double
