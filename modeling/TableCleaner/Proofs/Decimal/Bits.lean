import Mathlib
import TableCleaner.Decimal.Nearest

/-!
# The bits of a number

What kind of number some bits stand for can be told from the magnitude bits alone: below those of
infinity the number is finite, above them it is undefined, and only zero has none. Numbers that are
not undefined are written to bits and read back without a loss.
-/

namespace TableCleaner.Binary

open Float.Model Float.Model.UnpackedFloat

/-! ## Fields of bits -/

section Fields

variable (b : BitVec Format.binary64.numBits)

theorem toNat_unpackExponent : (unpackExponent b).toNat = b.toNat / 2 ^ 52 % 2 ^ 11 := by
  rw [unpackExponent_def, BitVec.extractLsb'_toNat, Nat.shiftRight_eq_div_pow]

theorem toNat_unpackMantissa : (unpackMantissa b).toNat = b.toNat % 2 ^ 52 := by
  rw [unpackMantissa_def, BitVec.extractLsb'_toNat, Nat.shiftRight_zero]

theorem unpackExponent_eq_neg_one_iff :
    unpackExponent b = -1#_ ↔ infinityBits ≤ b.toNat % signBit := by
  have hb : b.toNat < 2 ^ 64 := b.isLt
  rw [← BitVec.toNat_inj, toNat_unpackExponent]
  change b.toNat / 2 ^ 52 % 2 ^ 11 = 2047 ↔ _
  unfold infinityBits leadingBit signBit
  omega

theorem unpackMantissa_eq_zero_iff : unpackMantissa b = 0#_ ↔ b.toNat % leadingBit = 0 := by
  rw [← BitVec.toNat_inj, toNat_unpackMantissa]
  rfl

theorem isFinite_unpack :
    (UnpackedFloat.unpack Format.binary64 b).isFinite = true ↔
      b.toNat % signBit < infinityBits := by
  rw [← Nat.not_le, ← unpackExponent_eq_neg_one_iff]
  fun_cases UnpackedFloat.unpack with
  | case1 _ _ _ _ he _ => exact iff_of_false Bool.false_ne_true (not_not_intro he)
  | case2 _ _ he _ => exact iff_of_false Bool.false_ne_true (not_not_intro he)
  | case3 _ _ _ _ he _ _ => exact iff_of_true rfl he
  | case4 _ _ _ _ _ he _ _ => exact iff_of_true rfl he
  | case5 _ _ _ _ _ he _ => exact iff_of_true rfl he

theorem isNaN_unpack :
    (UnpackedFloat.unpack Format.binary64 b).isNaN = true ↔ infinityBits < b.toNat % signBit := by
  have hparts : infinityBits < b.toNat % signBit ↔
      unpackExponent b = -1#_ ∧ ¬ unpackMantissa b = 0#_ := by
    rw [unpackExponent_eq_neg_one_iff, unpackMantissa_eq_zero_iff]
    unfold infinityBits leadingBit signBit
    omega
  rw [hparts]
  fun_cases UnpackedFloat.unpack with
  | case1 _ _ _ _ _ hm => exact iff_of_false Bool.false_ne_true fun h => h.2 hm
  | case2 _ _ he hm => exact iff_of_true rfl ⟨he, hm⟩
  | case3 _ _ _ _ he _ _ => exact iff_of_false Bool.false_ne_true fun h => he h.1
  | case4 _ _ _ _ _ he _ _ => exact iff_of_false Bool.false_ne_true fun h => he h.1
  | case5 _ _ _ _ _ he _ => exact iff_of_false Bool.false_ne_true fun h => he h.1

end Fields

/-! ## Kinds of numbers -/

variable {x : Float}

theorem toNat_toBits_lt (x : Float) : x.toBits.toNat < 2 * signBit := x.toBits.toNat_lt

theorem isFinite_iff : x.isFinite = true ↔ magnitudeBits x < infinityBits :=
  isFinite_unpack x.toBits.toBitVec

theorem isNaN_iff : x.isNaN = true ↔ infinityBits < magnitudeBits x :=
  isNaN_unpack x.toBits.toBitVec

theorem beq_zero_iff : (x == 0.0) = true ↔ magnitudeBits x = 0 := by
  have hlt := toNat_toBits_lt x
  have hzero : (0.0 : Float) = 0 := Float.toBits_inj.mp (by decide +kernel)
  have hpos : x = 0 ↔ x.toBits.toNat = 0 := by
    rw [← Float.toBits_inj, ← UInt64.toNat_inj]
    exact Iff.rfl
  have hneg : x = -0 ↔ x.toBits.toNat = signBit := by
    rw [← Float.toBits_inj, ← UInt64.toNat_inj]
    exact Iff.rfl
  have hzeros : magnitudeBits x = 0 ↔ x = 0 ∨ x = -0 := by
    rw [hpos, hneg]
    unfold magnitudeBits signBit
    unfold signBit at hlt
    omega
  rw [hzero, hzeros]
  constructor
  · intro h
    obtain ⟨-, -, h | h | h⟩ := Float.beq_iff_ne_nan_and_eq.mp h
    · exact .inl h
    · exact .inl h.1
    · exact .inr h.1
  · rintro (rfl | rfl) <;> decide +kernel

/-! ## Numbers of bits -/

theorem toBits_ofBits {u : UInt64} (h : u.toNat % signBit ≤ infinityBits) :
    (Float.ofBits u).toBits = u := by
  have hvalid : Format.binary64.Valid u.toBitVec := by
    constructor
    intro he hm
    rw [unpackExponent_eq_neg_one_iff] at he
    rw [ne_eq, unpackMantissa_eq_zero_iff] at hm
    -- The magnitude bits are those of infinity, which has no mantissa.
    change infinityBits ≤ u.toNat % signBit at he
    change ¬ u.toNat % leadingBit = 0 at hm
    unfold infinityBits leadingBit signBit at *
    omega
  exact UInt64.toBitVec_inj.mp (pack_unpack_of_valid hvalid)

section Magnitude

variable {bits : Nat} (negative : Bool) (h : bits ≤ infinityBits)

include h

theorem toBits_ofMagnitude :
    (ofMagnitude negative bits).toBits.toNat = if negative then signBit + bits else bits := by
  unfold infinityBits leadingBit at h
  have hlt : (if negative then signBit + bits else bits) < 2 ^ 64 := by
    unfold signBit
    split <;> omega
  unfold ofMagnitude
  rw [toBits_ofBits, UInt64.toNat_ofNat_of_lt' hlt]
  rw [UInt64.toNat_ofNat_of_lt' hlt]
  unfold signBit infinityBits leadingBit
  split <;> omega

theorem magnitudeBits_ofMagnitude : magnitudeBits (ofMagnitude negative bits) = bits := by
  unfold magnitudeBits
  rw [toBits_ofMagnitude negative h]
  unfold infinityBits leadingBit at h
  unfold signBit
  split <;> omega

theorem isNegative_ofMagnitude : isNegative (ofMagnitude negative bits) = negative := by
  unfold isNegative
  rw [toBits_ofMagnitude negative h]
  unfold infinityBits leadingBit at h
  unfold signBit
  cases negative
  · simp; omega
  · simp

end Magnitude

theorem ofMagnitude_self (x : Float) : ofMagnitude (isNegative x) (magnitudeBits x) = x := by
  have hlt := toNat_toBits_lt x
  have hbits : (if isNegative x then signBit + magnitudeBits x else magnitudeBits x) =
      x.toBits.toNat := by
    unfold isNegative magnitudeBits signBit at *
    simp only [decide_eq_true_eq]
    split <;> omega
  rw [ofMagnitude, hbits, UInt64.ofNat_toNat, Float.ofBits_toBits]

theorem eq_of_beq_zero (h : (x == 0.0) = true) : x = 0.0 ∨ x = -0.0 := by
  have hself := ofMagnitude_self x
  rw [beq_zero_iff.mp h] at hself
  rw [← hself]
  cases isNegative x with
  | false => exact .inl (by decide +kernel)
  | true => exact .inr (by decide +kernel)

theorem beq_self_of_isFinite (h : x.isFinite = true) : (x == x) = true := by
  rw [Float.beq_self_iff]
  rintro rfl
  exact absurd h (by decide +kernel)

end TableCleaner.Binary
