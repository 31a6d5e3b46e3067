import TableCleaner.Proofs.Cell.Integer
import TableCleaner.Proofs.Decimal.Rounding

/-!
# Packing

Arithmetic takes numbers apart into a sign, a mantissa and a scale, and packs its results into bits.
A finite number comes apart into the mantissa and the scale of its value, and a mantissa and a scale
that are such are packed into the number that they come from.
-/

namespace TableCleaner.Binary

open Float.Model Float.Model.UnpackedFloat

/-! ## Signs -/

def signum : Sign → ℚ
  | .negative => -1
  | .positive => 1

theorem abs_signum_mul (s : Sign) (r : ℚ) : |signum s * r| = |r| := by cases s <;> simp [signum]

theorem signum_mul (s s' : Sign) : signum (s * s') = signum s * signum s' := by
  cases s <;> cases s' <;> norm_num [signum, show ∀ s s' : Sign, s * s' = Sign.instMul.mul s s' from
    fun _ _ => rfl, Mul.mul]

theorem signum_div (s s' : Sign) : signum (s / s') = signum s / signum s' := by
  refine (signum_mul s s').trans ?_
  cases s' <;> simp [signum, div_neg]

theorem signum_neg (s : Sign) : signum (-s) = -signum s := by
  cases s
  · exact (neg_neg 1).symm
  · rfl

theorem apply_eq_signum_mul (s : Sign) (n : Int) : (s.apply n : ℚ) = signum s * n := by
  cases s <;> simp [signum, Sign.apply]

/-- The sign of a number. -/
def sign (x : Float) : Sign := if isNegative x then .negative else .positive

theorem signedValue_eq (x : Float) :
    signedValue x = signum (sign x) * (ofBits (magnitudeBits x)).value := by
  unfold signedValue sign
  split
  · rw [signum, neg_one_mul]
  · rw [signum, one_mul]

/-! ## Apart -/

/-- The number that an unpacked one is packed into. -/
def ofUnpacked (u : UnpackedFloat) : Float := .ofModel (.pack u)

def unpacked (x : Float) : UnpackedFloat := x.toModel.unpack

theorem ofUnpacked_unpacked (x : Float) : ofUnpacked (unpacked x) = x :=
  Float.toBits_inj.mp <| UInt64.toBitVec_inj.mp <| pack_unpack_of_valid x.toModel.valid

section Unpacked

variable (b : BitVec Format.binary64.numBits)

theorem toNat_unpackSign : (unpackSign b).toNat = b.toNat / 2 ^ 63 % 2 := by
  rw [unpackSign_def, BitVec.extractLsb'_toNat, Nat.shiftRight_eq_div_pow]
  rfl

theorem unpackExponent_eq_zero_iff :
    unpackExponent b = 0#_ ↔ b.toNat % signBit < leadingBit := by
  rw [← BitVec.toNat_inj, toNat_unpackExponent]
  change b.toNat / 2 ^ 52 % 2 ^ 11 = 0 ↔ _
  unfold leadingBit signBit
  omega

end Unpacked

variable {x : Float}

theorem ofBitVec_unpackSign (x : Float) :
    Sign.ofBitVec (@unpackSign Format.binary64 x.toBits.toBitVec) = sign x := by
  have hlt := toNat_toBits_lt x
  have hsign : @unpackSign Format.binary64 x.toBits.toBitVec = 0#1 ↔
      ¬ isNegative x = true := by
    rw [← BitVec.toNat_inj, toNat_unpackSign]
    change x.toBits.toNat / 2 ^ 63 % 2 = 0 ↔ _
    unfold isNegative signBit at *
    rw [decide_eq_true_iff]
    omega
  unfold Sign.ofBitVec sign
  by_cases h : isNegative x = true
  · rw [if_neg (mt hsign.mp (not_not_intro h)), if_pos h]
  · rw [if_pos (hsign.mpr h), if_neg h]

section Fields

variable (x)

theorem exponent_eq_neg_one_iff :
    @unpackExponent Format.binary64 x.toBits.toBitVec = -1#_ ↔
      infinityBits ≤ magnitudeBits x :=
  unpackExponent_eq_neg_one_iff x.toBits.toBitVec

theorem exponent_eq_zero_iff :
    @unpackExponent Format.binary64 x.toBits.toBitVec = 0#_ ↔
      magnitudeBits x < leadingBit :=
  unpackExponent_eq_zero_iff x.toBits.toBitVec

theorem mantissa_eq_zero_iff :
    @unpackMantissa Format.binary64 x.toBits.toBitVec = 0#_ ↔
      magnitudeBits x % leadingBit = 0 := by
  rw [unpackMantissa_eq_zero_iff]
  change x.toBits.toNat % leadingBit = 0 ↔ _
  unfold magnitudeBits signBit leadingBit
  omega

theorem toNat_exponent :
    (@unpackExponent Format.binary64 x.toBits.toBitVec).toNat =
      magnitudeBits x / leadingBit := by
  rw [toNat_unpackExponent]
  change x.toBits.toNat / 2 ^ 52 % 2 ^ 11 = _
  unfold magnitudeBits signBit leadingBit
  omega

theorem toNat_mantissa :
    (@unpackMantissa Format.binary64 x.toBits.toBitVec).toNat =
      magnitudeBits x % leadingBit := by
  rw [toNat_unpackMantissa]
  change x.toBits.toNat % 2 ^ 52 = _
  unfold magnitudeBits signBit leadingBit
  omega

end Fields

theorem unpacked_eq (x : Float) :
    unpacked x = UnpackedFloat.unpack Format.binary64 x.toBits.toBitVec := rfl

theorem unpacked_of_zero (h : magnitudeBits x = 0) : unpacked x = .zero (sign x) := by
  rw [unpacked_eq, UnpackedFloat.unpack]
  simp only [ofBitVec_unpackSign]
  rw [if_neg (mt (exponent_eq_neg_one_iff x).mp (by rw [h]; decide)),
    if_pos ((exponent_eq_zero_iff x).mpr (by rw [h]; decide)),
    dif_pos ((mantissa_eq_zero_iff x).mpr (by rw [h]; decide))]

theorem unpacked_of_infinity (h : magnitudeBits x = infinityBits) :
    unpacked x = .infinity (sign x) := by
  rw [unpacked_eq, UnpackedFloat.unpack]
  simp only [ofBitVec_unpackSign]
  rw [if_pos ((exponent_eq_neg_one_iff x).mpr h.ge),
    if_pos ((mantissa_eq_zero_iff x).mpr (by rw [h]; decide))]

theorem unpacked_of_pos (hpos : 0 < magnitudeBits x) (hfinite : magnitudeBits x < infinityBits) :
    unpacked x = .finite (sign x) (ofBits (magnitudeBits x)).mantissa
      (ofBits (magnitudeBits x)).scale ((ofBits_ofBits _).mantissa_pos hpos) := by
  rw [unpacked_eq, UnpackedFloat.unpack]
  simp only [ofBitVec_unpackSign]
  rw [if_neg (mt (exponent_eq_neg_one_iff x).mp (by omega))]
  have hexponent := toNat_exponent x
  have hmantissa := toNat_mantissa x
  by_cases hsub : magnitudeBits x < leadingBit
  · have hzero : magnitudeBits x / leadingBit = 0 := Nat.div_eq_of_lt hsub
    rw [if_pos ((exponent_eq_zero_iff x).mpr hsub),
      dif_neg (mt (mantissa_eq_zero_iff x).mp (by rw [Nat.mod_eq_of_lt hsub]; omega))]
    simp only [ofBits, hzero, if_true, hexponent, hmantissa]
    rfl
  · have hne : magnitudeBits x / leadingBit ≠ 0 := by
      unfold leadingBit at *
      omega
    rw [if_neg (mt (exponent_eq_zero_iff x).mp hsub)]
    simp only [ofBits, hne, if_false, hexponent, BitVec.toNat_append, hmantissa]
    congr 1
    exact (Nat.shiftLeft_add_eq_or_of_lt (Nat.mod_lt _ (by decide)) 1).symm

/-! ## Together -/

theorem sign_ofMagnitude (s : Sign) {bits : Nat} (h : bits ≤ infinityBits) :
    sign (ofMagnitude (s == .negative) bits) = s := by
  rw [sign, isNegative_ofMagnitude _ h]
  cases s <;> rfl

def zero (s : Sign) : Float := ofMagnitude (s == .negative) 0

def infinity (s : Sign) : Float := ofMagnitude (s == .negative) infinityBits

theorem ofUnpacked_zero (s : Sign) : ofUnpacked (.zero s) = zero s := by
  have hbits : magnitudeBits (zero s) = 0 := magnitudeBits_ofMagnitude _ (Nat.zero_le _)
  have h := unpacked_of_zero hbits
  rw [zero, sign_ofMagnitude s (Nat.zero_le _)] at h
  rw [← h, ofUnpacked_unpacked, zero]

theorem ofUnpacked_infinity (s : Sign) : ofUnpacked (.infinity s) = infinity s := by
  have hbits : magnitudeBits (infinity s) = infinityBits := magnitudeBits_ofMagnitude _ le_rfl
  have h := unpacked_of_infinity hbits
  rw [infinity, sign_ofMagnitude s le_rfl] at h
  rw [← h, ofUnpacked_unpacked, infinity]

/-- A mantissa with its leading bit, or at the least scale. -/
structure Canonical (m : Nat) (e : Int) : Prop where
  mantissa : m < 2 * leadingBit
  scale : -1074 ≤ e
  leading : e = -1074 ∨ leadingBit ≤ m

theorem canonical_ofBits (bits : Nat) : Canonical (ofBits bits).mantissa (ofBits bits).scale :=
  have h := ofBits_ofBits bits
  ⟨h.mantissa, h.scale, h.leading⟩

/-- The number with a sign, a mantissa and a scale. -/
def pack (s : Sign) (m : Nat) (e : Int) : Float :=
  ofMagnitude (s == .negative) ((e + 1074).toNat * leadingBit + m)

namespace Canonical

variable {m : Nat} {e : Int} (h : Canonical m e)

include h

theorem bits_lt_iff : (e + 1074).toNat * leadingBit + m < infinityBits ↔ e ≤ 971 := by
  obtain ⟨hm, he, hlead⟩ := h
  unfold infinityBits leadingBit at *
  omega

theorem ofBits_eq :
    (ofBits ((e + 1074).toNat * leadingBit + m)).mantissa = m ∧
      (ofBits ((e + 1074).toNat * leadingBit + m)).scale = e := by
  obtain ⟨hm, he, hlead⟩ := h
  have hbits := (ofBits_ofBits ((e + 1074).toNat * leadingBit + m)).bits
  obtain ⟨hm', he', hlead'⟩ := canonical_ofBits ((e + 1074).toNat * leadingBit + m)
  generalize (ofBits ((e + 1074).toNat * leadingBit + m)).mantissa = m' at *
  generalize (ofBits ((e + 1074).toNat * leadingBit + m)).scale = e' at *
  unfold leadingBit at *
  omega

theorem magnitudeBits_pack (s : Sign) (he : e ≤ 971) :
    magnitudeBits (pack s m e) = (e + 1074).toNat * leadingBit + m :=
  magnitudeBits_ofMagnitude _ (h.bits_lt_iff.mpr he).le

theorem sign_pack (s : Sign) (he : e ≤ 971) : sign (pack s m e) = s :=
  sign_ofMagnitude s (h.bits_lt_iff.mpr he).le

theorem isFinite_pack (s : Sign) (he : e ≤ 971) : (pack s m e).isFinite = true := by
  rw [isFinite_iff, h.magnitudeBits_pack s he]
  exact h.bits_lt_iff.mpr he

theorem signedValue_pack (s : Sign) (he : e ≤ 971) :
    signedValue (pack s m e) = signum s * (m * 2 ^ e) := by
  rw [signedValue_eq, h.sign_pack s he, h.magnitudeBits_pack s he, value, h.ofBits_eq.1,
    h.ofBits_eq.2]

theorem ofUnpacked_finite (s : Sign) (hm : 0 < m) (he : e ≤ 971) :
    ofUnpacked (.finite s m e hm) = pack s m e := by
  have hbits := h.magnitudeBits_pack s he
  have hunpacked := unpacked_of_pos (x := pack s m e) (by omega)
    (by rw [hbits]; exact h.bits_lt_iff.mpr he)
  simp only [hbits, h.ofBits_eq.1, h.ofBits_eq.2, h.sign_pack s he] at hunpacked
  rw [← hunpacked, ofUnpacked_unpacked]

omit h in
theorem ofUnpacked_beyond (s : Sign) (hm : 0 < m) (he : 971 < e) :
    ofUnpacked (.finite s m e hm) = infinity s := by
  have hpack : UnpackedFloat.pack Format.binary64 (.finite s m e hm) =
      UnpackedFloat.pack Format.binary64 (.infinity s) := by
    have hbias : Format.binary64.exponentBias = 1023 := rfl
    unfold UnpackedFloat.pack
    rw [if_pos]
    rw [hbias]
    change 2048 ≤ (e + (1023 : Nat) + (52 : Nat)).toNat + 1
    omega
  rw [← ofUnpacked_infinity]
  unfold ofUnpacked Float.Model.pack
  simp only [hpack]

end Canonical

end TableCleaner.Binary
