import TableCleaner.Proofs.Cell.Key
import TableCleaner.Proofs.Decimal.Whole

/-!
# Integers and numbers

When an integer and a floating-point number have one key. The key is the text, so the integer has to
be the decimal that is written for the number: the shortest one that reads back. Below `2 ^ 54` that
is the number itself. Beyond, numbers lie so far apart that zeros often stand for their last digits.
-/

namespace TableCleaner

/-! ## Signs -/

theorem signed_eq_iff {s t : List Char} (hs : '-' ∉ s) (ht : '-' ∉ t) (a b : Prop) [Decidable a]
    [Decidable b] :
    (if a then '-' :: s else s) = (if b then '-' :: t else t) ↔ (a ↔ b) ∧ s = t := by
  by_cases ha : a <;> by_cases hb : b
  · simp [ha, hb]
  · simp only [ha, hb, if_true, if_false, iff_false, not_true_eq_false, false_and]
    rintro rfl
    exact ht List.mem_cons_self
  · simp only [ha, hb, if_true, if_false, iff_true, false_and, iff_false]
    rintro rfl
    exact hs List.mem_cons_self
  · simp [ha, hb]

theorem eq_signed_iff {v : ℚ} (hv : 0 < v) (negative : Bool) (i : Int) :
    (i : ℚ) = (if negative then -v else v) ↔ (negative = true ↔ i < 0) ∧ v = i.natAbs := by
  have habs : ((i.natAbs : Nat) : ℚ) = |(i : ℚ)| := by rw [Nat.cast_natAbs, Int.cast_abs]
  rw [habs, ← Int.cast_lt_zero (R := ℚ)]
  cases negative with
  | false =>
    simp only [Bool.false_eq_true, if_false, false_iff, not_lt]
    constructor
    · intro h
      rw [h, abs_of_pos hv]
      exact ⟨hv.le, rfl⟩
    · rintro ⟨hi, h⟩
      rw [h, abs_of_nonneg hi]
  | true =>
    simp only [if_true, true_iff]
    constructor
    · intro h
      rw [h, abs_neg, abs_of_pos hv]
      exact ⟨by linarith, rfl⟩
    · rintro ⟨hi, h⟩
      rw [h, abs_of_neg hi, neg_neg]

namespace Binary

variable {x : Float}

/-- The value of a finite number. -/
def signedValue (x : Float) : ℚ :=
  if isNegative x then -(ofBits (magnitudeBits x)).value else (ofBits (magnitudeBits x)).value

theorem signedValue_of_zero (h : (x == 0.0) = true) : signedValue x = 0 := by
  have hzero : (ofBits 0).value = 0 := by simp [ofBits, value]
  rw [signedValue, beq_zero_iff.mp h, hzero]
  simp

theorem abs_signedValue (x : Float) : |signedValue x| = (ofBits (magnitudeBits x)).value := by
  have hnonneg : 0 ≤ (ofBits (magnitudeBits x)).value := by
    unfold value
    positivity
  unfold signedValue
  split
  · rw [abs_neg, abs_of_nonneg hnonneg]
  · exact abs_of_nonneg hnonneg

theorem OfBits.scale_le_one {x : Binary} {bits : Nat} (hx : x.OfBits bits) (h : x.value < 2 ^ 54) :
    x.scale ≤ 1 := by
  rcases hx.leading with hleast | hleading
  · omega
  · have hfirst : (2 : ℚ) ^ (52 : Int) ≤ x.mantissa := by exact_mod_cast hleading
    have hpow : (2 : ℚ) ^ (52 + x.scale) < 2 ^ (54 : Int) := by
      calc (2 : ℚ) ^ (52 + x.scale)
        _ = 2 ^ (52 : Int) * 2 ^ x.scale := zpow_add₀ (by norm_num) _ _
        _ ≤ x.value := by
          unfold value
          gcongr
        _ < 2 ^ (54 : Int) := by exact_mod_cast h
    have := (zpow_lt_zpow_iff_right₀ (by norm_num)).mp hpow
    omega

end Binary

/-! ## Keys -/

/-- The value that is written for a finite number: zero for both zeros, and else the shortest
decimal with the sign. -/
def Decimal.IsWritten (x : Float) (v : ℚ) : Prop :=
  if x == 0.0 then v = 0
  else ∃ d, IsShortest (Binary.ofBits (Binary.magnitudeBits x)) d ∧
    v = if Binary.isNegative x then -d.value else d.value

namespace Cell

variable {x : Float}

theorem natAbs_lt (i : Int64) : i.toInt.natAbs < 2 ^ 64 := by
  have hlow := i.le_toInt
  have hhigh := i.toInt_lt
  omega

theorem isWritten_int_iff (hzero : ¬ (x == 0.0) = true) (i : Int) :
    Decimal.IsWritten x i ↔ (Binary.isNegative x = true ↔ i < 0) ∧
      ∃ d, Decimal.IsShortest (Binary.ofBits (Binary.magnitudeBits x)) d ∧ d.value = i.natAbs := by
  have hm := Binary.mantissa_pos_of_ne_zero hzero
  rw [Decimal.IsWritten, if_neg hzero]
  constructor
  · rintro ⟨d, hd, hvalue⟩
    have hpos := Binary.value_pos_of_readsBack hm hd.readsBack
    obtain ⟨hsign, habs⟩ := (eq_signed_iff hpos _ i).mp hvalue
    exact ⟨hsign, d, hd, habs⟩
  · rintro ⟨hsign, d, hd, habs⟩
    have hpos := Binary.value_pos_of_readsBack hm hd.readsBack
    exact ⟨d, hd, (eq_signed_iff hpos _ i).mpr ⟨hsign, habs⟩⟩

theorem key_int_eq_iff_isWritten (i : Int64) (hx : x.isFinite = true) :
    (int i).key = (number x).key ↔ Decimal.IsWritten x i.toInt := by
  rw [key_eq_iff_shownChars_eq (by simp) (by simp)]
  change Json.intChars i.toInt = Decimal.plainStyle.chars (if x == 0.0 then 0.0 else x) ↔ _
  by_cases hzero : (x == 0.0) = true
  · have hchars : Decimal.plainStyle.chars 0.0 = Json.intChars 0 := by decide +kernel
    rw [if_pos hzero, Decimal.IsWritten, if_pos hzero, hchars, Int.cast_eq_zero]
    exact ⟨Json.intChars_inj, fun h => h ▸ rfl⟩
  · have hm := Binary.mantissa_pos_of_ne_zero hzero
    rw [if_neg hzero, Decimal.plainStyle.chars_of_isFinite hx hzero, Json.intChars,
      signed_eq_iff (Decimal.minus_not_mem_toDigits _) (Decimal.minus_not_mem_layout _),
      isWritten_int_iff hzero, eq_comm (a := Nat.toDigits 10 _), Iff.comm (a := i.toInt < 0)]
    exact and_congr_right fun _ => Decimal.layout_eq_toDigits_iff hm (natAbs_lt i)

theorem isWritten_iff_signedValue_eq (i : Int64) (hsmall : |Binary.signedValue x| < 2 ^ 54) :
    Decimal.IsWritten x i.toInt ↔ Binary.signedValue x = i.toInt := by
  by_cases hzero : (x == 0.0) = true
  · rw [Decimal.IsWritten, if_pos hzero, Binary.signedValue_of_zero hzero, eq_comm]
  · have hm := Binary.mantissa_pos_of_ne_zero hzero
    have hpos : 0 < (Binary.ofBits (Binary.magnitudeBits x)).value := by
      unfold Binary.value
      positivity
    rw [Binary.abs_signedValue] at hsmall
    have hscale := (Binary.ofBits_ofBits (Binary.magnitudeBits x)).scale_le_one hsmall
    rw [isWritten_int_iff hzero, eq_comm (a := Binary.signedValue x), Binary.signedValue,
      eq_signed_iff hpos, Decimal.exists_isShortest_iff hm (natAbs_lt i) hscale]

theorem ofInt_beq_of_key_eq (i : Int64) (hx : x.isFinite = true)
    (h : (int i).key = (number x).key) : (Decimal.ofInt i.toInt == x) = true := by
  rw [key_eq_iff_shownChars_eq (by simp) (by simp)] at h
  have hread := congrArg numberOfChars? h
  rw [numberOfChars?_shownChars, shownChars, numberOfChars?_intChars, number?, if_pos hx] at hread
  by_cases hzero : (x == 0.0) = true
  · rw [if_pos hzero, Option.some.injEq] at hread
    rw [hread]
    rcases Binary.eq_of_beq_zero hzero with rfl | rfl <;> decide +kernel
  · rw [if_neg hzero, Option.some.injEq] at hread
    rw [hread]
    exact Binary.beq_self_of_isFinite hx

/-- **Integers and numbers.** An integer has the key of a finite number exactly when it is the decimal
that is written for the number, and then it is read as this number. Below `2 ^ 54` it has the key
exactly when it is the number. -/
theorem key_int_eq_key_number_iff (i : Int64) {x : Float} (hx : x.isFinite = true) :
    ((int i).key = (number x).key ↔ Decimal.IsWritten x i.toInt) ∧
      ((int i).key = (number x).key → (Decimal.ofInt i.toInt == x) = true) ∧
      (|Binary.signedValue x| < 2 ^ 54 →
        ((int i).key = (number x).key ↔ Binary.signedValue x = i.toInt)) := by
  have hwritten := key_int_eq_iff_isWritten i hx
  refine ⟨hwritten, ofInt_beq_of_key_eq i hx, fun hsmall => ?_⟩
  rw [hwritten, isWritten_iff_signedValue_eq i hsmall]

theorem key_int_eq_key_number_iff_large :
    Decimal.IsWritten (Float.ofBits 0x43B0000000000000) (1152921504606847000 : Int64).toInt ∧
      (Decimal.ofInt (1152921504606847000 : Int64).toInt ==
        Float.ofBits 0x43B0000000000000) = true ∧
      Binary.signedValue (Float.ofBits 0x4038000000000000) = (24 : Int64).toInt := by
  have hkey : (int 1152921504606847000).key = (number (Float.ofBits 0x43B0000000000000)).key := by
    decide +kernel
  obtain ⟨hwritten, hread, -⟩ := key_int_eq_key_number_iff 1152921504606847000
    (x := Float.ofBits 0x43B0000000000000) (by decide +kernel)
  obtain ⟨-, -, hsmall⟩ := key_int_eq_key_number_iff 24
    (x := Float.ofBits 0x4038000000000000) (by decide +kernel)
  have hsign : Binary.isNegative (Float.ofBits 0x4038000000000000) = false := by decide +kernel
  have hbits : Binary.ofBits (Binary.magnitudeBits (Float.ofBits 0x4038000000000000)) =
      ⟨0x18000000000000, -48, false⟩ := by decide +kernel
  have hbound : |Binary.signedValue (Float.ofBits 0x4038000000000000)| < 2 ^ 54 := by
    rw [Binary.signedValue, hsign, hbits, Binary.value]
    norm_num
  exact ⟨hwritten.mp hkey, hread hkey, (hsmall hbound).mp (by decide +kernel)⟩

/-- The number `2 ^ 60` has the key of an integer that is 24 greater, and not the key of the integer
that it is. -/
theorem key_number_two_pow_sixty :
    let x := Float.ofBits 0x43B0000000000000
    x.isFinite = true ∧ Binary.signedValue x = (1152921504606846976 : Int64).toInt ∧
      (int 1152921504606846976).key ≠ (number x).key ∧
      (int 1152921504606847000).key = (number x).key := by
  refine ⟨by decide +kernel, ?_, by decide +kernel, by decide +kernel⟩
  have hsign : Binary.isNegative (Float.ofBits 0x43B0000000000000) = false := by decide +kernel
  have hbits : Binary.ofBits (Binary.magnitudeBits (Float.ofBits 0x43B0000000000000)) =
      ⟨0x10000000000000, 8, true⟩ := by decide +kernel
  have hint : (1152921504606846976 : Int64).toInt = 1152921504606846976 := by decide +kernel
  rw [Binary.signedValue, hsign, hbits, Binary.value, hint]
  norm_num

end Cell

end TableCleaner
