import TableCleaner.Json.Printer
import TableCleaner.Proofs.Decimal.Grid
import TableCleaner.Proofs.Decimal.Written

/-!
# Whole numbers

An integer of at most 53 bits is a floating-point number without rounding, and its shortest decimal
is the integer itself, with its zeros at the end taken off. So it is written as the integer is
written.
-/

namespace TableCleaner

/-! ## Digits -/

namespace Decimal

theorem toDigits_append_zeros {n : Nat} (h : 0 < n) (e : Nat) :
    Nat.toDigits 10 n ++ List.replicate e '0' = Nat.toDigits 10 (n * 10 ^ e) := by
  induction e with
  | zero => simp
  | succ e ih =>
    have hpos : 0 < n * 10 ^ e := Nat.mul_pos h (Nat.pow_pos (by decide))
    calc Nat.toDigits 10 n ++ List.replicate (e + 1) '0'
      _ = (Nat.toDigits 10 n ++ List.replicate e '0') ++ ['0'] := by
        rw [List.replicate_succ', List.append_assoc]
      _ = Nat.toDigits 10 (n * 10 ^ e) ++ Nat.toDigits 10 0 := by
        rw [ih]
        rfl
      _ = Nat.toDigits 10 (10 * (n * 10 ^ e) + 0) :=
        Nat.toDigits_append_toDigits (by decide) hpos (by decide)
      _ = Nat.toDigits 10 (n * 10 ^ (e + 1)) := by rw [Nat.add_zero, Nat.pow_succ]; ac_rfl

theorem plainStyle_layout {d : Nat} (h : 0 < d) (e : Nat) :
    plainStyle.layout ⟨d, e⟩ = Nat.toDigits 10 (d * 10 ^ e) := by
  simp [Style.layout, plainStyle, positional, toDigits_append_zeros h]

end Decimal

/-! ## Whole texts -/

namespace Decimal

variable {x : Binary} {d : Decimal} {n : Nat}

theorem isPlain_toDigits (n : Nat) : IsPlain (Nat.toDigits 10 n) ⟨n, 0⟩ := by
  have hwhole := IsPlain.whole (isRun_toDigits n)
  rwa [digitsValue_toDigits] at hwhole

theorem exists_isPlain_layout (d : Decimal) :
    ∃ u, IsPlain (plainStyle.layout d) u ∧ u.value = d.value :=
  exists_isPlain_positional d.digits d.exponent

theorem minus_not_mem_layout (d : Decimal) : '-' ∉ plainStyle.layout d := by
  intro h
  obtain ⟨u, hplain, -⟩ := exists_isPlain_layout d
  exact absurd (hplain.mem h) (by decide)

theorem minus_not_mem_toDigits (n : Nat) : '-' ∉ Nat.toDigits 10 n := by
  intro h
  exact absurd ((isRun_toDigits n).digits '-' h) (by decide)

theorem layout_eq_toDigits_iff (hm : 0 < x.mantissa) (hn : n < 2 ^ 64) :
    plainStyle.layout (shortest .up x) = Nat.toDigits 10 n ↔ ∃ d, IsShortest x d ∧ d.value = n := by
  constructor
  · intro htext
    obtain ⟨u, hplain, hvalue⟩ := exists_isPlain_layout (shortest .up x)
    have hwhole := (isPlain_toDigits n).readUnsigned?
    rw [← htext, hplain.readUnsigned?, Option.some.injEq] at hwhole
    rw [hwhole, value_whole] at hvalue
    have hread : x.readsBack ⟨n, 0⟩ = true := by
      rw [Binary.readsBack_congr ((value_whole n).trans hvalue)]
      exact readsBack_shortest .up hm
    exact ⟨_, isShortest_shortest hm hn hread, hvalue.symm⟩
  · rintro ⟨d, hd, hvalue⟩
    obtain ⟨e, he, hdigits⟩ := hd.exists_exponent hvalue
    have hpos : 0 < d.digits := value_pos_iff.mp (Binary.value_pos_of_readsBack hm hd.readsBack)
    obtain rfl := hd.eq (isShortest_shortest hm hn (hd.readsBack_whole hvalue))
    rw [← hdigits, ← plainStyle_layout hpos, ← he]

theorem exists_isShortest_iff (hm : 0 < x.mantissa) (hn : n < 2 ^ 64) (hscale : x.scale ≤ 1) :
    (∃ d, IsShortest x d ∧ d.value = n) ↔ x.value = n := by
  constructor
  · rintro ⟨d, hd, hvalue⟩
    exact hd.value_eq hm hscale hvalue
  · intro hvalue
    have hread := readsBack_of_value_eq hm ((value_whole n).trans hvalue.symm)
    have hd := isShortest_shortest hm hn hread
    obtain ⟨e, he⟩ := Int.eq_ofNat_of_zero_le (hd.exponent_nonneg hread)
    have hwhole : (shortest .up x).value = ((shortest .up x).digits * 10 ^ e : Nat) := by
      rw [value, he, zpow_natCast]
      push_cast
      rfl
    exact ⟨_, hd, hwhole.trans ((hd.value_eq hm hscale hwhole).symm.trans hvalue)⟩

end Decimal

/-! ## Whole numbers -/

namespace Binary

/-- The magnitude is the positive integer `n`, and its last bit counts at most one. -/
structure IsWhole (x : Binary) (n s : Nat) : Prop where
  pos : 0 < n
  scale : x.scale = -s
  mantissa : x.mantissa = n * 2 ^ s

variable {x : Binary} {n s : Nat}

theorem IsWhole.value_eq (h : x.IsWhole n s) : x.value = n := by
  rw [value, h.scale, h.mantissa, zpow_neg, zpow_natCast]
  push_cast
  rw [mul_inv_cancel_right₀ (by positivity)]

theorem IsWhole.mantissa_pos (h : x.IsWhole n s) : 0 < x.mantissa := by
  rw [h.mantissa]
  exact Nat.mul_pos h.pos (Nat.two_pow_pos s)

end Binary

/-! ## Nearest numbers -/

namespace Decimal

theorem mantissa_bounds {n : Nat} (h : 0 < n) (hn : n < 2 ^ 53) :
    Binary.leadingBit ≤ n * 2 ^ (52 - n.log2) ∧ n * 2 ^ (52 - n.log2) < 2 * Binary.leadingBit := by
  have hlog : n.log2 < 53 := (Nat.log2_lt h.ne').mpr hn
  have hlow : 2 ^ n.log2 * 2 ^ (52 - n.log2) = Binary.leadingBit := by
    rw [← Nat.pow_add, Nat.add_sub_cancel' (by omega)]
    rfl
  rw [← hlow, ← Nat.mul_assoc, ← Nat.pow_succ']
  exact ⟨Nat.mul_le_mul_right _ (Nat.log2_self_le h.ne'),
    (Nat.mul_lt_mul_right (Nat.two_pow_pos _)).mpr Nat.lt_log2_self⟩

theorem isWhole_ofBits {n : Nat} (h : 0 < n) (hn : n < 2 ^ 53) :
    (Binary.ofBits ((n.log2 + 1022) * Binary.leadingBit + n * 2 ^ (52 - n.log2))).IsWhole n
      (52 - n.log2) := by
  have hlog : n.log2 < 53 := (Nat.log2_lt h.ne').mpr hn
  have hmantissa := mantissa_bounds h hn
  have hexponent : ((n.log2 + 1022) * Binary.leadingBit + n * 2 ^ (52 - n.log2)) /
      Binary.leadingBit = n.log2 + 1023 := by
    unfold Binary.leadingBit at *
    omega
  have hfraction : ((n.log2 + 1022) * Binary.leadingBit + n * 2 ^ (52 - n.log2)) %
      Binary.leadingBit = n * 2 ^ (52 - n.log2) - Binary.leadingBit := by
    unfold Binary.leadingBit at *
    omega
  unfold Binary.ofBits
  simp only [hexponent, hfraction, Nat.succ_ne_zero, if_false]
  refine ⟨h, ?_, ?_⟩
  · simp only
    omega
  · simp only
    omega

theorem nearestBits_whole {n : Nat} (h : 0 < n) (hn : n < 2 ^ 53) :
    nearestBits ⟨n, 0⟩ = (n.log2 + 1022) * Binary.leadingBit + n * 2 ^ (52 - n.log2) ∧
      0 < nearestBits ⟨n, 0⟩ ∧ nearestBits ⟨n, 0⟩ < Binary.infinityBits := by
  have hlog : n.log2 < 53 := (Nat.log2_lt h.ne').mpr hn
  have hmantissa := mantissa_bounds h hn
  have hpos : 0 < (n.log2 + 1022) * Binary.leadingBit + n * 2 ^ (52 - n.log2) := by
    unfold Binary.leadingBit at *
    omega
  have hfinite : (n.log2 + 1022) * Binary.leadingBit + n * 2 ^ (52 - n.log2) <
      Binary.infinityBits := by
    unfold Binary.infinityBits Binary.leadingBit at *
    omega
  have hwhole := isWhole_ofBits h hn
  have hread := readsBack_of_value_eq hwhole.mantissa_pos
    ((value_whole n).trans hwhole.value_eq.symm)
  have hbits := Binary.nearestBits_of_readsBack hpos hfinite hread
  exact ⟨hbits, hbits ▸ hpos, hbits ▸ hfinite⟩

theorem isWhole_nearestBits {n : Nat} (h : 0 < n) (hn : n < 2 ^ 53) :
    (Binary.ofBits (nearestBits ⟨n, 0⟩)).IsWhole n (52 - n.log2) := by
  rw [(nearestBits_whole h hn).1]
  exact isWhole_ofBits h hn

/-! ## Written integers -/

theorem layout_nearestBits {n : Nat} (h : 0 < n) (hn : n < 2 ^ 53) :
    plainStyle.layout (shortest plainStyle.tie (Binary.ofBits (nearestBits ⟨n, 0⟩))) =
      Nat.toDigits 10 n := by
  have hwhole := isWhole_nearestBits h hn
  have hscale : (Binary.ofBits (nearestBits ⟨n, 0⟩)).scale ≤ 1 := by
    rw [hwhole.scale]
    omega
  have hn' : n < 2 ^ 64 := hn.trans (by decide)
  exact (layout_eq_toDigits_iff hwhole.mantissa_pos hn').mpr
    ((exists_isShortest_iff hwhole.mantissa_pos hn' hscale).mpr hwhole.value_eq)

theorem chars_ofInt {i : Int} (h : i.natAbs ≤ 2 ^ 53) :
    (ofInt i).isFinite = true ∧
      plainStyle.chars (if ofInt i == 0.0 then 0.0 else ofInt i) = Json.intChars i := by
  rcases Nat.eq_zero_or_pos i.natAbs with hzero | hpos
  · obtain rfl := Int.natAbs_eq_zero.mp hzero
    decide +kernel
  rcases Nat.lt_or_eq_of_le h with hlt | htop
  · obtain ⟨-, hbits, hfinite⟩ := nearestBits_whole hpos hlt
    have hmagnitude : Binary.magnitudeBits (ofInt i) = nearestBits ⟨i.natAbs, 0⟩ :=
      Binary.magnitudeBits_ofMagnitude _ hfinite.le
    have hsign : Binary.isNegative (ofInt i) = decide (i < 0) :=
      Binary.isNegative_ofMagnitude _ hfinite.le
    have hne : ¬ (ofInt i == 0.0) = true := by
      rw [Binary.beq_zero_iff, hmagnitude]
      exact hbits.ne'
    have hnan : ¬ (ofInt i).isNaN = true := by
      rw [Binary.isNaN_iff, hmagnitude]
      exact hfinite.not_gt
    constructor
    · rwa [Binary.isFinite_iff, hmagnitude]
    · rw [if_neg hne]
      unfold Style.chars Json.intChars
      rw [if_neg hnan]
      simp only [hmagnitude, hsign, if_neg hfinite.ne, if_neg hbits.ne', decide_eq_true_eq,
        layout_nearestBits hpos hlt]
  · -- The bound itself has one bit more.
    rcases Int.natAbs_eq i with hi | hi <;> rw [htop] at hi <;> subst hi <;> decide +kernel

end Decimal

end TableCleaner
