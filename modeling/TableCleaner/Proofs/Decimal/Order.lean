import TableCleaner.Proofs.Decimal.Arithmetic

/-!
# Order and integers

Finite numbers are compared by their values. An integer becomes the number nearest to it, and a
number that is not negative is cut off to the integer below.
-/

namespace TableCleaner.Binary

open Float.Model Float.Model.UnpackedFloat

variable {x y : Float}

/-! ## Comparisons -/

namespace Canonical

variable {m m' : Nat} {e e' : Int}

theorem lt_of_scale_lt (h : Canonical m e) (h' : Canonical m' e') (he : e < e') :
    (m : ℚ) * 2 ^ e < m' * 2 ^ e' := by
  have hm : (m : ℚ) < 2 ^ 53 := by exact_mod_cast (h.mantissa : m < 2 ^ 53)
  have hm' : (2 : ℚ) ^ 52 ≤ m' := by
    have hscale := h.scale
    exact_mod_cast (h'.leading.resolve_left (by omega) : 2 ^ 52 ≤ m')
  calc (m : ℚ) * 2 ^ e
    _ < 2 ^ 53 * 2 ^ e := by gcongr
    _ = 2 ^ 52 * 2 ^ (e + 1) := by rw [zpow_add_one₀ (by norm_num)]; ring
    _ ≤ m' * 2 ^ e' := by
      gcongr
      · norm_num
      · omega

/-- Scales are compared first, as the greater scale has the leading bit. -/
theorem compare_eq (h : Canonical m e) (h' : Canonical m' e') :
    (compare e e').then (compare m m') = compare ((m : ℚ) * 2 ^ e) (m' * 2 ^ e') := by
  rcases lt_trichotomy e e' with he | rfl | he
  · rw [compare_lt_iff_lt.mpr he, compare_lt_iff_lt.mpr (h.lt_of_scale_lt h' he)]
    rfl
  · have hpow : (0 : ℚ) < 2 ^ e := by positivity
    rw [compare_eq_iff_eq.mpr rfl]
    rcases lt_trichotomy m m' with hm | rfl | hm
    · rw [compare_lt_iff_lt.mpr hm, compare_lt_iff_lt.mpr (by gcongr)]
      rfl
    · rw [compare_eq_iff_eq.mpr rfl, compare_eq_iff_eq.mpr rfl]
      rfl
    · rw [compare_gt_iff_gt.mpr hm, compare_gt_iff_gt.mpr (by gcongr)]
      rfl
  · rw [compare_gt_iff_gt.mpr he, compare_gt_iff_gt.mpr (h'.lt_of_scale_lt h he)]
    rfl

end Canonical

theorem compare_neg_neg (a b : ℚ) : compare (-a) (-b) = (compare a b).swap := by
  rcases lt_trichotomy a b with h | rfl | h
  · rw [compare_lt_iff_lt.mpr h, compare_gt_iff_gt.mpr (neg_lt_neg h)]
    rfl
  · rw [compare_eq_iff_eq.mpr rfl, compare_eq_iff_eq.mpr rfl]
    rfl
  · rw [compare_gt_iff_gt.mpr h, compare_lt_iff_lt.mpr (neg_lt_neg h)]
    rfl

theorem compare_signum_mul (s s' : Sign) {p q : ℚ} (hp : 0 < p) (hq : 0 < q) :
    compare (signum s * p) (signum s' * q) =
      match s, s' with
      | .negative, .negative => (compare p q).swap
      | .negative, .positive => .lt
      | .positive, .negative => .gt
      | .positive, .positive => compare p q := by
  cases s with
  | negative =>
    cases s' with
    | negative => rw [signum, neg_one_mul, neg_one_mul, compare_neg_neg]
    | positive => exact compare_lt_iff_lt.mpr (by simp only [signum]; linarith)
  | positive =>
    cases s' with
    | negative => exact compare_gt_iff_gt.mpr (by simp only [signum]; linarith)
    | positive => rw [signum, one_mul, one_mul]

theorem compare_zero_signum_mul (s : Sign) {q : ℚ} (hq : 0 < q) :
    compare 0 (signum s * q) = match s with | .negative => .gt | .positive => .lt := by
  cases s with
  | negative => exact compare_gt_iff_gt.mpr (by rw [signum]; linarith)
  | positive => exact compare_lt_iff_lt.mpr (by rw [signum]; linarith)

theorem compare_signum_mul_zero (s : Sign) {q : ℚ} (hq : 0 < q) :
    compare (signum s * q) 0 = match s with | .negative => .lt | .positive => .gt := by
  cases s with
  | negative => exact compare_lt_iff_lt.mpr (by rw [signum]; linarith)
  | positive => exact compare_gt_iff_gt.mpr (by rw [signum]; linarith)

theorem compare_unpacked (hx : x.isFinite = true) (hy : y.isFinite = true) :
    (unpacked x).compare (unpacked y) = some (compare (signedValue x) (signedValue y)) := by
  cases parts hx with
  | zero h hv =>
    cases parts hy with
    | zero h' hv' =>
      rw [h, h', hv, hv', compare_eq_iff_eq.mpr rfl]
      rfl
    | finite m' e' hm' hc' he' h' hv' =>
      rw [h, h', hv, hv', compare_zero_signum_mul _ (by positivity)]
      cases sign y <;> rfl
  | finite m e hm hc he h hv =>
    cases parts hy with
    | zero h' hv' =>
      rw [h, h', hv, hv', compare_signum_mul_zero _ (by positivity)]
      cases sign x <;> rfl
    | finite m' e' hm' hc' he' h' hv' =>
      rw [h, h', hv, hv', compare_signum_mul _ _ (by positivity) (by positivity),
        ← hc.compare_eq hc']
      cases sign x <;> cases sign y <;> rfl

theorem lt_iff (hx : x.isFinite = true) (hy : y.isFinite = true) :
    x < y ↔ signedValue x < signedValue y := by
  have hlt : x < y ↔ ((unpacked x).compare (unpacked y) == some .lt) = true :=
    decide_eq_true_iff
  rw [hlt, compare_unpacked hx hy, beq_iff_eq, Option.some_inj, compare_lt_iff_lt]

/-! ## Integers -/

theorem isRounded_toFloat (n : UInt64) : IsRounded n.toNat n.toFloat := by
  have hround := isRounded_normalize n.toNat 0 .positive
  rwa [zpow_zero, mul_one, Int.cast_natCast] at hround

theorem roundToInt_eq (s : Sign) (m : Nat) (e : Int) :
    roundToInt s m e = s.apply ⌊(m : ℚ) * 2 ^ e⌋₊ := by
  unfold roundToInt shiftToExponent
  have hvalue := decreaseExponent_value m e 0
  have hscale := decreaseExponent_snd m e 0
  have hfloor := ((Represents.exact (decreaseExponent m e 0).1).shiftRight
    (0 - (decreaseExponent m e 0).2).toNat).mantissa_eq_floor
  have hshift : ((decreaseExponent m e 0).1 : ℚ) / 2 ^ (0 - (decreaseExponent m e 0).2).toNat =
      m * 2 ^ e := by
    rw [← hvalue, div_eq_mul_inv, ← zpow_natCast, ← zpow_neg]
    congr 2
    omega
  rw [hshift] at hfloor
  simp only [hfloor]

theorem toNat_toUInt64 (hx : x.isFinite = true) (hlow : 0 ≤ signedValue x)
    (hhigh : signedValue x < 2 ^ 64) : x.toUInt64.toNat = ⌊signedValue x⌋₊ := by
  change (UInt64.ofNatClamp ((unpacked x).toInt 0 (UInt64.size - 1)).toNat).toNat = _
  have hint : (unpacked x).toInt 0 (UInt64.size - 1) = ⌊signedValue x⌋₊ := by
    cases parts hx with
    | zero h hv =>
      rw [h, hv, Nat.floor_zero]
      rfl
    | finite m e hm hc he h hv =>
      have hsign : sign x = .positive := eq_positive_of_nonneg (by positivity) (hv ▸ hlow)
      rw [h, hv, hsign, signum, one_mul, UnpackedFloat.toInt, roundToInt_eq]
      rfl
  rw [hint, Int.toNat_natCast]
  have hlt : ⌊signedValue x⌋₊ < UInt64.size := (Nat.floor_lt hlow).mpr (by exact_mod_cast hhigh)
  rw [UInt64.ofNatClamp_eq_ofNat _ hlt, UInt64.toNat_ofNat_of_lt' hlt]

end TableCleaner.Binary
