import TableCleaner.Proofs.Decimal.Order

/-!
# Ranges

Whether the result of an operation is finite, and what it is at least. A sum of numbers that are not
negative can leave the finite range only at its upper end, and so can their quotients and roots, so
a lower bound goes through with infinity counted above all numbers.
-/

namespace TableCleaner.Binary

open Float.Model Float.Model.UnpackedFloat

variable {x y : Float} {p q r : ℚ}

/-! ## Finite results -/

namespace IsRounded

theorem isFinite_iff (h : IsRounded r x) : x.isFinite = true ↔ |r| < overflow := by
  constructor
  · intro hx
    by_contra hge
    rw [h.infinite (not_lt.mp hge), isFinite_infinity] at hx
    exact Bool.false_ne_true hx
  · exact fun hlt => (h.finite hlt).1

theorem nearest (h : IsRounded r x) (hx : x.isFinite = true) : Nearest r (signedValue x) :=
  (h.finite (h.isFinite_iff.mp hx)).2

end IsRounded

theorem abs_signedValue_lt (hx : x.isFinite = true) : |signedValue x| < overflow :=
  (isRounded_self hx).isFinite_iff.mp hx

theorem representable_signedValue (hx : x.isFinite = true) : Representable (signedValue x) :=
  ((isRounded_self hx).nearest hx).representable

theorem exists_least_multiple (hx : x.isFinite = true) :
    ∃ k : ℤ, signedValue x = k * leastGap := by
  obtain ⟨m, e, -, he, hv⟩ := representable_signedValue hx
  refine ⟨m * 2 ^ (e + 1074).toNat, ?_⟩
  rw [hv, leastGap, Int.cast_mul, Int.cast_pow, Int.cast_ofNat, mul_assoc, ← zpow_natCast,
    ← zpow_add₀ (by norm_num)]
  congr 2
  omega

theorem IsRounded.abs_le (h : IsRounded r x) (hq : Representable q) (hrange : q < overflow)
    (hr : |r| ≤ q) : x.isFinite = true ∧ |signedValue x| ≤ q := by
  have hx := h.isFinite_iff.mpr (hr.trans_lt hrange)
  exact ⟨hx, (h.nearest hx).abs.le_of_le hq hr⟩

theorem topGap_lt_overflow : 2 ^ 52 * topGap < overflow := by
  unfold overflow
  exact mul_lt_mul_of_pos_right (by norm_num) topGap_pos

theorem two_zpow_lt_overflow {k : ℤ} (hk : k ≤ 1023) : (2 : ℚ) ^ k < overflow := by
  refine lt_of_le_of_lt ?_ topGap_lt_overflow
  rw [topGap, ← two_zpow_fiftyTwo_add]
  exact zpow_le_zpow_right₀ (by norm_num) (by omega)

theorem IsRounded.isFinite_of_abs_le (h : IsRounded r x) (hr : |r| ≤ 2 ^ 64) :
    x.isFinite = true := by
  refine h.isFinite_iff.mpr (hr.trans_lt ?_)
  exact_mod_cast two_zpow_lt_overflow (k := 64) (by norm_num)

/-! ## Lower bounds -/

/-- The number is at least the value, or it is infinite. -/
def AtLeast (q : ℚ) (x : Float) : Prop :=
  x = infinity .positive ∨ x.isFinite = true ∧ q ≤ signedValue x

theorem unpacked_infinity (s : Sign) : unpacked (infinity s) = .infinity s := by
  have h := unpacked_of_infinity (x := infinity s) (magnitudeBits_ofMagnitude _ le_rfl)
  rwa [infinity, sign_ofMagnitude s le_rfl] at h

theorem IsRounded.atLeast (h : IsRounded r x) (hp : Representable p) (hnonneg : 0 ≤ p)
    (hr : p ≤ r) : AtLeast p x := by
  rcases lt_or_ge |r| overflow with hrange | hrange
  · obtain ⟨hx, hnear⟩ := h.finite hrange
    exact .inr ⟨hx, hnear.ge_of_ge hp hr⟩
  · left
    rw [h.infinite hrange, if_neg (not_lt.mpr (hnonneg.trans hr))]

theorem AtLeast.add {s : ℚ} (hx : AtLeast p x) (hy : AtLeast q y) (hs : Representable s)
    (hnonneg : 0 ≤ s) (hle : s ≤ p + q) : AtLeast s (x + y) := by
  rcases hx with rfl | ⟨hx, hpx⟩
  · left
    rw [add_eq, unpacked_infinity, ← ofUnpacked_infinity]
    rcases hy with rfl | ⟨hy, -⟩
    · rw [unpacked_infinity]
      rfl
    · cases parts hy with
      | zero h => rw [h]; rfl
      | finite m e hm hc he h => rw [h]; rfl
  · rcases hy with rfl | ⟨hy, hqy⟩
    · left
      rw [add_eq, unpacked_infinity, ← ofUnpacked_infinity]
      cases parts hx with
      | zero h => rw [h]; rfl
      | finite m e hm hc he h => rw [h]; rfl
    · exact (isRounded_add hx hy).atLeast hs hnonneg (hle.trans (add_le_add hpx hqy))

theorem IsRounded.atLeast_mul_self (h : IsRounded r x) (hp : Representable p) (hnonneg : 0 ≤ p)
    (hx : x.isFinite = true → p ≤ signedValue x * signedValue x) : AtLeast p (x * x) := by
  by_cases hfinite : x.isFinite = true
  · exact (isRounded_mul hfinite hfinite).atLeast hp hnonneg (hx hfinite)
  · left
    rw [h.infinite (not_lt.mp (mt h.isFinite_iff.mpr hfinite)), mul_eq, unpacked_infinity,
      ← ofUnpacked_infinity]
    split <;> rfl

theorem AtLeast.div {s c : ℚ} (hx : AtLeast p x) (hy : y.isFinite = true) (hpos : 0 < signedValue y)
    (hc : signedValue y ≤ c) (hs : Representable s) (hnonneg : 0 ≤ s) (hle : s * c ≤ p) :
    AtLeast s (x / y) := by
  rcases hx with rfl | ⟨hx, hpx⟩
  · left
    rw [div_eq, unpacked_infinity, ← ofUnpacked_infinity]
    cases parts hy with
    | zero h hv => exact absurd hv hpos.ne'
    | finite m e hm hc he h hv =>
      have hsign : sign y = .positive := eq_positive_of_nonneg (by positivity) (hv ▸ hpos.le)
      rw [h, hsign]
      rfl
  · refine (isRounded_div hx hy hpos.ne').atLeast hs hnonneg ?_
    rw [le_div_iff₀ hpos]
    exact (mul_le_mul_of_nonneg_left hc hnonneg).trans (hle.trans hpx)

theorem sqrt_infinity : (infinity .positive).sqrt = infinity .positive := by
  rw [sqrt_eq, unpacked_infinity, ← ofUnpacked_infinity]
  rfl

theorem AtLeast.sqrt {k : ℤ} (hk : -1074 ≤ k) (hx : AtLeast (2 ^ (2 * k)) x) :
    AtLeast (2 ^ k) x.sqrt := by
  rcases hx with rfl | ⟨hx, hpx⟩
  · exact .inl sqrt_infinity
  · obtain ⟨r, -, hnear, hround⟩ := exists_isRounded_sqrt hx (lt_of_lt_of_le (by positivity) hpx)
    exact hround.atLeast (.two_zpow hk) (by positivity) ((hnear k).1 hpx)

theorem sqrt_of_zero (hx : x.isFinite = true) (hzero : signedValue x = 0) :
    x.sqrt = zero (sign x) := by
  rw [sqrt_eq]
  cases parts hx with
  | zero h => rw [h, ← ofUnpacked_zero]; rfl
  | finite m e hm hc he h hv =>
    have habs := abs_signum_mul (sign x) (m * 2 ^ e)
    have hpos : (0 : ℚ) < m * 2 ^ e := by positivity
    rw [← hv, hzero, abs_zero, abs_of_pos hpos] at habs
    exact absurd habs hpos.ne

theorem isFinite_div_infinity (hx : x.isFinite = true) (s : Sign) :
    (x / infinity s).isFinite = true := by
  rw [div_eq, unpacked_infinity]
  cases parts hx with
  | zero h => rw [h]; exact ofUnpacked_zero _ ▸ isFinite_zero _
  | finite m e hm hc he h => rw [h]; exact ofUnpacked_zero _ ▸ isFinite_zero _

theorem isFinite_div (hx : x.isFinite = true) (hy : AtLeast q y) (hq : 0 < q)
    (hrange : |signedValue x| / q < overflow) : (x / y).isFinite = true := by
  rcases hy with rfl | ⟨hy, hqy⟩
  · exact isFinite_div_infinity hx .positive
  · have hpos := hq.trans_le hqy
    rw [(isRounded_div hx hy hpos.ne').isFinite_iff, abs_div, abs_of_pos hpos]
    exact (div_le_div_of_nonneg_left (abs_nonneg _) hq hqy).trans_lt hrange

end TableCleaner.Binary
