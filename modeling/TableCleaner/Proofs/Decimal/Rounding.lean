import TableCleaner.Proofs.Decimal.Nearest

/-!
# Rounding

The exact result of an operation is rounded to a mantissa of 53 bits, a tie going to the even one.
All bounds on rounded results come from two facts: rounding is monotone, and it keeps the values that
need no rounding. So a rounded result lies on the same side of such a value as the exact one.
-/

namespace TableCleaner.Binary

open Decimal (scaleOf)

/-! ## Integers -/

/-- The integer is nearest to the number, and it is even when another one is as near. -/
structure Rounds (r : ℚ) (m : ℤ) : Prop where
  low : m - 1 / 2 ≤ r
  high : r ≤ m + 1 / 2
  even : r = m - 1 / 2 ∨ r = m + 1 / 2 → Even m

namespace Rounds

variable {r r' : ℚ} {m m' : ℤ}

theorem of_near (hlow : m - 1 / 2 < r) (hhigh : r < m + 1 / 2) : Rounds r m where
  low := hlow.le
  high := hhigh.le
  even := by rintro (h | h) <;> linarith

theorem intCast (m : ℤ) : Rounds m m := of_near (by linarith) (by linarith)

theorem of_tie (m : Nat) : Rounds (m + 1 / 2) (m + m % 2 : Nat) := by
  have heven : Even ((m + m % 2 : Nat) : ℤ) := by
    rw [Int.even_coe_nat, Nat.even_iff]
    omega
  have hcast : (((m + m % 2 : Nat) : ℤ) : ℚ) = m + (m % 2 : Nat) := by
    rw [Int.cast_natCast, Nat.cast_add]
  have hbit : ((m % 2 : Nat) : ℚ) ≤ 1 := by exact_mod_cast (by omega : m % 2 ≤ 1)
  have hbit' : (0 : ℚ) ≤ (m % 2 : Nat) := Nat.cast_nonneg _
  refine ⟨?_, ?_, fun _ => heven⟩
  · rw [hcast]
    linarith
  · rw [hcast]
    linarith

theorem neg (h : Rounds r m) : Rounds (-r) (-m) where
  low := by push_cast; linarith [h.high]
  high := by push_cast; linarith [h.low]
  even := by
    push_cast
    rintro (htie | htie)
    · exact (h.even (.inr (by linarith))).neg
    · exact (h.even (.inl (by linarith))).neg

theorem mono (h : Rounds r m) (h' : Rounds r' m') (hr : r ≤ r') : m ≤ m' := by
  by_contra hlt
  have hnext : (m' : ℚ) + 1 ≤ m := by exact_mod_cast (not_le.mp hlt : m' + 1 ≤ m)
  have hlow := h.low
  have hhigh := h'.high
  -- Only one number lies half way between the two integers, and they cannot both be even.
  have heven : Even m := h.even (.inl (by linarith))
  have heven' : Even m' := h'.even (.inr (by linarith))
  have hm : m = m' + 1 := by
    have : (m : ℚ) = m' + 1 := by linarith
    exact_mod_cast this
  rw [hm, Int.even_add_one] at heven
  exact heven heven'

theorem le_of_le (h : Rounds r m) {k : ℤ} (hr : r ≤ k) : m ≤ k := h.mono (intCast k) hr

theorem ge_of_ge (h : Rounds r m) {k : ℤ} (hr : k ≤ r) : k ≤ m := (intCast k).mono h hr

end Rounds

/-! ## Gaps -/

variable {r r' v v' q : ℚ}

/-- The gap between the values around a number. -/
def gap (r : ℚ) : ℚ := 2 ^ scaleOf |r|

theorem gap_pos (r : ℚ) : 0 < gap r := by unfold gap; positivity

theorem gap_neg (r : ℚ) : gap (-r) = gap r := by rw [gap, abs_neg, gap]

theorem le_scaleOf (r : ℚ) : -1074 ≤ scaleOf r := le_max_right _ _

theorem two_zpow_fiftyTwo_add (e : ℤ) : (2 : ℚ) ^ (52 + e) = 2 ^ 52 * 2 ^ e := by
  rw [zpow_add₀ (by norm_num)]
  norm_num

theorem abs_lt_gap (r : ℚ) : |r| < 2 ^ 53 * gap r := by
  rw [← div_lt_iff₀ (gap_pos r)]
  rcases eq_or_ne r 0 with rfl | hr
  · simp
  · exact Decimal.div_scaleOf_lt (abs_pos.mpr hr)

theorem gap_le_abs (hr : r ≠ 0) (hs : -1074 < scaleOf |r|) : 2 ^ 52 * gap r ≤ |r| := by
  rw [gap, ← two_zpow_fiftyTwo_add]
  apply (Int.zpow_le_iff_le_log (b := 2) (by norm_num) (abs_pos.mpr hr)).mpr
  unfold scaleOf at *
  omega

theorem gap_eq_of_bounds {k : ℤ} (hk : -1022 ≤ k) (hlow : (2 : ℚ) ^ k ≤ |r|)
    (hhigh : |r| < (2 : ℚ) ^ (k + 1)) : gap r = 2 ^ (k - 52) := by
  have hpos : 0 < |r| := lt_of_lt_of_le (by positivity) hlow
  have hlog := (Int.zpow_le_iff_le_log (b := 2) (by norm_num) hpos).mp hlow
  have hlog' := (Int.lt_zpow_iff_log_lt (b := 2) (by norm_num) hpos).mp hhigh
  unfold gap scaleOf
  congr 1
  omega

/-- The gap between the least values. -/
def leastGap : ℚ := 2 ^ (-1074 : ℤ)

theorem leastGap_pos : 0 < leastGap := by unfold leastGap; positivity

theorem gap_le_of_le (h : 2 ^ 52 * leastGap ≤ |r|) : 2 ^ 52 * gap r ≤ |r| := by
  have hpos : 0 < |r| := lt_of_lt_of_le (mul_pos (by norm_num) leastGap_pos) h
  rw [leastGap, ← two_zpow_fiftyTwo_add] at h
  have hlog := (Int.zpow_le_iff_le_log (b := 2) (by norm_num) hpos).mp h
  rw [gap, ← two_zpow_fiftyTwo_add]
  apply (Int.zpow_le_iff_le_log (b := 2) (by norm_num) hpos).mpr
  unfold scaleOf
  omega

namespace Rounds

variable {m : ℤ} (h : Rounds (r / gap r) m)

include h

theorem abs_mantissa_le : |m| ≤ 2 ^ 53 := by
  have hbound : |r / gap r| ≤ 2 ^ 53 := by
    rw [abs_div, abs_of_pos (gap_pos r), div_le_iff₀ (gap_pos r)]
    exact (abs_lt_gap r).le
  obtain ⟨hlow, hhigh⟩ := abs_le.mp hbound
  refine abs_le.mpr ⟨?_, ?_⟩
  · exact h.ge_of_ge (by push_cast; exact hlow)
  · exact h.le_of_le (by push_cast; exact hhigh)

theorem leading (hr : 0 < r) : scaleOf r = -1074 ∨ 2 ^ 52 ≤ m := by
  rcases (le_scaleOf r).eq_or_lt with hleast | hmore
  · exact .inl hleast.symm
  · have hbound := gap_le_abs hr.ne' (by rwa [abs_of_pos hr])
    rw [abs_of_pos hr, ← le_div_iff₀ (gap_pos r)] at hbound
    exact .inr (h.ge_of_ge (by push_cast; exact hbound))

end Rounds

/-! ## Values that need no rounding -/

/-- The value has a mantissa of 53 bits at a scale that is not below the least one. -/
def Representable (q : ℚ) : Prop := ∃ m e : ℤ, |m| ≤ 2 ^ 53 ∧ -1074 ≤ e ∧ q = m * 2 ^ e

namespace Representable

theorem neg : Representable q → Representable (-q) := by
  rintro ⟨m, e, hm, he, rfl⟩
  exact ⟨-m, e, by rwa [abs_neg], he, by push_cast; ring⟩

theorem intCast {m : ℤ} (hm : |m| ≤ 2 ^ 53) : Representable m := ⟨m, 0, hm, by norm_num, by simp⟩

theorem zero : Representable 0 := by simpa using intCast (m := 0) (by norm_num)

theorem two_zpow {e : ℤ} (he : -1074 ≤ e) : Representable (2 ^ e) :=
  ⟨1, e, by norm_num, he, by simp⟩

theorem abs (h : Representable q) : Representable |q| := by
  rcases abs_choice q with hq | hq
  · rwa [hq]
  · rw [hq]
    exact h.neg

end Representable

theorem representable_of_abs_le {k e : ℤ} (he : -1074 ≤ e)
    (h : |(k : ℚ) * 2 ^ e| ≤ 2 ^ 53 * 2 ^ e) : Representable (k * 2 ^ e) := by
  refine ⟨k, e, ?_, he, rfl⟩
  rw [abs_mul, abs_of_pos (by positivity : (0 : ℚ) < 2 ^ e), mul_le_mul_iff_left₀ (by positivity)] at h
  exact_mod_cast h

theorem Representable.mul_leastGap {k : ℤ} (hk : |k| ≤ 2 ^ 53) : Representable (k * leastGap) :=
  ⟨k, -1074, hk, le_rfl, rfl⟩

/-! ## The nearest value -/

/-- The value is the nearest one to the number among the multiples of its gap. -/
def Nearest (r v : ℚ) : Prop := ∃ m : ℤ, Rounds (r / gap r) m ∧ v = m * gap r

namespace Nearest

theorem neg : Nearest r v → Nearest (-r) (-v) := by
  rintro ⟨m, hm, rfl⟩
  refine ⟨-m, ?_, ?_⟩
  · rw [gap_neg, neg_div]
    exact hm.neg
  · rw [gap_neg]
    push_cast
    ring

theorem representable : Nearest r v → Representable v := by
  rintro ⟨m, hm, rfl⟩
  exact ⟨m, _, hm.abs_mantissa_le, le_scaleOf _, rfl⟩

/-- A multiple of the gap lies between a number and any value above it that needs no rounding. -/
theorem exists_between (hq : Representable q) (hr : r ≤ q) :
    ∃ n : ℤ, r ≤ n * gap r ∧ (n : ℚ) * gap r ≤ q := by
  obtain ⟨k, e, hk, he, rfl⟩ := hq
  by_cases hscale : scaleOf |r| ≤ e
  · have hsplit : (k : ℚ) * 2 ^ e = (k * 2 ^ (e - scaleOf |r|).toNat : ℤ) * gap r := by
      push_cast
      rw [gap, mul_assoc, ← zpow_natCast, ← zpow_add₀ (by norm_num)]
      congr 2
      omega
    exact ⟨_, hr.trans hsplit.le, hsplit.ge⟩
  rcases eq_or_ne r 0 with rfl | hzero
  · exact ⟨0, by simp, by simpa using hr⟩
  -- The value is a multiple of a smaller gap, so it is not beyond the leading bit of the number.
  have hlead := gap_le_abs hzero (by omega)
  have hbound : |(k : ℚ) * 2 ^ e| ≤ 2 ^ 52 * gap r := by
    rw [abs_mul, abs_of_pos (by positivity : (0 : ℚ) < 2 ^ e)]
    calc |(k : ℚ)| * 2 ^ e
      _ ≤ 2 ^ 53 * 2 ^ e := by gcongr; exact_mod_cast hk
      _ = 2 ^ (52 + (e + 1)) := by rw [two_zpow_fiftyTwo_add, zpow_add_one₀ (by norm_num)]; ring
      _ ≤ 2 ^ (52 + scaleOf |r|) := zpow_le_zpow_right₀ (by norm_num) (by omega)
      _ = 2 ^ 52 * gap r := by rw [two_zpow_fiftyTwo_add, gap]
  obtain ⟨hbelow, habove⟩ := abs_le.mp hbound
  rcases hzero.lt_or_gt with hneg | hpos
  · rw [abs_of_neg hneg] at hlead
    refine ⟨-2 ^ 52, ?_, ?_⟩
    · push_cast
      linarith
    · push_cast
      linarith
  · rw [abs_of_pos hpos] at hlead
    refine ⟨2 ^ 52, ?_, ?_⟩
    · push_cast
      linarith
    · push_cast
      linarith

/-- Rounding does not pass a value that needs none. -/
theorem le_of_le (h : Nearest r v) (hq : Representable q) (hr : r ≤ q) : v ≤ q := by
  obtain ⟨m, hm, rfl⟩ := h
  obtain ⟨n, hrn, hnq⟩ := exists_between hq hr
  have hmn : (m : ℚ) ≤ n := by
    exact_mod_cast hm.le_of_le ((div_le_iff₀ (gap_pos r)).mpr hrn)
  exact (mul_le_mul_of_nonneg_right hmn (gap_pos r).le).trans hnq

theorem ge_of_ge (h : Nearest r v) (hq : Representable q) (hr : q ≤ r) : q ≤ v := by
  have := h.neg.le_of_le hq.neg (neg_le_neg hr)
  linarith

theorem nonneg (h : Nearest r v) (hr : 0 ≤ r) : 0 ≤ v := h.ge_of_ge .zero hr

theorem abs (h : Nearest r v) : Nearest |r| |v| := by
  rcases le_or_gt 0 r with hr | hr
  · rwa [abs_of_nonneg hr, abs_of_nonneg (h.nonneg hr)]
  · have hv : v ≤ 0 := h.le_of_le .zero hr.le
    rw [abs_of_neg hr, abs_of_nonpos hv]
    exact h.neg

theorem eq (h : Nearest r v) (hr : Representable r) : v = r :=
  le_antisymm (h.le_of_le hr le_rfl) (h.ge_of_ge hr le_rfl)

theorem mono_of_pos (h : Nearest r v) (h' : Nearest r' v') (hpos : 0 < r) (hr : r ≤ r') :
    v ≤ v' := by
  have hpos' := hpos.trans_le hr
  have hscale : scaleOf |r| ≤ scaleOf |r'| := by
    rw [abs_of_pos hpos, abs_of_pos hpos']
    exact max_le_max (by linarith [Int.log_mono_right (b := 2) hpos hr]) le_rfl
  rcases hscale.eq_or_lt with hsame | hless
  · have hgap : gap r = gap r' := by rw [gap, hsame, gap]
    obtain ⟨m, hm, rfl⟩ := h
    obtain ⟨m', hm', rfl⟩ := h'
    rw [← hgap] at hm' ⊢
    have hmm : (m : ℚ) ≤ m' := by
      exact_mod_cast hm.mono hm' (div_le_div_of_nonneg_right hr (gap_pos r).le)
    exact mul_le_mul_of_nonneg_right hmm (gap_pos r).le
  · -- At different gaps a power of two lies between the numbers.
    have hlead := gap_le_abs hpos'.ne' ((le_scaleOf |r|).trans_lt hless)
    have hbound := abs_lt_gap r
    have hgaps : 2 * gap r ≤ gap r' := by
      calc 2 * gap r
        _ = 2 ^ (scaleOf |r| + 1) := by rw [gap, zpow_add_one₀ (by norm_num), mul_comm]
        _ ≤ gap r' := zpow_le_zpow_right₀ (by norm_num) hless
    have hrep : Representable (2 ^ 52 * gap r') := by
      rw [gap, ← two_zpow_fiftyTwo_add]
      exact .two_zpow (by linarith [le_scaleOf |r'|])
    rw [abs_of_pos hpos'] at hlead
    rw [abs_of_pos hpos] at hbound
    exact (h.le_of_le hrep (by linarith)).trans (h'.ge_of_ge hrep hlead)

theorem mono (h : Nearest r v) (h' : Nearest r' v') (hr : r ≤ r') : v ≤ v' := by
  rcases lt_or_ge 0 r with hpos | hneg
  · exact h.mono_of_pos h' hpos hr
  rcases lt_or_ge r' 0 with hneg' | hpos'
  · have := h'.neg.mono_of_pos h.neg (by linarith) (by linarith)
    linarith
  · exact (h.le_of_le .zero hneg).trans (h'.nonneg hpos')

theorem exists_multiple {j e : ℤ} (h : Nearest (j * 2 ^ e) v) (he : -1074 ≤ e) :
    ∃ j' : ℤ, v = j' * 2 ^ e := by
  by_cases hscale : scaleOf |(j : ℚ) * 2 ^ e| ≤ e
  · refine ⟨j, h.eq (representable_of_abs_le he ?_)⟩
    calc |(j : ℚ) * 2 ^ e|
      _ ≤ 2 ^ 53 * gap (j * 2 ^ e) := (abs_lt_gap _).le
      _ ≤ 2 ^ 53 * 2 ^ e := by
        unfold gap
        gcongr
        norm_num
  · obtain ⟨m, -, rfl⟩ := h
    refine ⟨m * 2 ^ (scaleOf |(j : ℚ) * 2 ^ e| - e).toNat, ?_⟩
    push_cast
    rw [gap, mul_assoc, ← zpow_natCast, ← zpow_add₀ (by norm_num)]
    congr 2
    omega

/-! ## Errors -/

theorem abs_sub_le (h : Nearest r v) : |v - r| ≤ gap r / 2 := by
  obtain ⟨m, hm, rfl⟩ := h
  have hr : r = r / gap r * gap r := (div_mul_cancel₀ r (gap_pos r).ne').symm
  have hlow := mul_le_mul_of_nonneg_right hm.low (gap_pos r).le
  have hhigh := mul_le_mul_of_nonneg_right hm.high (gap_pos r).le
  rw [← hr] at hlow hhigh
  rw [abs_le]
  constructor <;> linarith

theorem abs_sub_le_div (h : Nearest r v) (hr : 2 ^ 52 * leastGap ≤ |r|) :
    |v - r| ≤ |r| / 2 ^ 53 := by
  have hgap := gap_le_of_le hr
  have hnear := h.abs_sub_le
  rw [le_div_iff₀ (by positivity)]
  linarith

theorem le_max (h : Nearest r v) : |v| ≤ max (9 / 8 * |r|) (2 ^ 52 * leastGap) := by
  rcases le_total |r| (2 ^ 52 * leastGap) with hr | hr
  · have hrep := Representable.mul_leastGap (k := 2 ^ 52) (by norm_num)
    rw [Int.cast_pow, Int.cast_ofNat] at hrep
    exact (h.abs.le_of_le hrep hr).trans (le_max_right _ _)
  · have hnear := h.abs_sub_le_div hr
    have htriangle := abs_sub_abs_le_abs_sub v r
    refine le_trans ?_ (le_max_left _ _)
    linarith [abs_nonneg r]

end Nearest

/-! ## The end of the range -/

/-- The gap between the greatest finite values. -/
def topGap : ℚ := 2 ^ (971 : ℤ)

theorem topGap_pos : 0 < topGap := by unfold topGap; positivity

theorem Representable.mul_topGap {m : ℤ} (hm : |m| ≤ 2 ^ 53) : Representable (m * topGap) :=
  ⟨m, 971, hm, by norm_num, rfl⟩

/-- Half way between the greatest finite value and the next power of two. -/
def overflow : ℚ := (2 ^ 53 - 1 / 2) * topGap

theorem gap_top (hlow : 2 ^ 52 * topGap ≤ |r|) (hhigh : |r| < 2 ^ 53 * topGap) :
    gap r = topGap := by
  have hpow : ∀ n : ℤ, (2 : ℚ) ^ (52 + n) = 2 ^ 52 * 2 ^ n := two_zpow_fiftyTwo_add
  have hgap := gap_eq_of_bounds (r := r) (k := 52 + 971) (by norm_num)
  rw [add_sub_cancel_left, hpow, zpow_add_one₀ (by norm_num), hpow] at hgap
  refine hgap hlow (hhigh.trans_le (le_of_eq ?_))
  rw [topGap]
  ring

namespace Nearest

theorem rounds_top (h : Nearest r v) (hlow : 2 ^ 52 * topGap ≤ |r|)
    (hhigh : |r| < 2 ^ 53 * topGap) : ∃ m : ℤ, Rounds (r / topGap) m ∧ v = m * topGap := by
  rw [← gap_top hlow hhigh]
  exact h

theorem lt_iff_of_nonneg (hr : 0 ≤ r) (h : Nearest r v) : v < 2 ^ 53 * topGap ↔ r < overflow := by
  have hgap := topGap_pos
  have habs := abs_of_nonneg hr
  unfold overflow
  rcases lt_or_ge r (2 ^ 52 * topGap) with hlow | hlow
  · have hv := h.le_of_le (.mul_topGap (m := 2 ^ 52) (by norm_num)) (by push_cast; exact hlow.le)
    push_cast at hv
    constructor <;> intro <;> linarith
  rcases lt_or_ge r (2 ^ 53 * topGap) with hhigh | hhigh
  · obtain ⟨m, hm, rfl⟩ := h.rounds_top (by rwa [habs]) (by rwa [habs])
    rw [mul_lt_mul_iff_left₀ hgap, ← div_lt_iff₀ hgap]
    have hmr := hm.low
    have hrm := hm.high
    constructor
    · intro hlt
      have hle : (m : ℚ) ≤ 2 ^ 53 - 1 := by
        have : m ≤ 2 ^ 53 - 1 := Int.le_sub_one_of_lt (by exact_mod_cast hlt)
        exact_mod_cast this
      refine lt_of_le_of_ne (by linarith) fun htie => ?_
      -- The greatest finite mantissa is odd, so half way the number is not rounded down to it.
      have hm' : m = 2 ^ 53 - 1 := by
        have : (m : ℚ) = 2 ^ 53 - 1 := by linarith
        exact_mod_cast this
      have heven := hm.even (.inr (by rw [htie, hm']; norm_num))
      rw [hm'] at heven
      exact absurd heven (by decide)
    · intro hlt
      have : (m : ℚ) < 2 ^ 53 := by linarith
      exact this
  · have hv := h.ge_of_ge (.mul_topGap (m := 2 ^ 53) (by norm_num)) (by push_cast; exact hhigh)
    push_cast at hv
    constructor <;> intro <;> linarith

theorem abs_lt_iff (h : Nearest r v) : |v| < 2 ^ 53 * topGap ↔ |r| < overflow :=
  lt_iff_of_nonneg (abs_nonneg r) h.abs

theorem abs_le_of_lt (h : Nearest r v) (hr : |r| < (2 ^ 52 + 1 / 2) * topGap) :
    |v| ≤ 2 ^ 52 * topGap := by
  have hgap := topGap_pos
  have h' := h.abs
  rcases le_or_gt |r| (2 ^ 52 * topGap) with hlow | hlow
  · have hv := h'.le_of_le (.mul_topGap (m := 2 ^ 52) (by norm_num)) (by push_cast; exact hlow)
    push_cast at hv
    exact hv
  · obtain ⟨m, hm, hmv⟩ := h'.rounds_top (by rw [abs_abs]; exact hlow.le)
      (by rw [abs_abs]; linarith)
    have hmr := hm.low
    have hrm := (div_lt_iff₀ hgap).mpr hr
    have hle : (m : ℚ) ≤ 2 ^ 52 := by
      have : (m : ℚ) < 2 ^ 52 + 1 := by linarith
      have : m ≤ 2 ^ 52 := Int.lt_add_one_iff.mp (by exact_mod_cast this)
      exact_mod_cast this
    rw [hmv]
    exact mul_le_mul_of_nonneg_right hle hgap.le

end Nearest

end TableCleaner.Binary
