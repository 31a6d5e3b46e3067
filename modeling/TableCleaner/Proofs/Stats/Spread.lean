import TableCleaner.Operation.Apply
import TableCleaner.Proofs.Stats.Sum

/-!
# Spreads

A scale divides by a measure of how far the values lie apart. The standard deviation is infinite
where a square is, and zero where all squares vanish. Otherwise it is so great beside the distances
from the mean that no quotient leaves the finite range. The distance from the least value is at most
the distance of the greatest one, so that quotient is at most one.
-/

namespace TableCleaner.Stats

open Binary

variable {values : List Float} {view : List (Option Float)} {d m v x : Float}

/-! ## Deviations -/

theorem atLeast_square (hv : v.isFinite = true) (hm : m.isFinite = true) :
    AtLeast 0 ((v - m) * (v - m)) :=
  (isRounded_sub hv hm).atLeast_mul_self .zero le_rfl fun _ => mul_self_nonneg _

theorem atLeast_square_of_le {k : ℤ} (hk : -537 ≤ k) (hdiff : (v - m).isFinite = true)
    (hle : 2 ^ k ≤ |signedValue (v - m)|) : AtLeast (2 ^ (2 * k)) ((v - m) * (v - m)) := by
  refine (isRounded_mul hdiff hdiff).atLeast (.two_zpow (by omega)) (by positivity) ?_
  rw [two_zpow_two_mul, ← abs_mul_abs_self (signedValue (v - m))]
  exact mul_self_le_mul_self (by positivity) hle

theorem least_le_of_pos (hx : x.isFinite = true) (hpos : 0 < signedValue x) :
    leastGap ≤ signedValue x := by
  obtain ⟨k, hk⟩ := exists_least_multiple hx
  rw [hk] at hpos ⊢
  have hpos' : (0 : ℚ) < k := (mul_pos_iff_of_pos_right leastGap_pos).mp hpos
  exact le_mul_of_one_le_left leastGap_pos.le (by exact_mod_cast (Int.cast_pos.mp hpos' : 0 < k))

theorem sqrt_zero_or_atLeast (hx : AtLeast 0 x) :
    (x.sqrt == 0.0) = true ∨ AtLeast (2 ^ (-537 : ℤ)) x.sqrt := by
  rcases hx with rfl | ⟨hx, hnonneg⟩
  · exact .inr (.inl sqrt_infinity)
  · rcases hnonneg.eq_or_lt with hzero | hpos
    · left
      rw [sqrt_of_zero hx hzero.symm, beq_zero_iff]
      exact magnitudeBits_ofMagnitude _ (Nat.zero_le _)
    · have hleast := least_le_of_pos hx hpos
      exact .inr (AtLeast.sqrt (k := -537) (by norm_num) (.inr ⟨hx, hleast⟩))

theorem sampleDeviation?_bounds (hvalues : ∀ v ∈ present view, v.isFinite = true)
    (hmany : 2 ≤ (present view).length) (hlt : (present view).length < 2 ^ 64)
    (hm : (average (present view)).isFinite = true) :
    ∃ d, sampleDeviation? view = some d ∧
      ((d == 0.0) = true ∨ AtLeast (2 ^ (-537 : ℤ)) d) ∧
      ∀ v ∈ present view, (v - average (present view)).isFinite = true →
        2 ^ (32 : ℤ) ≤ |signedValue (v - average (present view))| → AtLeast 1 d := by
  unfold sampleDeviation?
  simp only [if_neg (not_lt.mpr hmany)]
  refine ⟨_, rfl, ?_⟩
  generalize average (present view) = m at *
  obtain ⟨hcount, hone, hmax⟩ :=
    count_bounds (n := (present view).length - 1) (by omega) (by omega)
  have hsquares : ∀ s ∈ (present view).map fun v => (v - m) * (v - m), AtLeast 0 s :=
    List.forall_mem_map.mpr fun v hv => atLeast_square (hvalues v hv) hm
  constructor
  · exact sqrt_zero_or_atLeast
      ((atLeast_sum hsquares).div hcount (by linarith) hmax .zero le_rfl (by norm_num))
  · intro v hv hdiff hle
    have hsquare := atLeast_square_of_le (by norm_num) hdiff hle
    have hsum := atLeast_sum_of_mem (.two_zpow (by norm_num)) (by positivity) hsquares
      (List.mem_map_of_mem hv) hsquare
    have hvariance := hsum.div (s := 2 ^ (2 * 0 : ℤ)) hcount (by linarith) hmax
      (.two_zpow (by norm_num)) (by positivity) (by norm_num)
    exact_mod_cast hvariance.sqrt (k := 0) (by norm_num)

/-! ## Divisors -/

theorem isFinite_one : (1.0 : Float).isFinite = true := by decide +kernel

theorem signedValue_one : signedValue 1.0 = 1 := by decide +kernel

theorem isFinite_div_deviation (hx : x.isFinite = true)
    (hd : (d == 0.0) = true ∨ AtLeast (2 ^ (-537 : ℤ)) d)
    (hgreat : 2 ^ (32 : ℤ) ≤ |signedValue x| → AtLeast 1 d) :
    (x / Table.divisor d).isFinite = true := by
  have hrange := abs_signedValue_lt hx
  unfold Table.divisor
  split
  · refine isFinite_div hx (.inr ⟨isFinite_one, signedValue_one.ge⟩) one_pos ?_
    rwa [div_one]
  · rename_i hne
    rcases le_or_gt (2 ^ (32 : ℤ)) |signedValue x| with hle | hless
    · refine isFinite_div hx (hgreat hle) one_pos ?_
      rwa [div_one]
    · refine isFinite_div hx (hd.resolve_left hne) (by positivity) ?_
      rw [div_lt_iff₀ (by positivity)]
      calc |signedValue x|
        _ < 2 ^ (32 : ℤ) := hless
        _ = 2 ^ (569 : ℤ) * 2 ^ (-537 : ℤ) := by rw [← zpow_add₀ (by norm_num)]; norm_num
        _ ≤ overflow * 2 ^ (-537 : ℤ) := by
          gcongr
          exact (two_zpow_lt_overflow (by norm_num)).le

theorem signedValue_ne_zero (h : ¬(x == 0.0) = true) : signedValue x ≠ 0 := by
  have hm := mantissa_pos_of_ne_zero h
  have hpos : 0 < (ofBits (magnitudeBits x)).value := by
    unfold value
    positivity
  rw [← abs_ne_zero, abs_signedValue]
  exact hpos.ne'

theorem divisor_cases {r : ℚ} (h : IsRounded r x) :
    (∃ s, Table.divisor x = infinity s) ∨
      (Table.divisor x).isFinite = true ∧ signedValue (Table.divisor x) ≠ 0 := by
  unfold Table.divisor
  split
  · right
    rw [signedValue_one]
    exact ⟨isFinite_one, one_ne_zero⟩
  · rename_i hne
    rcases lt_or_ge |r| overflow with hrange | hrange
    · exact .inr ⟨(h.finite hrange).1, signedValue_ne_zero hne⟩
    · exact .inl ⟨_, h.infinite hrange⟩

theorem isFinite_div_divisor_iff {r : ℚ} (hx : x.isFinite = true) (h : IsRounded r d) :
    (x / Table.divisor d).isFinite = true ↔
      ((Table.divisor d).isFinite = true →
        |signedValue x / signedValue (Table.divisor d)| < overflow) := by
  rcases divisor_cases h with ⟨s, hs⟩ | ⟨hd, hne⟩
  · rw [hs, isFinite_infinity]
    exact iff_of_true (isFinite_div_infinity hx s) fun h => absurd h Bool.false_ne_true
  · rw [(isRounded_div hx hd hne).isFinite_iff, imp_iff_right hd]

/-! ## Least and greatest values -/

section Extremes

variable (better : Float → Float → Prop) [∀ a b, Decidable (better a b)] (key : Float → ℚ)

theorem foldl_choice (hkey : ∀ a b, a.isFinite = true → b.isFinite = true →
      (better a b ↔ key a < key b))
    (hvalues : ∀ v ∈ values, v.isFinite = true) (hm : m.isFinite = true) :
    let best := values.foldl (fun m w => if better w m then w else m) m
    best ∈ m :: values ∧ ∀ w ∈ m :: values, key best ≤ key w := by
  induction values generalizing m with
  | nil => simp
  | cons v rest ih =>
    obtain ⟨hv, hrest⟩ := List.forall_mem_cons.mp hvalues
    have hbetter := hkey v m hv hm
    simp only [List.foldl_cons, List.forall_mem_cons]
    split
    · rename_i h
      obtain ⟨hmem, hle, hall⟩ := by simpa using ih hrest hv
      exact ⟨List.mem_cons_of_mem _ (by simpa using hmem),
        hle.trans (hbetter.mp h).le, hle, hall⟩
    · rename_i h
      obtain ⟨hmem, hle, hall⟩ := by simpa using ih hrest hm
      refine ⟨?_, hle, hle.trans (not_lt.mp (mt hbetter.mpr h)), hall⟩
      rcases hmem with hmem | hmem
      · rw [hmem]
        exact List.mem_cons_self
      · exact List.mem_cons_of_mem _ (List.mem_cons_of_mem _ hmem)

end Extremes

theorem exists_min? (hvalues : ∀ v ∈ present view, v.isFinite = true) (hv : v ∈ present view) :
    ∃ low, min? view = some low ∧ low ∈ present view ∧
      ∀ w ∈ present view, signedValue low ≤ signedValue w := by
  unfold min?
  split
  · rename_i hnil
    simp [hnil] at hv
  · rename_i first rest hcons
    rw [hcons] at hvalues ⊢
    obtain ⟨hfirst, hrest⟩ := List.forall_mem_cons.mp hvalues
    exact ⟨_, rfl,
      foldl_choice (· < ·) signedValue (fun _ _ ha hb => lt_iff ha hb) hrest hfirst⟩

theorem exists_max? (hvalues : ∀ v ∈ present view, v.isFinite = true) (hv : v ∈ present view) :
    ∃ high, max? view = some high ∧ high ∈ present view ∧
      ∀ w ∈ present view, signedValue w ≤ signedValue high := by
  unfold max?
  split
  · rename_i hnil
    simp [hnil] at hv
  · rename_i first rest hcons
    rw [hcons] at hvalues ⊢
    obtain ⟨hfirst, hrest⟩ := List.forall_mem_cons.mp hvalues
    have hbest := foldl_choice (fun w m => m < w) (fun v => -signedValue v)
      (fun a b ha hb => by rw [lt_iff hb ha, neg_lt_neg_iff]) hrest hfirst
    exact ⟨_, rfl, hbest.1, fun w hw => neg_le_neg_iff.mp (hbest.2 w hw)⟩

theorem least_le_sub {low high : Float} (hlow : low.isFinite = true) (hhigh : high.isFinite = true)
    (hless : signedValue low < signedValue high) :
    leastGap ≤ signedValue high - signedValue low := by
  obtain ⟨j, hj⟩ := exists_least_multiple hlow
  obtain ⟨k, hk⟩ := exists_least_multiple hhigh
  rw [hj, hk, mul_lt_mul_iff_left₀ leastGap_pos, Int.cast_lt] at hless
  rw [hj, hk, ← sub_mul]
  refine le_mul_of_one_le_left leastGap_pos.le ?_
  rw [← Int.cast_sub]
  exact_mod_cast (by omega : 1 ≤ k - j)

theorem isFinite_div_range {low high : Float} (hlow : low.isFinite = true)
    (hhigh : high.isFinite = true) (hx : x.isFinite = true) (hdiff : (x - low).isFinite = true)
    (hless : signedValue low < signedValue high) (hlx : signedValue low ≤ signedValue x)
    (hxh : signedValue x ≤ signedValue high) :
    ((x - low) / (high - low)).isFinite = true := by
  have hdist := (isRounded_sub hx hlow).nearest hdiff
  have hrange := isRounded_sub hhigh hlow
  have hnonneg : 0 ≤ signedValue (x - low) := hdist.nonneg (by linarith)
  have hpositive : AtLeast leastGap (high - low) :=
    hrange.atLeast (.two_zpow le_rfl) leastGap_pos.le (least_le_sub hlow hhigh hless)
  have hgreater : AtLeast (signedValue (x - low)) (high - low) := by
    rcases hpositive with hinfinite | ⟨hfinite, -⟩
    · exact .inl hinfinite
    · exact .inr ⟨hfinite, hdist.mono (hrange.nearest hfinite) (by linarith)⟩
  rcases hnonneg.eq_or_lt with hzero | hpos
  · refine isFinite_div hdiff hpositive leastGap_pos ?_
    rw [← hzero, abs_zero, zero_div]
    exact (abs_nonneg _).trans_lt (abs_signedValue_lt hlow)
  · refine isFinite_div hdiff hgreater hpos ?_
    rw [abs_of_pos hpos, div_self hpos.ne', ← zpow_zero (2 : ℚ)]
    exact two_zpow_lt_overflow (by norm_num)

end TableCleaner.Stats
