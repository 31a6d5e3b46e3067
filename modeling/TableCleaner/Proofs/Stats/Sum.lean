import TableCleaner.Proofs.Decimal.Range
import TableCleaner.Stats

/-!
# Sums

A sum is added up number by number, and each partial sum is rounded. So lower bounds go through from
one partial sum to the next, and numbers that are not among the greatest ones never add up to infinity. From
the sum the mean is finite too, and the standard deviation is not undefined.
-/

namespace TableCleaner.Stats

open Binary

variable {values : List Float} {acc v x : Float} {p : ℚ}

/-! ## Partial sums -/

theorem atLeast_foldl (hp : Representable p) (hnonneg : 0 ≤ p)
    (hvalues : ∀ v ∈ values, AtLeast 0 v) (hacc : AtLeast 0 acc)
    (hsome : AtLeast p acc ∨ ∃ v ∈ values, AtLeast p v) : AtLeast p (values.foldl (· + ·) acc) := by
  induction values generalizing acc with
  | nil => simpa using hsome
  | cons v rest ih =>
    obtain ⟨hv, hrest⟩ := List.forall_mem_cons.mp hvalues
    refine ih hrest (hacc.add hv .zero le_rfl (by norm_num)) ?_
    rcases hsome with h | ⟨w, hw, h⟩
    · exact .inl (h.add hv hp hnonneg (by norm_num))
    · rcases List.mem_cons.mp hw with rfl | hw
      · exact .inl (hacc.add h hp hnonneg (by norm_num))
      · exact .inr ⟨w, hw, h⟩

theorem isFinite_negZero : (-0.0 : Float).isFinite = true := by decide +kernel

theorem signedValue_negZero : signedValue (-0.0) = 0 := signedValue_of_zero (by decide +kernel)

theorem atLeast_negZero : AtLeast 0 (-0.0) := .inr ⟨isFinite_negZero, signedValue_negZero.ge⟩

theorem atLeast_sum (hvalues : ∀ v ∈ values, AtLeast 0 v) : AtLeast 0 (sum values) :=
  atLeast_foldl .zero le_rfl hvalues atLeast_negZero (.inl atLeast_negZero)

theorem atLeast_sum_of_mem (hp : Representable p) (hnonneg : 0 ≤ p)
    (hvalues : ∀ v ∈ values, AtLeast 0 v) (hmem : v ∈ values) (hv : AtLeast p v) :
    AtLeast p (sum values) :=
  atLeast_foldl hp hnonneg hvalues atLeast_negZero (.inr ⟨v, hmem, hv⟩)

/-! ## Numbers that are not among the greatest -/

/-- The number is finite and below `2 ^ 970`. -/
def Moderate (x : Float) : Prop := x.isFinite = true ∧ |signedValue x| < 2 ^ (970 : ℤ)

theorem Moderate.abs_lt (h : Moderate x) : |signedValue x| < topGap / 2 := by
  have hhalf : (2 : ℚ) ^ (970 : ℤ) = topGap / 2 := by
    rw [topGap, show (971 : ℤ) = 970 + 1 by norm_num, zpow_add_one₀ (by norm_num)]
    ring
  exact hhalf ▸ h.2

theorem Moderate.le (h : Moderate x) : |signedValue x| ≤ 2 ^ 52 * topGap := by
  linarith [h.abs_lt, topGap_pos]

theorem Moderate.isFinite_sub (hx : Moderate x) (hv : v.isFinite = true)
    (hle : |signedValue v| ≤ 2 ^ 52 * topGap) : (x - v).isFinite = true := by
  rw [(isRounded_sub hx.1 hv).isFinite_iff, overflow]
  have htriangle := abs_sub (signedValue x) (signedValue v)
  linarith [hx.abs_lt, topGap_pos]

/-- A partial sum stops at the greatest power of two: from there the next number is rounded away. -/
theorem foldl_le (hvalues : ∀ v ∈ values, Moderate v) (hacc : acc.isFinite = true)
    (hle : |signedValue acc| ≤ 2 ^ 52 * topGap) :
    (values.foldl (· + ·) acc).isFinite = true ∧
      |signedValue (values.foldl (· + ·) acc)| ≤ 2 ^ 52 * topGap := by
  induction values generalizing acc with
  | nil => exact ⟨hacc, hle⟩
  | cons v rest ih =>
    obtain ⟨hv, hrest⟩ := List.forall_mem_cons.mp hvalues
    have hless := hv.abs_lt
    have hround := isRounded_add hacc hv.1
    have hexact : |signedValue acc + signedValue v| < (2 ^ 52 + 1 / 2) * topGap := by
      have htriangle := abs_add_le (signedValue acc) (signedValue v)
      linarith
    have hfinite : (acc + v).isFinite = true := by
      rw [hround.isFinite_iff, overflow]
      linarith [topGap_pos]
    exact ih hrest hfinite ((hround.nearest hfinite).abs_le_of_lt hexact)

theorem sum_le (hvalues : ∀ v ∈ values, Moderate v) :
    (sum values).isFinite = true ∧ |signedValue (sum values)| ≤ 2 ^ 52 * topGap := by
  refine foldl_le hvalues isFinite_negZero ?_
  rw [signedValue_negZero, abs_zero]
  exact mul_nonneg (by norm_num) topGap_pos.le

/-! ## Means -/

theorem isRounded_count {n : Nat} (hlt : n < 2 ^ 64) : IsRounded n n.toUInt64.toFloat := by
  have hround := isRounded_toFloat n.toUInt64
  rwa [show n.toUInt64.toNat = n from UInt64.toNat_ofNat_of_lt' hlt] at hround

theorem count_bounds {n : Nat} (hpos : 0 < n) (hlt : n < 2 ^ 64) :
    n.toUInt64.toFloat.isFinite = true ∧ 1 ≤ signedValue n.toUInt64.toFloat ∧
      signedValue n.toUInt64.toFloat ≤ 2 ^ 64 := by
  have hround := isRounded_count hlt
  have hone : (1 : ℚ) ≤ n := by exact_mod_cast hpos
  have hmax : (n : ℚ) ≤ 2 ^ 64 := by exact_mod_cast hlt.le
  have hfinite : n.toUInt64.toFloat.isFinite = true :=
    hround.isFinite_of_abs_le (by rwa [abs_of_pos (by linarith)])
  have hnear := hround.nearest hfinite
  refine ⟨hfinite, hnear.ge_of_ge ?_ hone, ?_⟩
  · exact_mod_cast Representable.intCast (m := 1) (by norm_num)
  · exact_mod_cast hnear.le_of_le (.two_zpow (e := 64) (by norm_num)) (by exact_mod_cast hmax)

theorem average_le (hsum : (sum values).isFinite = true) (hpos : 0 < values.length)
    (hlt : values.length < 2 ^ 64) :
    (average values).isFinite = true ∧
      |signedValue (average values)| ≤ |signedValue (sum values)| := by
  obtain ⟨hcount, hone, -⟩ := count_bounds hpos hlt
  have hround := isRounded_div hsum hcount (by linarith)
  refine hround.abs_le (representable_signedValue hsum).abs (abs_signedValue_lt hsum) ?_
  rw [abs_div]
  exact div_le_self (abs_nonneg _) (hone.trans (le_abs_self _))

end TableCleaner.Stats
