import TableCleaner.Proofs.Stats.Sum

/-!
# Quantiles

The quartiles and the median lie on the line between two sorted numbers, at a whole number of quarters
of the way. So rounding does not carry them past the second of the two, and they are finite when the
difference of the two is.
-/

namespace TableCleaner.Stats

open Binary

variable {view : List (Option Float)} {q : Float}

/-! ## Quarters -/

/-- The quarters that lie between 0 and 1. -/
inductive Quarter : Float → ℕ → Prop
  | one : Quarter 0.25 1
  | two : Quarter 0.5 2
  | three : Quarter 0.75 3

theorem Quarter.isFinite {j : ℕ} (h : Quarter q j) : q.isFinite = true := by
  cases h <;> decide +kernel

theorem Quarter.signedValue {j : ℕ} (h : Quarter q j) : signedValue q = j / 4 := by
  cases h <;> decide +kernel

theorem Quarter.rank {j : ℕ} (h : Quarter q j) (n : Nat) :
    rank n q = (n - 1).toUInt64.toFloat * q := by
  have hlow : ¬ q < 0.0 := by cases h <;> decide +kernel
  have hhigh : ¬ q > 1.0 := by cases h <;> decide +kernel
  simp only [Stats.rank, if_neg hlow, if_neg hhigh]

/-! ## Places -/

/-- Cutting off keeps a number representable: one that is not an integer is below `2 ^ 53`. -/
theorem representable_floor {r : ℚ} (hr : Representable r) (hnonneg : 0 ≤ r) :
    Representable ⌊r⌋₊ := by
  have hfloor : ((⌊r⌋₊ : ℕ) : ℚ) = ((⌊r⌋₊ : ℤ) : ℚ) := by rw [Int.cast_natCast]
  obtain ⟨m, e, hm, he, hv⟩ := hr
  rcases le_or_gt 0 e with hint | hfraction
  · have hr' : r = (m * 2 ^ e.toNat : ℤ) := by
      rw [hv, Int.cast_mul, Int.cast_pow, Int.cast_ofNat, ← zpow_natCast, Int.toNat_of_nonneg hint]
    have hnat : (0 : ℤ) ≤ m * 2 ^ e.toNat := by
      rw [hr'] at hnonneg
      exact_mod_cast hnonneg
    obtain ⟨n, hn⟩ := Int.eq_ofNat_of_zero_le hnat
    rw [hn, Int.cast_natCast] at hr'
    rw [hr', Nat.floor_natCast, ← hr', hv]
    exact ⟨m, e, hm, he, rfl⟩
  · have hbound : r ≤ 2 ^ 53 := by
      have hm' : (m : ℚ) ≤ 2 ^ 53 := by exact_mod_cast (abs_le.mp hm).2
      have hpow : (2 : ℚ) ^ e ≤ 1 := zpow_le_one_of_nonpos₀ (by norm_num) hfraction.le
      rw [hv]
      calc (m : ℚ) * 2 ^ e
        _ ≤ 2 ^ 53 * 2 ^ e := by gcongr
        _ ≤ 2 ^ 53 := mul_le_of_le_one_right (by norm_num) hpow
    rw [hfloor]
    apply Representable.intCast
    have : ⌊r⌋₊ ≤ 2 ^ 53 := Nat.floor_le_of_le (by exact_mod_cast hbound)
    rw [abs_of_nonneg (by omega)]
    exact_mod_cast this

theorem le_of_nearest {r v : ℚ} (h : Nearest r v) (hr : 1 / 4 ≤ r) : v ≤ 9 / 8 * r := by
  have hquarter : (2 : ℚ) ^ (-2 : ℤ) = 1 / 4 := by norm_num
  have hsmall : 2 ^ 52 * leastGap ≤ 1 / 4 := by
    rw [leastGap, ← two_zpow_fiftyTwo_add, ← hquarter]
    exact zpow_le_zpow_right₀ (by norm_num) (by norm_num)
  have hbound := h.le_max
  rw [abs_of_pos (by linarith : 0 < r), max_eq_left (hsmall.trans (by linarith))] at hbound
  exact (le_abs_self v).trans hbound

theorem exists_count_eq {n : ℕ} (hpos : 0 < n) (hlt : n < 2 ^ 64) :
    ∃ i : ℤ, signedValue n.toUInt64.toFloat = i ∧ signedValue n.toUInt64.toFloat ≤ 9 / 8 * n := by
  have hnear := (isRounded_count hlt).nearest (count_bounds hpos hlt).1
  have hn : (1 : ℚ) ≤ n := by exact_mod_cast hpos
  obtain ⟨i, hi⟩ : ∃ i : ℤ, signedValue n.toUInt64.toFloat = i * 2 ^ (0 : ℤ) :=
    Nearest.exists_multiple (j := n) (by simpa using hnear) (by norm_num)
  exact ⟨i, by simpa using hi, le_of_nearest hnear (by linarith)⟩

theorem exists_quarters {k : ℤ} {v : ℚ} (h : Nearest (k / 4) v) (hk : 0 ≤ k) :
    ∃ j : ℕ, v = j / 4 := by
  have hquarter : ∀ i : ℤ, (i : ℚ) / 4 = i * 2 ^ (-2 : ℤ) := fun i => by norm_num; ring
  have hv := h.nonneg (by positivity)
  rw [hquarter] at h
  obtain ⟨i, rfl⟩ := h.exists_multiple (by norm_num)
  rw [← hquarter] at hv ⊢
  obtain ⟨j, rfl⟩ := Int.eq_ofNat_of_zero_le (by exact_mod_cast (by linarith : (0 : ℚ) ≤ i) : 0 ≤ i)
  exact ⟨j, by rw [Int.cast_natCast]⟩

theorem exists_rank_eq {j n : ℕ} (h : Quarter q j) (hmany : 2 ≤ n) (hlt : n < 2 ^ 64) :
    (rank n q).isFinite = true ∧
      ∃ k : ℕ, signedValue (rank n q) = k / 4 ∧ (k : ℚ) / 4 ≤ (n - 1 : ℕ) ∧
        (k : ℚ) / 4 < 2 ^ 64 := by
  obtain ⟨hcount, hone, hmax⟩ := count_bounds (n := n - 1) (by omega) (by omega)
  obtain ⟨i, hi, hle⟩ := exists_count_eq (n := n - 1) (by omega) (by omega)
  have hj : (1 : ℚ) ≤ j ∧ (j : ℚ) ≤ 3 := by cases h <;> norm_num
  rw [h.rank]
  generalize (n - 1).toUInt64.toFloat = count at *
  have hround := isRounded_mul hcount h.isFinite
  rw [h.signedValue] at hround
  have hlow : 1 / 4 ≤ signedValue count * (j / 4) := by nlinarith
  have hhigh : signedValue count * (j / 4) ≤ 3 / 4 * signedValue count := by nlinarith
  have hfinite : (count * q).isFinite = true :=
    hround.isFinite_of_abs_le (by rw [abs_of_pos (by linarith)]; linarith)
  have hplace := hround.nearest hfinite
  have hlast := le_of_nearest hplace hlow
  have hquarters : signedValue count * (j / 4) = (i * j : ℤ) / 4 := by
    rw [hi]
    push_cast
    ring
  have hi' : (0 : ℚ) ≤ i := by linarith
  rw [hquarters] at hplace
  obtain ⟨k, hk⟩ := exists_quarters hplace (Int.mul_nonneg (by exact_mod_cast hi') (by positivity))
  have hbelow : (k : ℚ) / 4 ≤ (n - 1 : ℕ) := by linarith
  have hmax' : ((n - 1 : ℕ) : ℚ) < 2 ^ 64 := by exact_mod_cast (by omega : n - 1 < 2 ^ 64)
  exact ⟨hfinite, k, hk, hbelow, hbelow.trans_lt hmax'⟩

section Place

variable {place : Float} {k : ℕ}

theorem toNat_place (hplace : place.isFinite = true) (hk : signedValue place = k / 4)
    (hlt : (k : ℚ) / 4 < 2 ^ 64) : place.toUInt64.toNat = k / 4 := by
  rw [toNat_toUInt64 hplace (by rw [hk]; positivity) (by rwa [hk]), hk]
  exact_mod_cast Nat.floor_div_eq_div (K := ℚ) k 4

theorem toFloat_place (hplace : place.isFinite = true) (hk : signedValue place = k / 4)
    (hlt : (k : ℚ) / 4 < 2 ^ 64) :
    place.toUInt64.toFloat.isFinite = true ∧ signedValue place.toUInt64.toFloat = (k / 4 : ℕ) := by
  have hround := isRounded_toFloat place.toUInt64
  rw [toNat_place hplace hk hlt] at hround
  have hfloor : ⌊(k : ℚ) / 4⌋₊ = k / 4 := by exact_mod_cast Nat.floor_div_eq_div (K := ℚ) k 4
  have hrep := representable_floor (representable_signedValue hplace) (by rw [hk]; positivity)
  rw [hk, hfloor] at hrep
  have hle : ((k / 4 : ℕ) : ℚ) ≤ k / 4 := Nat.cast_div_le
  have hfinite : place.toUInt64.toFloat.isFinite = true :=
    hround.isFinite_of_abs_le (by rw [abs_of_nonneg (by positivity)]; linarith)
  exact ⟨hfinite, (hround.nearest hfinite).eq hrep⟩

theorem fraction_place (hplace : place.isFinite = true) (hk : signedValue place = k / 4)
    (hlt : (k : ℚ) / 4 < 2 ^ 64) :
    (place - place.toUInt64.toFloat).isFinite = true ∧
      signedValue (place - place.toUInt64.toFloat) = (k % 4 : ℕ) / 4 := by
  obtain ⟨hbelow, hv⟩ := toFloat_place hplace hk hlt
  have hround := isRounded_sub hplace hbelow
  have hdiv : (k : ℚ) = 4 * (k / 4 : ℕ) + (k % 4 : ℕ) := by
    exact_mod_cast (Nat.div_add_mod k 4).symm
  have hexact : signedValue place - signedValue place.toUInt64.toFloat = (k % 4 : ℕ) / 4 := by
    rw [hk, hv]
    linarith
  rw [hexact] at hround
  have hless := Nat.mod_lt k (by norm_num : 4 > 0)
  generalize k % 4 = b at *
  have hless' : (b : ℚ) < 4 := by exact_mod_cast hless
  have hrep : Representable (b / 4) := by
    refine ⟨b, -2, ?_, by norm_num, ?_⟩
    · rw [abs_of_nonneg (by omega)]
      omega
    · norm_num
      ring
  have hfinite : (place - place.toUInt64.toFloat).isFinite = true :=
    hround.isFinite_of_abs_le (by rw [abs_of_nonneg (by positivity)]; linarith)
  exact ⟨hfinite, (hround.nearest hfinite).eq hrep⟩

end Place

/-! ## The line between two numbers -/

theorem part_le {r f d p : ℚ} {k : ℤ} (hr : r = k * leastGap) (hnonneg : 0 ≤ r)
    (hd : Nearest r d) (hf : 0 ≤ f) (hf' : f ≤ 3 / 4) (hp : Nearest (d * f) p) :
    0 ≤ p ∧ p ≤ r := by
  have hd₀ := hd.nonneg hnonneg
  refine ⟨hp.nonneg (by positivity), ?_⟩
  rcases le_or_gt (2 ^ 52 * leastGap) r with hlead | hsmall
  · have hdr : d ≤ 9 / 8 * r := by
      have hbound := hd.le_max
      rw [abs_of_nonneg hnonneg, abs_of_nonneg hd₀] at hbound
      exact hbound.trans (max_le le_rfl (hlead.trans (by linarith)))
    have hpart : |d * f| ≤ 27 / 32 * r := by
      rw [abs_of_nonneg (by positivity)]
      nlinarith
    refine (le_abs_self p).trans (hp.le_max.trans (max_le ?_ hlead))
    linarith
  · -- Below the least number with a leading bit differences are exact.
    have hrep : Representable r := by
      rw [hr]
      apply representable_of_abs_le le_rfl
      change |(k : ℚ) * leastGap| ≤ 2 ^ 53 * leastGap
      rw [← hr, abs_of_nonneg hnonneg]
      linarith [leastGap_pos]
    rw [hd.eq hrep] at hp
    exact hp.le_of_le hrep (by nlinarith)

theorem abs_add_part_le {a b f d p : ℚ} {k : ℤ} (hk : b - a = k * leastGap)
    (hd : Nearest (b - a) d) (hf : 0 ≤ f) (hf' : f ≤ 3 / 4) (hp : Nearest (d * f) p) :
    |a + p| ≤ max |a| |b| := by
  rcases le_total a b with hab | hab
  · obtain ⟨hlow, hhigh⟩ := part_le hk (by linarith) hd hf hf' hp
    exact abs_le_max_abs_abs (by linarith) (by linarith)
  · obtain ⟨hlow, hhigh⟩ := part_le (r := -(b - a)) (d := -d) (p := -p) (k := -k)
      (by rw [hk]; push_cast; ring) (by linarith) hd.neg hf hf' (by rw [neg_mul]; exact hp.neg)
    rw [max_comm]
    exact abs_le_max_abs_abs (by linarith) (by linarith)

theorem isFinite_between {low high fraction : Float} (hlow : low.isFinite = true)
    (hhigh : high.isFinite = true) (hdiff : (high - low).isFinite = true)
    (hfraction : fraction.isFinite = true) (hf : 0 ≤ signedValue fraction)
    (hf' : signedValue fraction ≤ 3 / 4) :
    (low + (high - low) * fraction).isFinite = true ∧
      |signedValue (low + (high - low) * fraction)| ≤ max |signedValue low| |signedValue high| := by
  have hd := (isRounded_sub hhigh hlow).nearest hdiff
  have hproduct := isRounded_mul hdiff hfraction
  have hpart : (((high - low) * fraction)).isFinite = true := by
    rw [hproduct.isFinite_iff, abs_mul, abs_of_nonneg hf]
    refine lt_of_le_of_lt ?_ (abs_signedValue_lt hdiff)
    exact mul_le_of_le_one_right (abs_nonneg _) (by linarith)
  obtain ⟨i, hi⟩ := exists_least_multiple hlow
  obtain ⟨k, hk⟩ := exists_least_multiple hhigh
  have hle := abs_add_part_le (k := k - i) (by rw [hi, hk]; push_cast; ring) hd hf hf'
    (hproduct.nearest hpart)
  have hsum := isRounded_add hlow hpart
  rcases max_choice |signedValue low| |signedValue high| with hmax | hmax
  · rw [hmax] at hle ⊢
    exact hsum.abs_le (representable_signedValue hlow).abs (abs_signedValue_lt hlow) hle
  · rw [hmax] at hle ⊢
    exact hsum.abs_le (representable_signedValue hhigh).abs (abs_signedValue_lt hhigh) hle

/-! ## The numbers around a place -/

/-- The two sorted numbers that a quantile lies between. -/
def neighbours? (view : List (Option Float)) (q : Float) : Option (Float × Float) := do
  let values := (present view).mergeSort fun a b => decide (a ≤ b)
  let place := rank values.length q
  let lower := place.toUInt64.toNat
  let low ← values[lower]?
  let high ← values[if place.toUInt64.toFloat < place then lower + 1 else lower]?
  return (low, high)

/-- The part of the way from the first of them to the second. -/
def fraction (view : List (Option Float)) (q : Float) : Float :=
  rank (present view).length q - (rank (present view).length q).toUInt64.toFloat

theorem quantile?_eq (view : List (Option Float)) (q : Float) :
    quantile? view q = (neighbours? view q).map fun (low, high) =>
      low + (high - low) * fraction view q := by
  unfold quantile? neighbours? fraction
  simp only [List.length_mergeSort, Option.bind_eq_bind, Option.map_bind, Function.comp_def]
  rfl

theorem exists_neighbours? {j : ℕ} (h : Quarter q j) (hmany : 2 ≤ (present view).length)
    (hlt : (present view).length < 2 ^ 64) :
    ∃ low high, neighbours? view q = some (low, high) ∧ low ∈ present view ∧
      high ∈ present view := by
  obtain ⟨hplace, k, hk, hle, hbelow⟩ := exists_rank_eq h hmany hlt
  obtain ⟨hfinite, hv⟩ := toFloat_place hplace hk hbelow
  have hlower : k / 4 < (present view).length := by
    have : k / 4 ≤ (present view).length - 1 := by
      exact_mod_cast (Nat.cast_div_le (α := ℚ)).trans hle
    omega
  have hupper : (if (rank (present view).length q).toUInt64.toFloat < rank (present view).length q
      then k / 4 + 1 else k / 4) < (present view).length := by
    split
    · rename_i hpart
      rw [lt_iff hfinite hplace, hv, hk] at hpart
      have : k / 4 < (present view).length - 1 := by exact_mod_cast hpart.trans_le hle
      omega
    · exact hlower
  unfold neighbours?
  simp only [List.length_mergeSort, toNat_place hplace hk hbelow, Option.bind_eq_bind]
  rw [List.getElem?_eq_getElem (by rwa [List.length_mergeSort]),
    List.getElem?_eq_getElem (by rwa [List.length_mergeSort])]
  exact ⟨_, _, rfl, List.mem_mergeSort.mp (List.getElem_mem _),
    List.mem_mergeSort.mp (List.getElem_mem _)⟩

/-- The difference of the two numbers around a quantile is finite. -/
def Near (view : List (Option Float)) (q : Float) : Prop :=
  ∃ low high, neighbours? view q = some (low, high) ∧ (high - low).isFinite = true

theorem Near.exists_quantile? {j : ℕ} (hnear : Near view q) (h : Quarter q j)
    (hmany : 2 ≤ (present view).length) (hlt : (present view).length < 2 ^ 64)
    (hvalues : ∀ v ∈ present view, v.isFinite = true) :
    ∃ y, quantile? view q = some y ∧ y.isFinite = true ∧
      ∃ v ∈ present view, |signedValue y| ≤ |signedValue v| := by
  obtain ⟨low, high, hneighbours, hlow, hhigh⟩ := exists_neighbours? h hmany hlt
  obtain ⟨low', high', hneighbours', hdiff⟩ := hnear
  obtain ⟨rfl, rfl⟩ := Prod.mk.inj (Option.some.inj (hneighbours'.symm.trans hneighbours))
  obtain ⟨hplace, k, hk, -, hbelow⟩ := exists_rank_eq h hmany hlt
  obtain ⟨hfraction, hf⟩ := fraction_place hplace hk hbelow
  have hquarters : ((k % 4 : ℕ) : ℚ) ≤ 3 := by
    exact_mod_cast Nat.lt_succ_iff.mp (Nat.mod_lt k (by norm_num))
  obtain ⟨hfinite, hle⟩ := isFinite_between (hvalues _ hlow) (hvalues _ hhigh) hdiff hfraction
    (by rw [hf]; positivity) (by rw [hf]; linarith)
  rw [quantile?_eq, hneighbours]
  refine ⟨_, rfl, hfinite, ?_⟩
  rcases le_max_iff.mp hle with hle | hle
  · exact ⟨_, hlow, hle⟩
  · exact ⟨_, hhigh, hle⟩

theorem near_of_moderate {j : ℕ} (h : Quarter q j) (hmany : 2 ≤ (present view).length)
    (hlt : (present view).length < 2 ^ 64) (hvalues : ∀ v ∈ present view, Moderate v) :
    Near view q := by
  obtain ⟨low, high, hneighbours, hlow, hhigh⟩ := exists_neighbours? h hmany hlt
  refine ⟨low, high, hneighbours, ?_⟩
  exact (hvalues high hhigh).isFinite_sub (hvalues low hlow).1 (hvalues low hlow).le

end TableCleaner.Stats
