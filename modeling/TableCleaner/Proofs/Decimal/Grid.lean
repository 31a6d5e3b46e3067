import TableCleaner.Proofs.Decimal.Nearest

/-!
# Grids

What the search for a short decimal finds. On the grid of a power of ten a neighbour of the number
reads back if any multiple does, and above the number nothing reads back at all. So the search finds
the shortest decimal of every number that has an integer near enough to read back.
-/

namespace TableCleaner

namespace Binary

variable {x : Binary} {a b d : Decimal}

/-! ## The interval of a number -/

theorem readsBack_of_between (hm : 0 < x.mantissa) (ha : x.readsBack a = true)
    (hb : x.readsBack b = true) (hlow : a.value ≤ d.value) (hhigh : d.value ≤ b.value) :
    x.readsBack d = true := by
  rw [readsBack_iff hm] at ha hb ⊢
  constructor
  · rcases ha.1 with h | ⟨heven, h⟩
    · exact .inl (h.trans_le hlow)
    · rcases hlow.lt_or_eq with hlt | heq
      · exact .inl (h ▸ hlt)
      · exact .inr ⟨heven, heq ▸ h⟩
  · rcases hb.2 with h | ⟨heven, h⟩
    · exact .inl (hhigh.trans_lt h)
    · rcases hhigh.lt_or_eq with hlt | heq
      · exact .inl (h ▸ hlt)
      · exact .inr ⟨heven, heq ▸ h⟩

theorem value_bounds_of_readsBack (hm : 0 < x.mantissa) (h : x.readsBack d = true) :
    (2 : ℚ) ^ ((x.mantissa.log2 : Int) + x.scale - 1) ≤ d.value ∧
      d.value < 2 ^ ((x.mantissa.log2 : Int) + x.scale + 1) := by
  obtain ⟨hround, -⟩ := roundsTo_of_readsBack hm h
  have hscale : (0 : ℚ) < 2 ^ x.scale := by positivity
  have hlow := (le_div_iff₀ hscale).mp hround.low
  have hhigh := (div_le_iff₀ hscale).mp hround.high
  have hfirst : (2 : ℚ) ^ x.mantissa.log2 ≤ x.mantissa := by
    exact_mod_cast Nat.log2_self_le hm.ne'
  have hlast : (x.mantissa : ℚ) + 1 ≤ 2 ^ (x.mantissa.log2 + 1) := by
    exact_mod_cast Nat.lt_log2_self
  have hone : (1 : ℚ) ≤ x.mantissa := by exact_mod_cast hm
  constructor
  · calc (2 : ℚ) ^ ((x.mantissa.log2 : Int) + x.scale - 1)
      _ = 2 ^ x.mantissa.log2 / 2 * 2 ^ x.scale := by
        rw [zpow_sub_one₀ (by norm_num), zpow_add₀ (by norm_num), zpow_natCast]
        ring
      _ ≤ (x.mantissa - 1 / 2) * 2 ^ x.scale := by
        gcongr
        linarith
      _ ≤ d.value := hlow
  · calc d.value
      _ ≤ (x.mantissa + 1 / 2) * 2 ^ x.scale := hhigh
      _ < 2 ^ (x.mantissa.log2 + 1) * 2 ^ x.scale := by
        gcongr
        linarith
      _ = 2 ^ ((x.mantissa.log2 : Int) + x.scale + 1) := by
        rw [← zpow_natCast, ← zpow_add₀ (by norm_num)]
        congr 1
        push_cast
        ring

theorem value_pos_of_readsBack (hm : 0 < x.mantissa) (h : x.readsBack d = true) : 0 < d.value :=
  lt_of_lt_of_le (by positivity) (value_bounds_of_readsBack hm h).1

end Binary

namespace Decimal

open Binary

theorem readsBack_of_value_eq {x : Binary} {d : Decimal} (hm : 0 < x.mantissa)
    (h : d.value = x.value) : x.readsBack d = true := by
  rw [readsBack_congr (h.trans (value_exact x).symm)]
  exact readsBack_exact hm

/-! ## Neighbours -/

/-- Of the decimals on its grid that read back, it is the nearest to the number, and of two as near
the greater one. -/
def IsNearest (x : Binary) (d : Decimal) : Prop :=
  ∀ k : Nat, x.readsBack ⟨k, d.exponent⟩ = true →
    |d.value - x.value| ≤ |(⟨k, d.exponent⟩ : Decimal).value - x.value| ∧
      (|d.value - x.value| = |(⟨k, d.exponent⟩ : Decimal).value - x.value| → k ≤ d.digits)

/-- It reads back as the number and nothing on a coarser grid does, and it is the nearest one. -/
structure IsShortest (x : Binary) (d : Decimal) : Prop where
  readsBack : x.readsBack d = true
  coarsest : ∀ (e : Int) (k : Nat), d.exponent < e → x.readsBack ⟨k, e⟩ = false
  nearest : IsNearest x d

variable {x : Binary} {d d' : Decimal} {e : Int} {j k n : Nat}

theorem IsShortest.eq (h : IsShortest x d) (h' : IsShortest x d') : d = d' := by
  obtain ⟨n, e⟩ := d
  obtain ⟨n', e'⟩ := d'
  have hexp : e = e' := by
    rcases lt_trichotomy e e' with hlt | heq | hlt
    · exact absurd h'.readsBack (Bool.eq_false_iff.mp (h.coarsest e' n' hlt))
    · exact heq
    · exact absurd h.readsBack (Bool.eq_false_iff.mp (h'.coarsest e n hlt))
  subst hexp
  obtain ⟨hdist, hgreater⟩ := h.nearest n' h'.readsBack
  obtain ⟨hdist', hgreater'⟩ := h'.nearest n h.readsBack
  have hsame := le_antisymm hdist hdist'
  rw [le_antisymm (hgreater' hsame.symm) (hgreater hsame)]

theorem value_whole (n : Nat) : (⟨n, 0⟩ : Decimal).value = n := by
  simp [value]

theorem value_mono (h : j ≤ k) : (⟨j, e⟩ : Decimal).value ≤ (⟨k, e⟩ : Decimal).value := by
  unfold value
  gcongr

theorem value_lt_value_iff : (⟨j, e⟩ : Decimal).value < (⟨k, e⟩ : Decimal).value ↔ j < k := by
  have hpow : (0 : ℚ) < 10 ^ e := by positivity
  rw [value, value, mul_lt_mul_iff_left₀ hpow, Nat.cast_lt]

theorem gridFloor_eq_floor (x : Binary) (e : Int) : gridFloor x e = ⌊x.value / 10 ^ e⌋₊ := by
  have hten := zpow_mul_toNat (show (10 : ℚ) ≠ 0 by norm_num) e
  have htwo := zpow_mul_toNat (show (2 : ℚ) ≠ 0 by norm_num) x.scale
  unfold gridFloor
  simp only [Nat.pow_eq]
  rw [← Nat.floor_div_eq_div (K := ℚ), Binary.value]
  congr 1
  push_cast
  rw [← htwo, ← hten, div_eq_div_iff (by positivity) (by positivity)]
  ring

theorem gridFloor_bounds (x : Binary) (e : Int) :
    (⟨gridFloor x e, e⟩ : Decimal).value ≤ x.value ∧
      x.value < (⟨gridFloor x e + 1, e⟩ : Decimal).value := by
  have hpow : (0 : ℚ) < 10 ^ e := by positivity
  have hvalue : 0 ≤ x.value := by
    unfold Binary.value
    positivity
  rw [value, value, gridFloor_eq_floor, ← le_div_iff₀ hpow, ← div_lt_iff₀ hpow]
  push_cast
  exact ⟨Nat.floor_le (by positivity), Nat.lt_floor_add_one _⟩

section OnGrid

variable (hm : 0 < x.mantissa) (hk : x.readsBack ⟨k, e⟩ = true)

include hm hk

theorem readsBack_gridFloor (h : k ≤ gridFloor x e) : x.readsBack ⟨gridFloor x e, e⟩ = true := by
  refine readsBack_of_between hm hk (readsBack_exact hm) (value_mono h) ?_
  rw [value_exact]
  exact (gridFloor_bounds x e).1

theorem readsBack_gridFloor_succ (h : gridFloor x e < k) :
    x.readsBack ⟨gridFloor x e + 1, e⟩ = true := by
  refine readsBack_of_between hm (readsBack_exact hm) hk ?_ (value_mono h)
  rw [value_exact]
  exact (gridFloor_bounds x e).2.le

theorem onGrid?_isSome (tie : Tie) : (onGrid? tie x e).isSome = true := by
  have hone : x.readsBack ⟨gridFloor x e, e⟩ = true ∨ x.readsBack ⟨gridFloor x e + 1, e⟩ = true := by
    rcases Nat.lt_or_ge (gridFloor x e) k with h | h
    · exact .inr (readsBack_gridFloor_succ hm hk h)
    · exact .inl (readsBack_gridFloor hm hk h)
  unfold onGrid?
  extract_lets f low high
  change x.readsBack low = true ∨ x.readsBack high = true at hone
  split
  · simp_all
  · rfl
  · rfl
  · split <;> rfl

end OnGrid

theorem dist_of_le (h : k ≤ gridFloor x e) :
    |(⟨gridFloor x e, e⟩ : Decimal).value - x.value| ≤ |(⟨k, e⟩ : Decimal).value - x.value| := by
  have hmono := value_mono (e := e) h
  have hfloor := (gridFloor_bounds x e).1
  rw [abs_of_nonpos (by linarith), abs_of_nonpos (by linarith)]
  linarith

theorem dist_of_gt (h : gridFloor x e + 1 < k) :
    |(⟨gridFloor x e + 1, e⟩ : Decimal).value - x.value| < |(⟨k, e⟩ : Decimal).value - x.value| := by
  have hmono := value_lt_value_iff (e := e) |>.mpr h
  have hfloor := (gridFloor_bounds x e).2
  rw [abs_of_pos (by linarith), abs_of_pos (by linarith)]
  linarith

theorem isNearest_gridFloor (hm : 0 < x.mantissa)
    (h : x.readsBack ⟨gridFloor x e + 1, e⟩ = true →
      |(⟨gridFloor x e, e⟩ : Decimal).value - x.value| <
        |(⟨gridFloor x e + 1, e⟩ : Decimal).value - x.value|) :
    IsNearest x ⟨gridFloor x e, e⟩ := by
  intro k hk
  change x.readsBack ⟨k, e⟩ = true at hk
  rcases Nat.lt_or_ge (gridFloor x e) k with hlt | hle
  · have hnear := h (readsBack_gridFloor_succ hm hk hlt)
    have hfar : |(⟨gridFloor x e, e⟩ : Decimal).value - x.value| <
        |(⟨k, e⟩ : Decimal).value - x.value| := by
      rcases Nat.lt_or_eq_of_le hlt with hlt | rfl
      · exact hnear.trans (dist_of_gt hlt)
      · exact hnear
    exact ⟨hfar.le, fun heq => absurd heq hfar.ne⟩
  · exact ⟨dist_of_le hle, fun _ => hle⟩

theorem isNearest_gridFloor_succ (hm : 0 < x.mantissa)
    (h : x.readsBack ⟨gridFloor x e, e⟩ = true →
      |(⟨gridFloor x e + 1, e⟩ : Decimal).value - x.value| ≤
        |(⟨gridFloor x e, e⟩ : Decimal).value - x.value|) :
    IsNearest x ⟨gridFloor x e + 1, e⟩ := by
  intro k hk
  change x.readsBack ⟨k, e⟩ = true at hk
  rcases Nat.lt_or_ge (gridFloor x e + 1) k with hlt | hle
  · have hfar := dist_of_gt hlt
    exact ⟨hfar.le, fun heq => absurd heq hfar.ne⟩
  · refine ⟨?_, fun _ => hle⟩
    rcases Nat.lt_or_eq_of_le hle with hlt | rfl
    · have hfloor : k ≤ gridFloor x e := Nat.lt_succ_iff.mp hlt
      exact (h (readsBack_gridFloor hm hk hfloor)).trans (dist_of_le hfloor)
    · exact le_rfl

theorem dist_cmp (x : Binary) (e : Int) :
    compareScaled (2 * gridFloor x e + 1) e (2 * x.mantissa) x.scale =
      compare |(⟨gridFloor x e + 1, e⟩ : Decimal).value - x.value|
        |(⟨gridFloor x e, e⟩ : Decimal).value - x.value| := by
  obtain ⟨hlow, hhigh⟩ := gridFloor_bounds x e
  rw [compareScaled_eq, abs_of_pos (by linarith), abs_of_nonpos (by linarith), ← cmp_eq_compare,
    ← cmp_eq_compare, ← cmp_sub_zero, ← cmp_sub_zero (_ - x.value)]
  unfold value Binary.value
  push_cast
  congr 1
  ring

theorem isNearest_of_onGrid? (hm : 0 < x.mantissa) (h : onGrid? .up x e = some d) :
    d.exponent = e ∧ IsNearest x d := by
  have hcmp := dist_cmp x e
  unfold onGrid? at h
  simp only at h
  split at h
  · cases h
  · rename_i hhigh
    cases h
    exact ⟨rfl, isNearest_gridFloor hm fun hread => absurd hread (Bool.eq_false_iff.mp hhigh)⟩
  · rename_i hlow _
    cases h
    exact ⟨rfl, isNearest_gridFloor_succ hm fun hread => absurd hread (Bool.eq_false_iff.mp hlow)⟩
  · split at h
    · rename_i horder
      cases h
      rw [horder, eq_comm, compare_gt_iff_gt] at hcmp
      exact ⟨rfl, isNearest_gridFloor hm fun _ => hcmp⟩
    · rename_i horder
      cases h
      rw [horder, eq_comm, compare_lt_iff_lt] at hcmp
      exact ⟨rfl, isNearest_gridFloor_succ hm fun _ => hcmp.le⟩
    · rename_i horder _
      cases h
      rw [horder, eq_comm, compare_eq_iff_eq] at hcmp
      exact ⟨rfl, isNearest_gridFloor_succ hm fun _ => hcmp.le⟩
    · rename_i htie
      cases htie

/-! ## The search -/

theorem two_pow_le_ten_pow : ∀ k < 66, 2 ^ k ≤ 10 ^ (k * 30103 / 100000 + 1) := by
  decide +kernel

section Integer

variable (hm : 0 < x.mantissa) (hn : n < 2 ^ 64) (hread : x.readsBack ⟨n, 0⟩ = true)

include hm hn hread

theorem leadingPlace_bounds :
    ∃ k < 66, (x.mantissa.log2 : Int) + x.scale + 1 = (k : Nat) := by
  obtain ⟨hlow, hhigh⟩ := value_bounds_of_readsBack hm hread
  have hpos := value_pos_of_readsBack hm hread
  rw [value_whole] at hlow hhigh hpos
  have hone : (1 : ℚ) ≤ n := by
    have : 0 < n := by exact_mod_cast hpos
    exact_mod_cast this
  have hless : (n : ℚ) < 2 ^ (64 : Int) := by exact_mod_cast hn
  have hfirst := (zpow_lt_zpow_iff_right₀ (by norm_num)).mp (hlow.trans_lt hless)
  have hlast := (one_lt_zpow_iff_right₀ (by norm_num)).mp (hone.trans_lt hhigh)
  exact ⟨((x.mantissa.log2 : Int) + x.scale + 1).toNat, by omega, by omega⟩

theorem exists_topExponent : ∃ top : Nat, topExponent x = top ∧ top < gridCount ∧
    ∀ d : Decimal, x.readsBack d = true → d.exponent ≤ top := by
  obtain ⟨k, hk, hplace⟩ := leadingPlace_bounds hm hn hread
  refine ⟨k * 30103 / 100000 + 1, ?_, ?_, fun d hd => ?_⟩
  · rw [topExponent, hplace]
    push_cast
    rfl
  · unfold gridCount
    omega
  · have hhigh := (value_bounds_of_readsBack hm hd).2
    have hdigits : (1 : ℚ) ≤ d.digits := by
      have := value_pos_iff.mp (value_pos_of_readsBack hm hd)
      exact_mod_cast this
    have hpower : (2 : ℚ) ^ k ≤ 10 ^ (k * 30103 / 100000 + 1) := by
      exact_mod_cast two_pow_le_ten_pow k hk
    have hlt : (10 : ℚ) ^ d.exponent < 10 ^ ((k * 30103 / 100000 + 1 : Nat) : Int) := by
      calc (10 : ℚ) ^ d.exponent
        _ ≤ d.value := le_mul_of_one_le_left (by positivity) hdigits
        _ < 2 ^ (k : Int) := hplace ▸ hhigh
        _ ≤ 10 ^ ((k * 30103 / 100000 + 1 : Nat) : Int) := by
          rw [zpow_natCast, zpow_natCast]
          exact hpower
    exact ((zpow_lt_zpow_iff_right₀ (by norm_num)).mp hlt).le

/-- **The search.** It finds the shortest decimal of a number that an integer is read as. -/
theorem isShortest_shortest : IsShortest x (shortest .up x) := by
  obtain ⟨top, htop, hcount, hcoarse⟩ := exists_topExponent hm hn hread
  have hones : (onGrid? .up x ((top : Int) - top)).isSome = true := by
    rw [Int.sub_self]
    exact onGrid?_isSome hm hread .up
  obtain ⟨d, hd⟩ : ∃ d, (List.range gridCount).findSome?
      (fun (i : Nat) => onGrid? .up x ((top : Int) - i)) = some d := by
    rw [← Option.isSome_iff_exists, List.findSome?_isSome_iff]
    exact ⟨top, List.mem_range.mpr hcount, hones⟩
  have hshortest : shortest .up x = d := by
    unfold shortest
    simp only [htop, hd]
  rw [hshortest]
  obtain ⟨front, i, back, hrange, hi, hfront⟩ := List.findSome?_eq_some_iff.mp hd
  obtain ⟨hexp, hnearest⟩ := isNearest_of_onGrid? hm hi
  refine ⟨readsBack_of_onGrid? hi, fun e k he => ?_, hnearest⟩
  rw [← Bool.not_eq_true]
  intro hk
  -- A coarser grid with a hit would have been found before.
  have htop' : e ≤ top := hcoarse _ hk
  obtain ⟨j, hj⟩ : ∃ j : Nat, e = top - j := ⟨(top - e).toNat, by omega⟩
  have hmem : j ∈ front := by
    have hsorted := List.pairwise_lt_range (n := gridCount)
    have hall : j ∈ List.range gridCount := by
      have hlast : i ∈ List.range gridCount := hrange ▸ List.mem_append_right _ List.mem_cons_self
      rw [List.mem_range] at hlast ⊢
      omega
    rw [hrange] at hsorted hall
    have hback := (List.pairwise_cons.mp (List.pairwise_append.mp hsorted).2.1).1
    rcases List.mem_append.mp hall with hfirst | hrest
    · exact hfirst
    · rcases List.mem_cons.mp hrest with rfl | hlater
      · omega
      · have := hback j hlater
        omega
  rw [hj] at hk
  have hsome := onGrid?_isSome hm hk .up
  rw [hfront j hmem] at hsome
  cases hsome

end Integer

/-! ## Whole decimals -/

section Whole

variable (h : IsShortest x d)

include h

theorem IsShortest.exponent_nonneg (hread : x.readsBack ⟨n, 0⟩ = true) : 0 ≤ d.exponent := by
  by_contra hneg
  exact Bool.eq_false_iff.mp (h.coarsest 0 n (by omega)) hread

theorem IsShortest.readsBack_whole (hd : d.value = n) : x.readsBack ⟨n, 0⟩ = true := by
  rw [readsBack_congr ((value_whole n).trans hd.symm)]
  exact h.readsBack

theorem IsShortest.exists_exponent (hd : d.value = n) :
    ∃ e : Nat, d.exponent = e ∧ d.digits * 10 ^ e = n := by
  obtain ⟨e, he⟩ := Int.eq_ofNat_of_zero_le (h.exponent_nonneg (h.readsBack_whole hd))
  refine ⟨e, he, ?_⟩
  rw [value, he, zpow_natCast] at hd
  exact_mod_cast hd

/-- A number whose last bit counts two is even. So is a decimal that ends in a zero, and of all
others the number itself is the nearest. -/
theorem IsShortest.eq_mantissa_of_even (hm : 0 < x.mantissa) (hscale : x.scale = 1)
    (hd : d.value = n) : n = 2 * x.mantissa := by
  obtain ⟨hround, -⟩ := roundsTo_of_readsBack hm h.readsBack
  have hlow := hround.low
  have hhigh := hround.high
  rw [hd, hscale, zpow_one] at hlow hhigh
  have hbounds : 2 * x.mantissa ≤ n + 1 ∧ n ≤ 2 * x.mantissa + 1 := by
    constructor
    · have : (2 * x.mantissa : ℚ) ≤ n + 1 := by linarith
      exact_mod_cast this
    · have : (n : ℚ) ≤ 2 * x.mantissa + 1 := by linarith
      exact_mod_cast this
  obtain ⟨e, he, hn⟩ := h.exists_exponent hd
  cases e with
  | zero =>
    have hself : (⟨2 * x.mantissa, d.exponent⟩ : Decimal).value = x.value := by
      rw [value, Binary.value, he, hscale]
      push_cast
      ring
    have hzero := (h.nearest _ (readsBack_of_value_eq hm hself)).1
    rw [hself, sub_self, abs_zero, abs_nonpos_iff, sub_eq_zero, hd, ← hself, value, he] at hzero
    simp only [Nat.cast_zero, zpow_zero, mul_one] at hzero
    exact_mod_cast hzero
  | succ e =>
    rw [Nat.pow_succ, ← Nat.mul_assoc] at hn
    omega

theorem IsShortest.value_eq (hm : 0 < x.mantissa) (hscale : x.scale ≤ 1) (hd : d.value = n) :
    x.value = n := by
  rcases hscale.lt_or_eq with hlt | heven
  · obtain ⟨s, hs⟩ : ∃ s : Nat, x.scale = -s := ⟨(-x.scale).toNat, by omega⟩
    obtain ⟨hround, -⟩ := roundsTo_of_readsBack hm h.readsBack
    have hlow := hround.low
    have hhigh := hround.high
    rw [hd, hs, zpow_neg, div_inv_eq_mul, zpow_natCast] at hlow hhigh
    have hmore : x.mantissa < n * 2 ^ s + 1 := by
      have : (x.mantissa : ℚ) < n * 2 ^ s + 1 := by linarith
      exact_mod_cast this
    have hless : n * 2 ^ s < x.mantissa + 1 := by
      have : (n * 2 ^ s : ℚ) < x.mantissa + 1 := by linarith
      exact_mod_cast this
    have hmantissa : x.mantissa = n * 2 ^ s := by omega
    rw [Binary.value, hmantissa, hs, zpow_neg, zpow_natCast]
    push_cast
    field_simp
  · rw [h.eq_mantissa_of_even hm heven hd, Binary.value, heven]
    push_cast
    ring

end Whole

end Decimal

end TableCleaner
