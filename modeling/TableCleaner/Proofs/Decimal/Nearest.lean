import TableCleaner.Decimal.Nearest
import TableCleaner.Proofs.Decimal.Value

/-!
# Reading back

A decimal in the interval of a number is read as that number. The power of two that reading divides
by is the scale of the number, but for one case: just below a power of two the gap is only half as
wide, so there reading divides by a power less, and rounding carries into the next one.
-/

namespace TableCleaner

namespace Decimal

/-! ## Logarithms -/

theorem ratio_lt_zpow_iff {num den : Nat} (hden : 0 < den) (g : Int) :
    num * 2 ^ (-g).toNat < den * 2 ^ g.toNat ↔ (num : ℚ) / den < 2 ^ g := by
  have hden' : (0 : ℚ) < den := by exact_mod_cast hden
  have hpow : (0 : ℚ) < 2 ^ (-g).toNat := by positivity
  have htwo := zpow_mul_toNat (show (2 : ℚ) ≠ 0 by norm_num) g
  rw [div_lt_iff₀ hden', ← mul_lt_mul_iff_left₀ hpow, mul_right_comm, htwo, mul_comm (2 ^ g.toNat)]
  exact_mod_cast Iff.rfl

theorem floorLog2_eq {num den : Nat} (hnum : 0 < num) (hden : 0 < den) :
    floorLog2 num den = Int.log 2 ((num : ℚ) / den) := by
  have hpos : (0 : ℚ) < num / den := by positivity
  have hlog : ∀ {n : Nat}, 0 < n → (2 : ℚ) ^ n.log2 ≤ n ∧ (n : ℚ) < 2 ^ (n.log2 + 1) := fun h =>
    ⟨by exact_mod_cast Nat.log2_self_le h.ne', by exact_mod_cast Nat.lt_log2_self⟩
  obtain ⟨hnum₁, hnum₂⟩ := hlog hnum
  obtain ⟨hden₁, hden₂⟩ := hlog hden
  set g : Int := (num.log2 : Int) - den.log2 with hg
  have hlow : g - 1 ≤ Int.log 2 ((num : ℚ) / den) := by
    rw [← Int.zpow_le_iff_le_log (by norm_num) hpos, le_div_iff₀ (by exact_mod_cast hden)]
    calc ((2 : Nat) : ℚ) ^ (g - 1) * den
      _ ≤ 2 ^ (g - 1) * 2 ^ (den.log2 + 1) := by push_cast; gcongr
      _ = 2 ^ num.log2 := by
        rw [← zpow_natCast, ← zpow_natCast, ← zpow_add₀ (by norm_num)]
        congr 1
        push_cast
        omega
      _ ≤ num := hnum₁
  have hhigh : Int.log 2 ((num : ℚ) / den) < g + 1 := by
    rw [← Int.lt_zpow_iff_log_lt (by norm_num) hpos, div_lt_iff₀ (by exact_mod_cast hden)]
    calc (num : ℚ)
      _ < 2 ^ (num.log2 + 1) := hnum₂
      _ = 2 ^ (g + 1) * 2 ^ den.log2 := by
        rw [← zpow_natCast, ← zpow_natCast, ← zpow_add₀ (by norm_num)]
        congr 1
        push_cast
        omega
      _ ≤ ((2 : Nat) : ℚ) ^ (g + 1) * den := by push_cast; gcongr
  have hbelow := Int.lt_zpow_iff_log_lt (b := 2) (by norm_num) (x := g) hpos
  unfold floorLog2
  simp only [Nat.pow_eq, ← hg, ratio_lt_zpow_iff hden]
  push_cast at hbelow
  split
  · rename_i h
    have := hbelow.mp h
    omega
  · rename_i h
    have := mt hbelow.mpr h
    omega

/-! ## Rounding -/

/-- The number lies nearest to the integer, and half way between two only if it is the even one. -/
structure RoundsTo (r : ℚ) (m : Nat) : Prop where
  low : m - 1 / 2 ≤ r
  high : r ≤ m + 1 / 2
  even : r = m - 1 / 2 ∨ r = m + 1 / 2 → m % 2 = 0

theorem RoundsTo.bounds {num den m : Nat} (hden : 0 < den)
    (h : RoundsTo ((num : ℚ) / den) m) :
    2 * (den * m) ≤ 2 * num + den ∧ 2 * num ≤ 2 * (den * m) + den ∧
      (2 * num + den = 2 * (den * m) ∨ 2 * num = 2 * (den * m) + den → m % 2 = 0) := by
  have hden' : (0 : ℚ) < den := by exact_mod_cast hden
  have hlow := (le_div_iff₀ hden').mp h.low
  have hhigh := (div_le_iff₀ hden').mp h.high
  have heven := h.even
  rw [div_eq_iff hden'.ne', div_eq_iff hden'.ne'] at heven
  refine ⟨?_, ?_, ?_⟩
  · have : (2 * (den * m) : ℚ) ≤ 2 * num + den := by linarith
    exact_mod_cast this
  · have : (2 * num : ℚ) ≤ 2 * (den * m) + den := by linarith
    exact_mod_cast this
  · rintro (htie | htie)
    · have : (2 * num + den : ℚ) = 2 * (den * m) := by exact_mod_cast htie
      exact heven (.inl (by linarith))
    · have : (2 * num : ℚ) = 2 * (den * m) + den := by exact_mod_cast htie
      exact heven (.inr (by linarith))

theorem roundHalfEven_eq {num den m : Nat} (hden : 0 < den) (h : RoundsTo ((num : ℚ) / den) m) :
    roundHalfEven num den = m := by
  obtain ⟨hlow, hhigh, heven⟩ := h.bounds hden
  have hdiv := Nat.div_add_mod num den
  have hmod := Nat.mod_lt num hden
  unfold roundHalfEven
  extract_lets q r
  change den * q + r = num at hdiv
  change r < den at hmod
  have hm : m = q ∨ m = q + 1 := by
    by_contra hne
    rcases Nat.lt_or_ge m q with hlt | hge
    · have := Nat.mul_le_mul_left den (show m + 1 ≤ q from hlt)
      rw [Nat.mul_add] at this
      omega
    · have := Nat.mul_le_mul_left den (show q + 2 ≤ m by omega)
      rw [Nat.mul_add] at this
      omega
  rcases hm with rfl | rfl
  · split
    · rfl
    · rw [if_neg (by omega), if_pos (heven (by omega))]
  · rw [Nat.mul_add] at hlow heven
    rw [if_neg (by omega)]
    split
    · rfl
    · have := heven (by omega)
      rw [if_neg (by omega)]

theorem roundHalfEven_le (num den : Nat) : roundHalfEven num den ≤ num / den + 1 := by
  unfold roundHalfEven
  extract_lets q r
  repeat' split
  all_goals omega

/-- The scale at which a positive number is rounded. -/
def scaleOf (r : ℚ) : Int := max (Int.log 2 r - 52) (-1074)

theorem div_zpow_eq (num den : Nat) (q : Int) :
    ((num * 2 ^ (-q).toNat : Nat) : ℚ) / ((den * 2 ^ q.toNat : Nat) : ℚ) = num / den / 2 ^ q := by
  have htwo := zpow_mul_toNat (show (2 : ℚ) ≠ 0 by norm_num) q
  have hpow : (2 : ℚ) ^ (-q).toNat ≠ 0 := by positivity
  push_cast
  rw [← htwo, ← mul_assoc, mul_div_mul_right _ _ hpow, div_div]

theorem roundRatio_eq {num den : Nat} (hnum : 0 < num) (hden : 0 < den) {m : Nat}
    (h : RoundsTo ((num : ℚ) / den / 2 ^ scaleOf (num / den)) m) :
    roundRatio num den =
      min ((scaleOf ((num : ℚ) / den) + 1074).toNat * Binary.leadingBit + m)
        Binary.infinityBits := by
  unfold roundRatio
  unfold scaleOf at h ⊢
  simp only [floorLog2_eq hnum hden, Nat.pow_eq]
  rw [roundHalfEven_eq (by positivity) (by rwa [div_zpow_eq])]

variable {d : Decimal}

theorem value_eq_ratio (d : Decimal) :
    ((d.digits * 10 ^ d.exponent.toNat : Nat) : ℚ) / ((10 ^ (-d.exponent).toNat : Nat) : ℚ) =
      d.value := by
  have hten := zpow_mul_toNat (show (10 : ℚ) ≠ 0 by norm_num) d.exponent
  rw [div_eq_iff (by positivity), value, mul_assoc]
  push_cast
  rw [hten]

theorem value_pos_iff : 0 < d.value ↔ 0 < d.digits := by
  have hpow : (0 : ℚ) < 10 ^ d.exponent := by positivity
  rw [value, mul_pos_iff_of_pos_right hpow, Nat.cast_pos]

theorem two_zpow_le {e : Int} (h : 0 ≤ e) : (2 : ℚ) ^ (3 * e) ≤ 10 ^ e := by
  rw [zpow_mul]
  exact zpow_le_zpow_left₀ h (by norm_num) (by norm_num)

theorem ten_zpow_le {e : Int} (h : e ≤ 0) : (10 : ℚ) ^ e ≤ 2 ^ (3 * e) := by
  have hinv := two_zpow_le (e := -e) (by omega)
  rwa [mul_neg, zpow_neg, zpow_neg, inv_le_inv₀ (by positivity) (by positivity)] at hinv

theorem two_zpow_le_value (hdigits : d.digits ≠ 0) (h : 400 < d.exponent) :
    (2 : ℚ) ^ (1024 : Int) ≤ d.value := by
  have hone : (1 : ℚ) ≤ d.digits := by exact_mod_cast Nat.one_le_iff_ne_zero.mpr hdigits
  calc (2 : ℚ) ^ (1024 : Int)
    _ ≤ 2 ^ (3 * d.exponent) := zpow_le_zpow_right₀ (by norm_num) (by omega)
    _ ≤ 10 ^ d.exponent := two_zpow_le (by omega)
    _ ≤ d.digits * 10 ^ d.exponent := le_mul_of_one_le_left (by positivity) hone

theorem value_lt_two_zpow (h : (d.digits.log2 : Int) + 1 + 3 * d.exponent < -1080) :
    d.value < (2 : ℚ) ^ (-1080 : Int) := by
  calc d.value
    _ ≤ d.digits * 2 ^ (3 * d.exponent) := by
      unfold value
      gcongr
      exact ten_zpow_le (by omega)
    _ < 2 ^ ((d.digits.log2 : Int) + 1) * 2 ^ (3 * d.exponent) := by
      gcongr
      exact_mod_cast Nat.lt_log2_self
    _ = 2 ^ ((d.digits.log2 : Int) + 1 + 3 * d.exponent) := by rw [← zpow_add₀ (by norm_num)]
    _ ≤ 2 ^ (-1080 : Int) := zpow_le_zpow_right₀ (by norm_num) (by omega)

theorem nearestBits_eq {m : Nat} (hlow : (2 : ℚ) ^ (-1080 : Int) ≤ d.value)
    (hhigh : d.value < (2 : ℚ) ^ (1024 : Int)) (h : RoundsTo (d.value / 2 ^ scaleOf d.value) m) :
    d.nearestBits =
      min ((scaleOf d.value + 1074).toNat * Binary.leadingBit + m) Binary.infinityBits := by
  have hdigits : 0 < d.digits := value_pos_iff.mp (lt_of_lt_of_le (by positivity) hlow)
  have hhuge : ¬ 400 < d.exponent := fun hexp =>
    hhigh.not_ge (two_zpow_le_value hdigits.ne' hexp)
  have htiny : ¬ (d.digits.log2 : Int) + 1 + 3 * d.exponent < -1080 := fun hexp =>
    hlow.not_gt (value_lt_two_zpow hexp)
  unfold nearestBits
  rw [if_neg hdigits.ne', if_neg hhuge, if_neg htiny]
  simp only [Nat.pow_eq]
  rw [← value_eq_ratio] at h
  rw [roundRatio_eq (by positivity) (by positivity) h, value_eq_ratio]

theorem div_scaleOf_lt {r : ℚ} (hr : 0 < r) : r / 2 ^ scaleOf r < (2 : ℚ) ^ (53 : Int) := by
  rw [div_lt_iff₀ (by positivity), ← zpow_add₀ (by norm_num)]
  apply (Int.lt_zpow_iff_log_lt (b := 2) (by norm_num) hr).mpr
  unfold scaleOf
  omega

theorem roundRatio_lt {num den : Nat} (hnum : 0 < num) (hden : 0 < den)
    (h : (num : ℚ) / den < (2 : ℚ) ^ (1023 : Int)) : roundRatio num den < Binary.infinityBits := by
  have hpos : (0 : ℚ) < num / den := by positivity
  have hratio := div_scaleOf_lt hpos
  rw [← div_zpow_eq, div_lt_iff₀ (by positivity)] at hratio
  have hlog : Int.log 2 ((num : ℚ) / den) < 1023 := (Int.lt_zpow_iff_log_lt (by norm_num) hpos).mp h
  unfold scaleOf at hratio
  unfold roundRatio
  simp only [floorLog2_eq hnum hden, Nat.pow_eq]
  generalize hq : max (Int.log 2 ((num : ℚ) / den) - 52) (-1074) = q at hratio
  have hquotient : num * 2 ^ (-q).toNat / (den * 2 ^ q.toNat) < 2 ^ 53 := by
    rw [Nat.div_lt_iff_lt_mul (by positivity)]
    exact_mod_cast hratio
  have hround := roundHalfEven_le (num * 2 ^ (-q).toNat) (den * 2 ^ q.toNat)
  unfold Binary.infinityBits Binary.leadingBit
  omega

theorem nearestBits_lt (h : d.value < (2 : ℚ) ^ (1023 : Int)) :
    d.nearestBits < Binary.infinityBits := by
  unfold nearestBits
  split
  · decide
  rename_i hdigits
  split
  · rename_i hexp
    refine absurd h (not_lt.mpr ?_)
    exact le_trans (zpow_le_zpow_right₀ (by norm_num) (by omega)) (two_zpow_le_value hdigits hexp)
  split
  · decide
  · simp only [Nat.pow_eq]
    rw [← value_eq_ratio] at h
    exact roundRatio_lt (by positivity) (by positivity) h

end Decimal

/-! ## Bits of finite numbers -/

namespace Binary

/-- The mantissa has a leading bit unless the scale is the least one, and the gap below is narrow
at all powers of two but the least. -/
structure OfBits (x : Binary) (bits : Nat) : Prop where
  bits : (x.scale + 1074).toNat * leadingBit + x.mantissa = bits
  scale : -1074 ≤ x.scale
  mantissa : x.mantissa < 2 * leadingBit
  leading : x.scale = -1074 ∨ leadingBit ≤ x.mantissa
  narrow : x.narrowBelow = true ↔ x.mantissa = leadingBit ∧ x.scale ≠ -1074

theorem ofBits_ofBits (bits : Nat) : (ofBits bits).OfBits bits := by
  have hdiv := Nat.div_add_mod bits leadingBit
  have hmod := Nat.mod_lt bits (show 0 < leadingBit by decide)
  unfold ofBits
  extract_lets e f
  change leadingBit * e + f = bits at hdiv
  change f < leadingBit at hmod
  by_cases he : e = 0
  · rw [if_pos he]
    rw [he] at hdiv
    constructor <;> simp <;> omega
  · rw [if_neg he]
    obtain ⟨k, hk⟩ : ∃ k, e = k + 1 := Nat.exists_eq_succ_of_ne_zero he
    have hscale : ((e : Int) - 1075 + 1074).toNat = k := by omega
    rw [hk, Nat.mul_add] at hdiv
    constructor
    · simp only [hscale]
      rw [Nat.mul_comm]
      omega
    · simp only
      omega
    · simp only
      omega
    · simp
    · simp
      omega

theorem OfBits.mantissa_pos {x : Binary} {bits : Nat} (h : x.OfBits bits) (hpos : 0 < bits) :
    0 < x.mantissa := by
  have hbits := h.bits
  rcases h.leading with hscale | hleading
  · simp [hscale] at hbits
    omega
  · exact Nat.lt_of_lt_of_le (by decide) hleading

theorem mantissa_pos_of_ne_zero {x : Float} (h : ¬ (x == 0.0) = true) :
    0 < (ofBits (magnitudeBits x)).mantissa := by
  rw [beq_zero_iff] at h
  exact (ofBits_ofBits _).mantissa_pos (Nat.pos_of_ne_zero h)

variable {x : Binary} {d : Decimal}

theorem roundsTo_of_readsBack (hm : 0 < x.mantissa) (h : x.readsBack d = true) :
    Decimal.RoundsTo (d.value / 2 ^ x.scale) x.mantissa ∧
      (x.narrowBelow = true → x.mantissa - 1 / 4 ≤ d.value / 2 ^ x.scale) := by
  obtain ⟨hlow, hhigh⟩ := (readsBack_iff hm).mp h
  have hscale : (0 : ℚ) < 2 ^ x.scale := by positivity
  have hvalue : d.value = d.value / 2 ^ x.scale * 2 ^ x.scale := by field_simp
  set w := d.value / 2 ^ x.scale
  rw [hvalue, low, mul_lt_mul_iff_left₀ hscale, mul_left_inj' hscale.ne'] at hlow
  rw [hvalue, high, mul_lt_mul_iff_left₀ hscale, mul_left_inj' hscale.ne'] at hhigh
  have hgap : (if x.narrowBelow then 1 / 4 else 1 / 2 : ℚ) ≤ 1 / 2 := by
    split <;> norm_num
  have hlow' : x.mantissa - (if x.narrowBelow then 1 / 4 else 1 / 2 : ℚ) ≤ w := by
    rcases hlow with hlow | ⟨-, hlow⟩
    · exact hlow.le
    · exact hlow.ge
  refine ⟨⟨by linarith, ?_, ?_⟩, ?_⟩
  · rcases hhigh with hhigh | ⟨-, hhigh⟩
    · exact hhigh.le
    · exact hhigh.le
  · rintro (hw | hw)
    · rcases hlow with hlow | ⟨heven, -⟩
      · linarith
      · exact heven
    · rcases hhigh with hhigh | ⟨heven, -⟩
      · linarith
      · exact heven
  · intro hnarrow
    rwa [if_pos hnarrow] at hlow'

theorem scaleOf_eq {v : ℚ} {q : Int} (hv : 0 < v) (hq : -1074 ≤ q)
    (hlow : q = -1074 ∨ (2 : ℚ) ^ (52 : Int) ≤ v / 2 ^ q)
    (hhigh : v / 2 ^ q < (2 : ℚ) ^ (53 : Int)) : Decimal.scaleOf v = q := by
  have hpow : (0 : ℚ) < 2 ^ q := by positivity
  rw [div_lt_iff₀ hpow, ← zpow_add₀ (by norm_num)] at hhigh
  have hlog : Int.log 2 v < 53 + q := (Int.lt_zpow_iff_log_lt (by norm_num) hv).mp hhigh
  unfold Decimal.scaleOf
  rcases hlow with hlow | hlow
  · omega
  · rw [le_div_iff₀ hpow, ← zpow_add₀ (by norm_num)] at hlow
    have : 52 + q ≤ Int.log 2 v := (Int.zpow_le_iff_le_log (by norm_num) hv).mp hlow
    omega

section OfBits

variable {bits : Nat} (hx : x.OfBits bits) (hm : 0 < x.mantissa)

include hx

theorem OfBits.value_div_lt (hround : Decimal.RoundsTo (d.value / 2 ^ x.scale) x.mantissa) :
    d.value / 2 ^ x.scale < (2 : ℚ) ^ (53 : Int) := by
  have hhigh := hround.high
  have hless : (x.mantissa : ℚ) + 1 ≤ 2 ^ (53 : Int) := by
    have hmantissa := hx.mantissa
    unfold leadingBit at hmantissa
    norm_num
    exact_mod_cast hmantissa
  linarith

include hm

theorem OfBits.value_bounds (hfinite : bits < infinityBits)
    (hround : Decimal.RoundsTo (d.value / 2 ^ x.scale) x.mantissa) :
    (2 : ℚ) ^ (-1080 : Int) ≤ d.value ∧ d.value < (2 : ℚ) ^ (1024 : Int) := by
  have hbits := hx.bits
  have hscale := hx.scale
  have hpow : (0 : ℚ) < 2 ^ x.scale := by positivity
  have htop : x.scale ≤ 971 := by
    have hmantissa := hx.mantissa
    have hleading := hx.leading
    unfold infinityBits leadingBit at *
    omega
  have hhalf : (1 / 2 : ℚ) ≤ d.value / 2 ^ x.scale := by
    have hone : (1 : ℚ) ≤ x.mantissa := by exact_mod_cast hm
    have hlow := hround.low
    linarith
  have hwide := hx.value_div_lt hround
  rw [le_div_iff₀ hpow] at hhalf
  rw [div_lt_iff₀ hpow, ← zpow_add₀ (by norm_num)] at hwide
  constructor
  · calc (2 : ℚ) ^ (-1080 : Int)
      _ ≤ 2 ^ (-1 + x.scale) := zpow_le_zpow_right₀ (by norm_num) (by omega)
      _ = 1 / 2 * 2 ^ x.scale := by rw [zpow_add₀ (by norm_num)]; norm_num
      _ ≤ d.value := hhalf
  · exact hwide.trans_le (zpow_le_zpow_right₀ (by norm_num) (by omega))

/-- Just below a power of two reading divides by a power less, and rounding carries. -/
theorem OfBits.carry (hv : 0 < d.value) (h : x.readsBack d = true) (hne : x.scale ≠ -1074)
    (hbelow : d.value / 2 ^ x.scale < (2 : ℚ) ^ (52 : Int)) :
    x.mantissa = leadingBit ∧ Decimal.scaleOf d.value = x.scale - 1 ∧
      Decimal.RoundsTo (d.value / 2 ^ (x.scale - 1)) (2 * leadingBit) := by
  obtain ⟨hround, hnarrow⟩ := roundsTo_of_readsBack hm h
  have hscale := hx.scale
  have hlead : x.mantissa = leadingBit := by
    have hleading := hx.leading
    have hle : (x.mantissa : ℚ) < leadingBit + 1 := by
      have hpower : (leadingBit : ℚ) = 2 ^ (52 : Int) := by norm_num [leadingBit]
      have hlow := hround.low
      linarith
    have : x.mantissa < leadingBit + 1 := by exact_mod_cast hle
    omega
  have hquarter := hnarrow (hx.narrow.mpr ⟨hlead, hne⟩)
  have hdouble : d.value / 2 ^ (x.scale - 1) = 2 * (d.value / 2 ^ x.scale) := by
    rw [zpow_sub_one₀ (by norm_num)]
    field_simp
  rw [hlead] at hquarter
  norm_num [leadingBit] at hquarter hbelow
  refine ⟨hlead, scaleOf_eq hv (by omega) (.inr ?_) ?_, ?_⟩
  · rw [hdouble]
    norm_num
    linarith
  · rw [hdouble]
    norm_num
    linarith
  · rw [hdouble]
    constructor <;> norm_num [leadingBit] <;> linarith

end OfBits

/-- **Reading back.** A decimal in the interval of a finite number is read as this number. -/
theorem nearestBits_of_readsBack {bits : Nat} (hpos : 0 < bits) (hfinite : bits < infinityBits)
    (h : (ofBits bits).readsBack d = true) : d.nearestBits = bits := by
  have hx := ofBits_ofBits bits
  set x := ofBits bits
  have hbits := hx.bits
  have hscale := hx.scale
  have hm : 0 < x.mantissa := hx.mantissa_pos hpos
  obtain ⟨hround, -⟩ := roundsTo_of_readsBack hm h
  obtain ⟨hlow, hhigh⟩ := hx.value_bounds hm hfinite hround
  have hvalue : 0 < d.value := lt_of_lt_of_le (by positivity) hlow
  by_cases hbelow : x.scale ≠ -1074 ∧ d.value / 2 ^ x.scale < (2 : ℚ) ^ (52 : Int)
  · obtain ⟨hlead, hq, hcarry⟩ := hx.carry hm hvalue h hbelow.1 hbelow.2
    rw [← hq] at hcarry
    have hsum : (x.scale - 1 + 1074).toNat * leadingBit + 2 * leadingBit = bits := by
      have hnext : (x.scale + 1074).toNat = (x.scale - 1 + 1074).toNat + 1 := by omega
      rw [← hbits, hlead, hnext]
      ring
    rw [Decimal.nearestBits_eq hlow hhigh hcarry, hq, hsum, Nat.min_eq_left hfinite.le]
  · have hq : Decimal.scaleOf d.value = x.scale := by
      apply scaleOf_eq hvalue hscale _ (hx.value_div_lt hround)
      by_cases hleast : x.scale = -1074
      · exact .inl hleast
      · exact .inr (not_lt.mp fun hlt => hbelow ⟨hleast, hlt⟩)
    rw [← hq] at hround
    rw [Decimal.nearestBits_eq hlow hhigh hround, hq, hbits, Nat.min_eq_left hfinite.le]

end Binary

end TableCleaner
