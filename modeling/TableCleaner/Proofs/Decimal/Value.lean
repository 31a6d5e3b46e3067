import TableCleaner.Decimal.Shortest
import TableCleaner.Proofs.Decimal.Bits

/-!
# Values of decimals

Decimals and binary numbers are compared by their values, exactly. The decimals that read back as a
binary number are those with values in an interval around it, so only the value counts, and the
shortest decimal of a number is one of them.
-/

namespace TableCleaner

def Decimal.value (d : Decimal) : ℚ := d.digits * 10 ^ d.exponent

def Binary.value (x : Binary) : ℚ := x.mantissa * 2 ^ x.scale

/-! ## Exact comparison -/

theorem zpow_mul_toNat {b : ℚ} (hb : b ≠ 0) (i : Int) : b ^ i * b ^ (-i).toNat = b ^ i.toNat := by
  rw [← zpow_natCast, ← zpow_natCast, ← zpow_add₀ hb]
  congr 1
  omega

namespace Binary

theorem compareScaled_eq (a : Nat) (i : Int) (b : Nat) (j : Int) :
    compareScaled a i b j = compare ((a : ℚ) * 10 ^ i) (b * 2 ^ j) := by
  have hpos : (0 : ℚ) < 10 ^ (-i).toNat * 2 ^ (-j).toNat := by positivity
  have hten := zpow_mul_toNat (show (10 : ℚ) ≠ 0 by norm_num) i
  have htwo := zpow_mul_toNat (show (2 : ℚ) ≠ 0 by norm_num) j
  have hleft : ((a * 10 ^ i.toNat * 2 ^ (-j).toNat : Nat) : ℚ) =
      a * 10 ^ i * (10 ^ (-i).toNat * 2 ^ (-j).toNat) := by
    push_cast
    rw [← hten]
    ring
  have hright : ((b * 2 ^ j.toNat * 10 ^ (-i).toNat : Nat) : ℚ) =
      b * 2 ^ j * (10 ^ (-i).toNat * 2 ^ (-j).toNat) := by
    push_cast
    rw [← htwo]
    ring
  unfold compareScaled
  simp only [Nat.pow_eq]
  rw [← cmp_eq_compare, ← cmp_eq_compare, ← Nat.strictMono_cast (α := ℚ) |>.cmp_map_eq, hleft,
    hright, cmp_mul_pos_right hpos]

/-! ## The interval of a number -/

/-- The ends of the interval of decimals that read back. -/
def low (x : Binary) : ℚ := (x.mantissa - if x.narrowBelow then 1 / 4 else 1 / 2) * 2 ^ x.scale

def high (x : Binary) : ℚ := (x.mantissa + 1 / 2) * 2 ^ x.scale

variable {x : Binary} {d : Decimal}

theorem readsBack_congr {e : Decimal} (h : d.value = e.value) : x.readsBack d = x.readsBack e := by
  unfold Decimal.value at h
  unfold readsBack
  simp only [compareScaled_eq, h]

theorem readsBack_iff (hm : 0 < x.mantissa) :
    x.readsBack d = true ↔
      (x.low < d.value ∨ x.mantissa % 2 = 0 ∧ d.value = x.low) ∧
        (d.value < x.high ∨ x.mantissa % 2 = 0 ∧ d.value = x.high) := by
  have hquarter : (2 : ℚ) ^ (x.scale - 2) = 2 ^ x.scale / 4 := by
    rw [zpow_sub₀ (by norm_num)]
    norm_num
  have hlow : ((if x.narrowBelow then 4 * x.mantissa - 1 else 4 * x.mantissa - 2 : Nat) : ℚ) *
      2 ^ (x.scale - 2) = x.low := by
    rw [hquarter, low]
    split
    · rw [Nat.cast_sub (by omega)]
      push_cast
      ring
    · rw [Nat.cast_sub (by omega)]
      push_cast
      ring
  have hhigh : ((4 * x.mantissa + 2 : Nat) : ℚ) * 2 ^ (x.scale - 2) = x.high := by
    rw [hquarter, high]
    push_cast
    ring
  have hvalue : (d.digits : ℚ) * 10 ^ d.exponent = d.value := rfl
  unfold readsBack
  simp only [compareScaled_eq, hlow, hhigh, hvalue, Bool.and_eq_true, Bool.or_eq_true, beq_iff_eq,
    compare_gt_iff_gt, compare_lt_iff_lt, compare_eq_iff_eq]

end Binary

/-! ## Decimals that read back -/

namespace Decimal

open Binary

theorem value_exact (x : Binary) : (exact x).value = x.value := by
  have htwo := zpow_mul_toNat (show (2 : ℚ) ≠ 0 by norm_num) x.scale
  have hten : (10 : ℚ) ^ min x.scale 0 * 10 ^ (-x.scale).toNat = 1 := by
    rw [← zpow_natCast, ← zpow_add₀ (by norm_num), show min x.scale 0 + (-x.scale).toNat = 0 by omega,
      zpow_zero]
  have hpow : (10 : ℚ) ^ (-x.scale).toNat = 2 ^ (-x.scale).toNat * 5 ^ (-x.scale).toNat := by
    rw [← mul_pow]
    norm_num
  unfold exact value Binary.value
  simp only [Nat.pow_eq]
  push_cast
  rw [← htwo]
  calc (x.mantissa : ℚ) * (2 ^ x.scale * 2 ^ (-x.scale).toNat) * 5 ^ (-x.scale).toNat *
        10 ^ min x.scale 0
    _ = x.mantissa * 2 ^ x.scale *
        (10 ^ min x.scale 0 * (2 ^ (-x.scale).toNat * 5 ^ (-x.scale).toNat)) := by ring
    _ = x.mantissa * 2 ^ x.scale := by rw [← hpow, hten, mul_one]

variable {x : Binary}

theorem readsBack_exact (h : 0 < x.mantissa) : x.readsBack (exact x) = true := by
  have hscale : (0 : ℚ) < 2 ^ x.scale := by positivity
  rw [readsBack_iff h, value_exact, low, high, Binary.value]
  constructor
  · left
    gcongr
    split <;> norm_num
  · left
    gcongr
    norm_num

theorem readsBack_of_onGrid? {tie : Tie} {e : Int} {d : Decimal} (h : onGrid? tie x e = some d) :
    x.readsBack d = true := by
  unfold onGrid? at h
  simp only at h
  split at h
  · cases h
  · cases h
    assumption
  · cases h
    assumption
  · split at h
    · cases h
      assumption
    · cases h
      assumption
    · cases h
      assumption
    · cases h
      split <;> assumption

theorem readsBack_shortest (tie : Tie) (h : 0 < x.mantissa) :
    x.readsBack (shortest tie x) = true := by
  unfold shortest
  simp only
  split
  · rename_i d hd
    obtain ⟨i, -, hi⟩ := List.exists_of_findSome?_eq_some hd
    exact readsBack_of_onGrid? hi
  · exact readsBack_exact h

end Decimal

end TableCleaner
