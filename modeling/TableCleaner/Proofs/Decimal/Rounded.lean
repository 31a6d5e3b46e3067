import TableCleaner.Proofs.Decimal.Packing

/-!
# Rounded results

Every operation hands its exact result to one rounding function: a mantissa, a scale and two bits
that stand for all digits below the mantissa. Shifted to the gap of the result these digits decide
which integer is nearest, and the number packed from it is the nearest value, or infinity where that is
beyond the range.
-/

namespace TableCleaner.Binary

open Float.Model Float.Model.UnpackedFloat
open Decimal (scaleOf)

/-! ## Digits below the mantissa -/

/-- The mantissa is the integral part of the number, the round bit tells whether the rest makes up a
half, and the sticky bit whether there is more than that, or less and not nothing. -/
structure Represents (em : ExtendedMantissa) (t : ℚ) : Prop where
  low : em.mantissa ≤ t
  high : t < em.mantissa + 1
  round : em.roundBit = true ↔ em.mantissa + 1 / 2 ≤ t
  sticky : em.stickyBit = false ↔ t = em.mantissa ∨ t = em.mantissa + 1 / 2

namespace Represents

variable {em : ExtendedMantissa} {t : ℚ}

theorem exact (m : Nat) : Represents (.ofMantissaAndAccuracy m .exact) m := by
  refine ⟨le_rfl, ?_, ?_, ?_⟩ <;> simp [ExtendedMantissa.ofMantissaAndAccuracy]

theorem inexact {m : Nat} (hlow : m < t) (hhigh : t < m + 1) :
    Represents (.ofMantissaAndAccuracy m (.inexact (compare t (m + 1 / 2)))) t := by
  rcases lt_trichotomy t (m + 1 / 2) with h | h | h
  · rw [compare_lt_iff_lt.mpr h]
    refine ⟨hlow.le, hhigh, iff_of_false Bool.false_ne_true h.not_ge, ?_⟩
    exact iff_of_false Bool.true_eq_false.mp (not_or.mpr ⟨hlow.ne', h.ne⟩)
  · rw [compare_eq_iff_eq.mpr h]
    exact ⟨hlow.le, hhigh, iff_of_true rfl h.ge, iff_of_true rfl (.inr h)⟩
  · rw [compare_gt_iff_gt.mpr h]
    refine ⟨hlow.le, hhigh, iff_of_true rfl h.le, ?_⟩
    exact iff_of_false Bool.true_eq_false.mp (not_or.mpr ⟨hlow.ne', h.ne'⟩)

theorem shiftRightOne (h : Represents em t) : Represents em.shiftRightOne (t / 2) := by
  obtain ⟨hlow, hhigh, hround, hsticky⟩ := h
  have hdiv := Nat.div_add_mod em.mantissa 2
  have hsticky' : (em.roundBit || em.stickyBit) = false ↔ t = em.mantissa := by
    rw [Bool.or_eq_false_iff, hsticky, ← Bool.not_eq_true, hround, not_le]
    constructor
    · rintro ⟨hlt, htie | htie⟩
      · exact htie
      · linarith
    · intro htie
      exact ⟨by linarith, .inl htie⟩
  unfold ExtendedMantissa.shiftRightOne
  rcases Nat.mod_two_eq_zero_or_one em.mantissa with hbit | hbit
  · have hm : (em.mantissa : ℚ) = 2 * (em.mantissa / 2 : Nat) := by
      exact_mod_cast (by omega : em.mantissa = 2 * (em.mantissa / 2))
    constructor <;> simp only [hbit, hsticky']
    · linarith
    · linarith
    · refine iff_of_false (by decide) (not_le.mpr ?_)
      linarith
    · constructor
      · intro htie
        left
        linarith
      · rintro (htie | htie) <;> linarith
  · have hm : (em.mantissa : ℚ) = 2 * (em.mantissa / 2 : Nat) + 1 := by
      exact_mod_cast (by omega : em.mantissa = 2 * (em.mantissa / 2) + 1)
    constructor <;> simp only [hbit, hsticky']
    · linarith
    · linarith
    · refine iff_of_true (by decide) ?_
      linarith
    · constructor
      · intro htie
        right
        linarith
      · rintro (htie | htie) <;> linarith

theorem shiftRight (h : Represents em t) (n : Nat) : Represents (em >>> n) (t / 2 ^ n) := by
  change Represents (n.repeat ExtendedMantissa.shiftRightOne em) _
  induction n with
  | zero =>
    rw [pow_zero, div_one]
    exact h
  | succ n ih =>
    rw [pow_succ, ← div_div]
    exact ih.shiftRightOne

theorem mantissa_eq_floor (h : Represents em t) : em.mantissa = ⌊t⌋₊ :=
  ((Nat.floor_eq_iff ((Nat.cast_nonneg _).trans h.low)).mpr ⟨h.low, h.high⟩).symm

theorem rounds (h : Represents em t) : Rounds t em.roundedMantissa := by
  obtain ⟨hlow, hhigh, hround, hsticky⟩ := h
  obtain ⟨m, roundBit, stickyBit⟩ := em
  simp only at hlow hhigh hround hsticky
  cases roundBit with
  | false =>
    have hless : t < m + 1 / 2 := not_le.mp (mt hround.mpr Bool.false_ne_true)
    have hm : ExtendedMantissa.roundedMantissa ⟨m, false, stickyBit⟩ = m := by
      cases stickyBit <;> rfl
    rw [hm]
    exact .of_near (by push_cast; linarith) (by push_cast; linarith)
  | true =>
    have hhalf : m + 1 / 2 ≤ t := hround.mp rfl
    cases stickyBit with
    | false =>
      have htie : t = m + 1 / 2 := (hsticky.mp rfl).resolve_left (by linarith)
      change Rounds t (m + m % 2 : Nat)
      rw [htie]
      exact .of_tie m
    | true =>
      have hne : t ≠ m + 1 / 2 := fun htie => Bool.false_ne_true (hsticky.mpr (.inr htie)).symm
      have hmore : m + 1 / 2 < t := lt_of_le_of_ne hhalf hne.symm
      change Rounds t (m + 1 : Nat)
      exact .of_near (by push_cast; linarith) (by push_cast; linarith)

end Represents

/-! ## The rounding function -/

theorem targetExponent_eq (m : Nat) (e : Int) :
    Format.binary64.targetExponent (totalExponent m e) = max ((m.log2 : Int) + e - 52) (-1074) := by
  have hbits : Format.binary64.mantissaBits = 53 := rfl
  have hmin : Format.binary64.minExponent = -1074 := by decide
  rw [Format.targetExponent, hbits, hmin, totalExponent]
  congr 1
  push_cast
  ring

theorem scaleOf_mul_zpow {t : ℚ} {m : Nat} {e : Int} (hpos : 0 < t) (hlow : m ≤ t)
    (hhigh : t < m + 1) (hm : 52 ≤ m.log2 ∨ e ≤ -1074) :
    scaleOf (t * 2 ^ e) = max ((m.log2 : Int) + e - 52) (-1074) := by
  have hpos' : 0 < t * 2 ^ e := by positivity
  rcases Nat.eq_zero_or_pos m with rfl | hmpos
  · have he : e ≤ -1074 := hm.resolve_left (by decide)
    have hlog : Int.log 2 (t * 2 ^ e) < e := by
      apply (Int.lt_zpow_iff_log_lt (by norm_num) hpos').mp
      push_cast at hhigh ⊢
      exact mul_lt_of_lt_one_left (by positivity) (by linarith)
    rw [Nat.log2_zero]
    unfold scaleOf
    omega
  · have hbelow : (2 : ℚ) ^ m.log2 ≤ m := by exact_mod_cast Nat.log2_self_le hmpos.ne'
    have habove : (m : ℚ) + 1 ≤ 2 ^ (m.log2 + 1) := by
      exact_mod_cast (Nat.lt_log2_self : m < 2 ^ (m.log2 + 1))
    have hlog : (m.log2 : Int) + e ≤ Int.log 2 (t * 2 ^ e) := by
      apply (Int.zpow_le_iff_le_log (by norm_num) hpos').mp
      push_cast
      rw [zpow_add₀ (by norm_num), zpow_natCast]
      gcongr
      exact hbelow.trans hlow
    have hlog' : Int.log 2 (t * 2 ^ e) < (m.log2 : Int) + 1 + e := by
      apply (Int.lt_zpow_iff_log_lt (by norm_num) hpos').mp
      push_cast
      rw [zpow_add₀ (by norm_num), ← Nat.cast_add_one, zpow_natCast]
      gcongr
      exact hhigh.trans_le habove
    unfold scaleOf
    omega

theorem shiftToTargetExponent_eq (m : Nat) (e : Int) (acc : Accuracy) :
    shiftToTargetExponent Format.binary64 m e acc =
      (ExtendedMantissa.ofMantissaAndAccuracy m acc >>>
        (max ((m.log2 : Int) + e - 52) (-1074) - e).toNat,
        e + (max ((m.log2 : Int) + e - 52) (-1074) - e).toNat) := by
  rw [shiftToTargetExponent, targetExponent_eq]
  rfl

/-- A rounded mantissa is shifted once more when it carries into the next power of two. -/
theorem exists_shift_rounded {rm : Nat} {T : Int} (hrm : rm ≤ 2 ^ 53) (hT : -1074 ≤ T)
    (hlead : T = -1074 ∨ 2 ^ 52 ≤ rm) :
    ∃ (M : Nat) (E : Int), ((rm : ℚ) * 2 ^ T = M * 2 ^ E) ∧ (M ≠ 0 → Canonical M E) ∧
      (shiftToTargetExponent Format.binary64 rm T .exact).1.mantissa = M ∧
      (shiftToTargetExponent Format.binary64 rm T .exact).2 = E := by
  rw [shiftToTargetExponent_eq]
  rcases hrm.lt_or_eq with hless | hcarry
  · have hlog : rm.log2 ≤ 52 := by
      rcases Nat.eq_zero_or_pos rm with rfl | hpos
      · decide
      · exact Nat.lt_succ_iff.mp ((Nat.log2_lt hpos.ne').mpr hless)
    have hshift : (max ((rm.log2 : Int) + T - 52) (-1074) - T).toNat = 0 := by omega
    refine ⟨rm, T, rfl, fun _ => ⟨?_, hT, hlead⟩, ?_, ?_⟩
    · unfold leadingBit
      omega
    · rw [hshift]
      rfl
    · rw [hshift]
      simp
  · have hlog : rm.log2 = 53 := by rw [hcarry, Nat.log2_two_pow]
    have hshift : (max ((rm.log2 : Int) + T - 52) (-1074) - T).toNat = 1 := by omega
    refine ⟨2 ^ 52, T + 1, ?_, fun _ => ⟨by decide, by omega, .inr (by decide)⟩, ?_, ?_⟩
    · rw [hcarry, zpow_add_one₀ (by norm_num)]
      push_cast
      ring
    · rw [hshift, hcarry]
      rfl
    · rw [hshift]
      rfl

theorem represents_shiftToTargetExponent {m : Nat} {e : Int} {acc : Accuracy} {t : ℚ}
    (ht : Represents (.ofMantissaAndAccuracy m acc) t) (hpos : 0 < t)
    (hm : 52 ≤ m.log2 ∨ e ≤ -1074) :
    Represents (shiftToTargetExponent Format.binary64 m e acc).1 (t * 2 ^ e / gap (t * 2 ^ e)) ∧
      (shiftToTargetExponent Format.binary64 m e acc).2 = scaleOf (t * 2 ^ e) := by
  have hmant : (ExtendedMantissa.ofMantissaAndAccuracy m acc).mantissa = m := by
    cases acc with
    | exact => rfl
    | inexact o => cases o <;> rfl
  have hlow := ht.low
  have hhigh := ht.high
  rw [hmant] at hlow hhigh
  have hscale := scaleOf_mul_zpow hpos hlow hhigh hm
  have hgap : gap (t * 2 ^ e) = 2 ^ scaleOf (t * 2 ^ e) := by
    rw [gap, abs_of_pos (by positivity)]
  rw [shiftToTargetExponent_eq, hgap, hscale]
  generalize hT : max ((m.log2 : Int) + e - 52) (-1074) = T
  obtain ⟨n, rfl⟩ : ∃ n : Nat, T = e + n := ⟨(T - e).toNat, by omega⟩
  have hshift : (e + (n : Int) - e).toNat = n := by omega
  have hquotient : t * 2 ^ e / 2 ^ (e + (n : Int)) = t / 2 ^ n := by
    rw [zpow_add₀ (by norm_num), zpow_natCast, mul_comm t, mul_div_mul_left _ _ (by positivity)]
  rw [hshift, hquotient]
  exact ⟨ht.shiftRight n, rfl⟩

theorem exists_roundWithAccuracy (s : Sign) {m : Nat} {e : Int} {acc : Accuracy} {t : ℚ}
    (ht : Represents (.ofMantissaAndAccuracy m acc) t) (hpos : 0 < t)
    (hm : 52 ≤ m.log2 ∨ e ≤ -1074) :
    ∃ (M : Nat) (E : Int), Nearest (t * 2 ^ e) (M * 2 ^ E) ∧ (M ≠ 0 → Canonical M E) ∧
      roundWithAccuracy Format.binary64 s m e acc =
        if h : M = 0 then .zero s else .finite s M E (Nat.pos_of_ne_zero h) := by
  obtain ⟨hrep, hscale⟩ := represents_shiftToTargetExponent ht hpos hm
  have hr : 0 < t * 2 ^ e := by positivity
  have hgap : gap (t * 2 ^ e) = 2 ^ scaleOf (t * 2 ^ e) := by rw [gap, abs_of_pos hr]
  unfold roundWithAccuracy
  generalize shiftToTargetExponent Format.binary64 m e acc = shifted at *
  obtain ⟨em, T⟩ := shifted
  have hrounds := hrep.rounds
  simp only at hscale hrounds ⊢
  subst hscale
  generalize em.roundedMantissa = rm at *
  have hbits : rm ≤ 2 ^ 53 := by
    exact_mod_cast (le_abs_self _).trans hrounds.abs_mantissa_le
  have hlead := hrounds.leading hr
  obtain ⟨M, E, hvalue, hcanonical, hM, hE⟩ :=
    exists_shift_rounded hbits (le_scaleOf _) (hlead.imp_right fun h => by exact_mod_cast h)
  refine ⟨M, E, ⟨rm, hrounds, ?_⟩, hcanonical, ?_⟩
  · rw [← hvalue, hgap, Int.cast_natCast]
  · simp only [hM, hE]

/-! ## Results -/

/-- The number is the one that an operation with this exact result gives. -/
structure IsRounded (r : ℚ) (x : Float) : Prop where
  finite : |r| < overflow → x.isFinite = true ∧ Nearest r (signedValue x)
  infinite : overflow ≤ |r| → x = infinity (if r < 0 then .negative else .positive)

theorem isFinite_zero (s : Sign) : (zero s).isFinite = true := by
  rw [isFinite_iff, zero, magnitudeBits_ofMagnitude _ (Nat.zero_le _)]
  decide

theorem signedValue_zero (s : Sign) : signedValue (zero s) = 0 := by
  rw [signedValue_eq, zero, magnitudeBits_ofMagnitude _ (Nat.zero_le _)]
  simp [value, ofBits]

theorem isFinite_infinity (s : Sign) : (infinity s).isFinite = false := by
  rw [← Bool.not_eq_true, isFinite_iff, infinity, magnitudeBits_ofMagnitude _ le_rfl]
  exact lt_irrefl _

theorem nearest_signum_mul (s : Sign) {r v : ℚ} (h : Nearest r v) :
    Nearest (signum s * r) (signum s * v) := by
  cases s with
  | negative =>
    rw [signum, neg_one_mul, neg_one_mul]
    exact h.neg
  | positive => rwa [signum, one_mul, one_mul]

theorem ite_signum_mul_lt (s : Sign) {r : ℚ} (hr : 0 < r) :
    (if signum s * r < 0 then Sign.negative else Sign.positive) = s := by
  cases s with
  | negative => rw [if_pos (by rw [signum]; linarith)]
  | positive => rw [if_neg (by rw [signum]; linarith)]

theorem Canonical.lt_iff {m : Nat} {e : Int} (h : Canonical m e) :
    (m : ℚ) * 2 ^ e < 2 ^ 53 * topGap ↔ e ≤ 971 := by
  obtain ⟨hm, he, hlead⟩ := h
  constructor
  · intro hlt
    by_contra hbeyond
    have hm' : (2 : ℚ) ^ 52 ≤ m := by
      exact_mod_cast (hlead.resolve_left (by omega) : 2 ^ 52 ≤ m)
    refine absurd hlt (not_lt.mpr ?_)
    calc 2 ^ 53 * topGap
      _ = 2 ^ 52 * 2 ^ (971 + 1 : Int) := by rw [topGap, zpow_add_one₀ (by norm_num)]; ring
      _ ≤ m * 2 ^ e := by
        gcongr
        · norm_num
        · omega
  · intro hle
    have hm' : (m : ℚ) < 2 ^ 53 := by exact_mod_cast (hm : m < 2 ^ 53)
    calc (m : ℚ) * 2 ^ e
      _ < 2 ^ 53 * 2 ^ e := by gcongr
      _ ≤ 2 ^ 53 * topGap := by
        unfold topGap
        gcongr
        norm_num

theorem isRounded_ofUnpacked (s : Sign) {r : ℚ} {m : Nat} {e : Int} (hr : 0 < r)
    (hnear : Nearest r (m * 2 ^ e)) (hm : m ≠ 0 → Canonical m e) :
    IsRounded (signum s * r)
      (ofUnpacked (if h : m = 0 then .zero s else .finite s m e (Nat.pos_of_ne_zero h))) := by
  have hsigned := nearest_signum_mul s hnear
  have habs : |(m : ℚ) * 2 ^ e| = m * 2 ^ e := abs_of_nonneg (by positivity)
  have hrange := hnear.abs_lt_iff
  rw [habs] at hrange
  constructor
  · rw [abs_signum_mul, ← hrange]
    intro hlt
    by_cases hzero : m = 0
    · rw [dif_pos hzero, ofUnpacked_zero, signedValue_zero]
      refine ⟨isFinite_zero s, ?_⟩
      rwa [hzero, Nat.cast_zero, zero_mul, mul_zero] at hsigned
    · have hcanonical := hm hzero
      have he := hcanonical.lt_iff.mp hlt
      rw [dif_neg hzero, hcanonical.ofUnpacked_finite s _ he, hcanonical.signedValue_pack s he]
      exact ⟨hcanonical.isFinite_pack s he, hsigned⟩
  · rw [abs_signum_mul, ← not_lt, ← hrange, ite_signum_mul_lt s hr]
    intro hge
    have hzero : m ≠ 0 := by
      rintro rfl
      refine hge ?_
      rw [Nat.cast_zero, zero_mul]
      exact mul_pos (by norm_num) topGap_pos
    rw [dif_neg hzero]
    exact Canonical.ofUnpacked_beyond s _ (not_le.mp (mt (hm hzero).lt_iff.mpr hge))

theorem isRounded_roundWithAccuracy (s : Sign) {m : Nat} {e : Int} {acc : Accuracy} {t : ℚ}
    (ht : Represents (.ofMantissaAndAccuracy m acc) t) (hpos : 0 < t)
    (hm : 52 ≤ m.log2 ∨ e ≤ -1074) :
    IsRounded (signum s * (t * 2 ^ e))
      (ofUnpacked (roundWithAccuracy Format.binary64 s m e acc)) := by
  obtain ⟨M, E, hnear, hcanonical, heq⟩ := exists_roundWithAccuracy s ht hpos hm
  rw [heq]
  exact isRounded_ofUnpacked s (by positivity) hnear hcanonical

/-! ## Integers at a scale -/

theorem decreaseExponent_snd (m : Nat) (e t : Int) : (decreaseExponent m e t).2 = min e t := by
  unfold decreaseExponent
  simp only
  omega

theorem decreaseExponent_value (m : Nat) (e t : Int) :
    ((decreaseExponent m e t).1 : ℚ) * 2 ^ (decreaseExponent m e t).2 = m * 2 ^ e := by
  unfold decreaseExponent
  simp only [Nat.shiftLeft_eq]
  push_cast
  rw [mul_assoc, ← zpow_natCast, ← zpow_add₀ (by norm_num)]
  congr 2
  omega

theorem log2_add_le_log2_mul {m : Nat} (hm : 0 < m) (k : Nat) :
    m.log2 + k ≤ (m * 2 ^ k).log2 := by
  have hpos : 0 < m * 2 ^ k := by positivity
  rw [Nat.le_log2 hpos.ne', pow_add]
  exact Nat.mul_le_mul_right _ (Nat.log2_self_le hm.ne')

theorem isRounded_round (s : Sign) {m : Nat} (e : Int) (hm : 0 < m) :
    IsRounded (signum s * (m * 2 ^ e)) (ofUnpacked (UnpackedFloat.round Format.binary64 s m e)) := by
  unfold UnpackedFloat.round
  rw [targetExponent_eq]
  simp only
  rw [← decreaseExponent_value m e (max ((m.log2 : Int) + e - 52) (-1074))]
  apply isRounded_roundWithAccuracy s (.exact _)
  · unfold decreaseExponent
    simp only [Nat.shiftLeft_eq]
    positivity
  · have hlog := log2_add_le_log2_mul hm (e - max ((m.log2 : Int) + e - 52) (-1074)).toNat
    rw [decreaseExponent_snd]
    unfold decreaseExponent
    simp only [Nat.shiftLeft_eq]
    omega

theorem isRounded_zero (s : Sign) : IsRounded 0 (zero s) where
  finite := fun _ => by
    refine ⟨isFinite_zero s, 0, ?_, ?_⟩
    · rw [zero_div]
      exact_mod_cast Rounds.intCast 0
    · rw [signedValue_zero, Int.cast_zero, zero_mul]
  infinite := fun h => by
    rw [abs_zero] at h
    have hpos : 0 < overflow := mul_pos (by norm_num) topGap_pos
    exact absurd h (not_le.mpr hpos)

theorem isRounded_normalize (k : Int) (e : Int) (s : Sign) :
    IsRounded (k * 2 ^ e) (ofUnpacked (UnpackedFloat.normalize Format.binary64 k e s)) := by
  unfold UnpackedFloat.normalize
  rcases lt_trichotomy k 0 with hneg | rfl | hpos
  · rw [compare_lt_iff_lt.mpr hneg]
    have hround := isRounded_round .negative (m := (-k).toNat) e (by omega)
    have hcast : (((-k).toNat : Nat) : ℚ) = -k := by
      rw [← Int.cast_natCast, Int.toNat_of_nonneg (by omega), Int.cast_neg]
    rwa [hcast, signum, neg_mul, neg_mul, one_mul, neg_neg] at hround
  · rw [Int.cast_zero, zero_mul]
    exact ofUnpacked_zero s ▸ isRounded_zero s
  · rw [compare_gt_iff_gt.mpr hpos]
    have hround := isRounded_round .positive (m := k.toNat) e (by omega)
    have hcast : ((k.toNat : Nat) : ℚ) = k := by
      rw [← Int.cast_natCast, Int.toNat_of_nonneg hpos.le]
    rwa [hcast, signum, one_mul] at hround

end TableCleaner.Binary
