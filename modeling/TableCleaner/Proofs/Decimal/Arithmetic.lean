import TableCleaner.Proofs.Decimal.Rounded

/-!
# Arithmetic

A sum, a difference, a product or a quotient of finite numbers is the exact one, rounded. A square
root is rounded too; of it only the powers of two that it lies between are told.
-/

namespace TableCleaner.Binary

open Float.Model Float.Model.UnpackedFloat

variable {x y : Float}

/-! ## Parts of finite numbers -/

/-- A finite number is zero, or it has a mantissa and a scale. -/
inductive Parts (x : Float) : Prop
  | zero (h : unpacked x = .zero (sign x)) (hv : signedValue x = 0)
  | finite (m : Nat) (e : Int) (hm : 0 < m) (hc : Canonical m e) (he : e ≤ 971)
      (h : unpacked x = .finite (sign x) m e hm) (hv : signedValue x = signum (sign x) * (m * 2 ^ e))

theorem parts (hx : x.isFinite = true) : Parts x := by
  rw [isFinite_iff] at hx
  rcases Nat.eq_zero_or_pos (magnitudeBits x) with hzero | hpos
  · refine .zero (unpacked_of_zero hzero) ?_
    rw [signedValue_eq, hzero]
    simp [value, ofBits]
  · have hc := canonical_ofBits (magnitudeBits x)
    have hbits := (ofBits_ofBits (magnitudeBits x)).bits
    exact .finite _ _ _ hc (hc.bits_lt_iff.mp (by rwa [hbits])) (unpacked_of_pos hpos hx)
      (signedValue_eq x)

theorem eq_positive_of_nonneg {s : Sign} {q : ℚ} (hq : 0 < q) (h : 0 ≤ signum s * q) :
    s = .positive := by
  cases s with
  | positive => rfl
  | negative =>
    rw [signum] at h
    linarith

theorem Canonical.nearest {m : Nat} {e : Int} (h : Canonical m e) (hm : 0 < m) :
    Nearest (m * 2 ^ e) (m * 2 ^ e) := by
  have hpow : (0 : ℚ) < 2 ^ e := by positivity
  have hdiv : (m : ℚ) * 2 ^ e / 2 ^ e = m := mul_div_cancel_right₀ _ hpow.ne'
  have hpos : 0 < (m : ℚ) * 2 ^ e := by positivity
  have hgap : gap (m * 2 ^ e) = 2 ^ e := by
    rw [gap, abs_of_pos hpos, scaleOf_eq hpos h.scale]
    · rw [hdiv]
      rcases h.leading with hleast | hlead
      · exact .inl hleast
      · exact .inr (by norm_num; exact_mod_cast hlead)
    · rw [hdiv]
      norm_num
      exact_mod_cast h.mantissa
  refine ⟨m, ?_, ?_⟩
  · rw [hgap, hdiv]
    exact_mod_cast Rounds.intCast m
  · rw [hgap, Int.cast_natCast]

theorem isRounded_pack (s : Sign) {m : Nat} {e : Int} (h : Canonical m e) (hm : 0 < m)
    (he : e ≤ 971) : IsRounded (signum s * (m * 2 ^ e)) (pack s m e) := by
  have hround := isRounded_ofUnpacked s (by positivity) (h.nearest hm) fun _ => h
  rwa [dif_neg hm.ne', h.ofUnpacked_finite s hm he] at hround

theorem isRounded_self (hx : x.isFinite = true) : IsRounded (signedValue x) x := by
  have hself := ofUnpacked_unpacked x
  cases parts hx with
  | zero h hv =>
    rw [h, ofUnpacked_zero] at hself
    rw [hv, ← hself]
    exact isRounded_zero _
  | finite m e hm hc he h hv =>
    rw [h, hc.ofUnpacked_finite _ hm he] at hself
    rw [hv]
    nth_rewrite 2 [← hself]
    exact isRounded_pack _ hc hm he

/-! ## Sums and differences -/

theorem add_eq (x y : Float) :
    x + y = ofUnpacked (UnpackedFloat.add Format.binary64 (unpacked x) (unpacked y)) := rfl

theorem sub_eq (x y : Float) :
    x - y = ofUnpacked (UnpackedFloat.sub Format.binary64 (unpacked x) (unpacked y)) := rfl

theorem apply_decreaseExponent (s : Sign) (m : Nat) {e t : Int} (h : t ≤ e) :
    ((s.apply (decreaseExponent m e t).1 : Int) : ℚ) * 2 ^ t = signum s * (m * 2 ^ e) := by
  have hvalue := decreaseExponent_value m e t
  rw [decreaseExponent_snd, min_eq_right h] at hvalue
  rw [apply_eq_signum_mul, Int.cast_natCast, mul_assoc, hvalue]

theorem isRounded_add (hx : x.isFinite = true) (hy : y.isFinite = true) :
    IsRounded (signedValue x + signedValue y) (x + y) := by
  rw [add_eq]
  cases parts hx with
  | zero h hv =>
    rw [hv, zero_add]
    cases parts hy with
    | zero h' hv' =>
      rw [h, h', hv', UnpackedFloat.add]
      split <;> exact ofUnpacked_zero _ ▸ isRounded_zero _
    | finite m e hm hc he h' hv' =>
      rw [h, h', UnpackedFloat.add, ← h', ofUnpacked_unpacked]
      · exact isRounded_self hy
      all_goals simp
  | finite m e hm hc he h hv =>
    cases parts hy with
    | zero h' hv' =>
      rw [h, h', hv', add_zero, UnpackedFloat.add, ← h, ofUnpacked_unpacked]
      · exact isRounded_self hx
      all_goals simp
    | finite m' e' hm' hc' he' h' hv' =>
      have hexact : signedValue x + signedValue y =
          (((sign x).apply (decreaseExponent m e (min e e')).1 +
            (sign y).apply (decreaseExponent m' e' (min e e')).1 : Int) : ℚ) * 2 ^ min e e' := by
        rw [hv, hv', ← apply_decreaseExponent _ m (min_le_left e e'),
          ← apply_decreaseExponent _ m' (min_le_right e e'), ← add_mul, Int.cast_add]
      rw [h, h', hexact]
      exact isRounded_normalize _ _ _

theorem isRounded_sub (hx : x.isFinite = true) (hy : y.isFinite = true) :
    IsRounded (signedValue x - signedValue y) (x - y) := by
  rw [sub_eq]
  cases parts hx with
  | zero h hv =>
    rw [hv, zero_sub]
    cases parts hy with
    | zero h' hv' =>
      rw [h, h', hv', neg_zero, UnpackedFloat.sub]
      split <;> exact ofUnpacked_zero _ ▸ isRounded_zero _
    | finite m e hm hc he h' hv' =>
      rw [h, h', hv', UnpackedFloat.sub, hc.ofUnpacked_finite _ hm he, ← neg_mul, ← signum_neg]
      exact isRounded_pack _ hc hm he
  | finite m e hm hc he h hv =>
    cases parts hy with
    | zero h' hv' =>
      rw [h, h', hv', sub_zero, UnpackedFloat.sub, ← h, ofUnpacked_unpacked]
      · exact isRounded_self hx
      all_goals simp
    | finite m' e' hm' hc' he' h' hv' =>
      have hexact : signedValue x - signedValue y =
          (((sign x).apply (decreaseExponent m e (min e e')).1 -
            (sign y).apply (decreaseExponent m' e' (min e e')).1 : Int) : ℚ) * 2 ^ min e e' := by
        rw [hv, hv', ← apply_decreaseExponent _ m (min_le_left e e'),
          ← apply_decreaseExponent _ m' (min_le_right e e'), ← sub_mul, Int.cast_sub]
      rw [h, h', hexact]
      exact isRounded_normalize _ _ _

/-! ## Products -/

theorem mul_eq (x y : Float) :
    x * y = ofUnpacked (UnpackedFloat.mul Format.binary64 (unpacked x) (unpacked y)) := rfl

theorem Canonical.log2_mul {m m' : Nat} {e e' : Int} (h : Canonical m e) (h' : Canonical m' e')
    (hm : 0 < m) (hm' : 0 < m') : 52 ≤ (m * m').log2 ∨ e + e' ≤ -1074 := by
  have hpos : 0 < m * m' := Nat.mul_pos hm hm'
  rw [Nat.le_log2 hpos.ne']
  change leadingBit ≤ m * m' ∨ _
  rcases h.leading with hleast | hlead
  · rcases h'.leading with hleast' | hlead'
    · right
      omega
    · exact .inl (hlead'.trans (Nat.le_mul_of_pos_left _ hm))
  · exact .inl (hlead.trans (Nat.le_mul_of_pos_right _ hm'))

theorem isRounded_mul (hx : x.isFinite = true) (hy : y.isFinite = true) :
    IsRounded (signedValue x * signedValue y) (x * y) := by
  rw [mul_eq]
  cases parts hx with
  | zero h hv =>
    rw [hv, zero_mul]
    cases parts hy with
    | zero h' => rw [h, h']; exact ofUnpacked_zero _ ▸ isRounded_zero _
    | finite m e hm hc he h' => rw [h, h']; exact ofUnpacked_zero _ ▸ isRounded_zero _
  | finite m e hm hc he h hv =>
    cases parts hy with
    | zero h' hv' =>
      rw [h, h', hv', mul_zero]
      exact ofUnpacked_zero _ ▸ isRounded_zero _
    | finite m' e' hm' hc' he' h' hv' =>
      have hexact : signedValue x * signedValue y =
          signum (sign x * sign y) * ((m * m' : Nat) * 2 ^ (e + e')) := by
        rw [hv, hv', signum_mul, zpow_add₀ (by norm_num)]
        push_cast
        ring
      rw [h, h', hexact]
      exact isRounded_roundWithAccuracy _ (.exact _) (by positivity) (hc.log2_mul hc' hm hm')

/-! ## Quotients -/

theorem div_eq (x y : Float) :
    x / y = ofUnpacked (UnpackedFloat.div Format.binary64 (unpacked x) (unpacked y)) := rfl

theorem compare_rest (q : ℚ) (n : Nat) {d : Nat} (hd : 0 < d) :
    compare (2 * n) d = compare (q + n / d) (q + 1 / 2) := by
  have hd' : (0 : ℚ) < d := by exact_mod_cast hd
  rcases lt_trichotomy (2 * n) d with h | h | h
  · have h' : (2 * n : ℚ) < d := by exact_mod_cast h
    rw [compare_lt_iff_lt.mpr h, eq_comm, compare_lt_iff_lt, add_lt_add_iff_left, div_lt_iff₀ hd']
    linarith
  · have h' : (2 * n : ℚ) = d := by exact_mod_cast h
    rw [compare_eq_iff_eq.mpr h, eq_comm, compare_eq_iff_eq, add_right_inj, div_eq_iff hd'.ne']
    linarith
  · have h' : (d : ℚ) < 2 * n := by exact_mod_cast h
    rw [compare_gt_iff_gt.mpr h, eq_comm, compare_gt_iff_gt, add_lt_add_iff_left, lt_div_iff₀ hd']
    linarith

theorem Represents.div (n : Nat) {d : Nat} (hd : 0 < d) :
    Represents (.ofMantissaAndAccuracy (n / d) (accuracyOfFraction (n % d) d)) (n / d : ℚ) := by
  have hd' : (0 : ℚ) < d := by exact_mod_cast hd
  have hdiv : (n : ℚ) / d = (n / d : Nat) + (n % d : Nat) / d := by
    rw [eq_comm, ← eq_sub_iff_add_eq', div_eq_iff hd'.ne', sub_mul, div_mul_cancel₀ _ hd'.ne',
      eq_sub_iff_add_eq', mul_comm]
    exact_mod_cast Nat.div_add_mod n d
  have hmod : ((n % d : Nat) : ℚ) < d := by exact_mod_cast Nat.mod_lt n hd
  unfold accuracyOfFraction
  rw [hdiv]
  split
  · rename_i hzero
    rw [hzero, Nat.cast_zero, zero_div, add_zero]
    exact .exact _
  · rename_i hne
    have hpos : (0 : ℚ) < (n % d : Nat) := by exact_mod_cast Nat.pos_of_ne_zero hne
    rw [compare_rest (n / d : Nat) (n % d) hd]
    apply Represents.inexact
    · linarith [div_pos hpos hd']
    · linarith [(div_lt_one hd').mpr hmod]

theorem log2_div {m m' : Nat} (e t : Int) (hm : 0 < m) (hm' : 0 < m')
    (ht : t ≤ max ((m.log2 : Int) - m'.log2 + e - 53) (-1074)) :
    52 ≤ (m <<< (e - t).toNat / m').log2 ∨ t ≤ -1074 := by
  rcases le_or_gt t (-1074) with hleast | hmore
  · exact .inr hleast
  left
  have hshift : 53 + m'.log2 ≤ m.log2 + (e - t).toNat := by omega
  have hquotient : 2 ^ 52 ≤ m <<< (e - t).toNat / m' := by
    rw [Nat.le_div_iff_mul_le hm', Nat.shiftLeft_eq]
    calc 2 ^ 52 * m'
      _ ≤ 2 ^ 52 * 2 ^ (m'.log2 + 1) := Nat.mul_le_mul_left _ Nat.lt_log2_self.le
      _ = 2 ^ (53 + m'.log2) := by rw [← pow_add]; congr 1; omega
      _ ≤ 2 ^ (m.log2 + (e - t).toNat) := Nat.pow_le_pow_right (by norm_num) hshift
      _ = 2 ^ m.log2 * 2 ^ (e - t).toNat := pow_add _ _ _
      _ ≤ m * 2 ^ (e - t).toNat := Nat.mul_le_mul_right _ (Nat.log2_self_le hm.ne')
  rw [Nat.le_log2 (Nat.pos_of_ne_zero (by omega)).ne']
  exact hquotient

theorem isRounded_divCore (s : Sign) {m m' : Nat} {e e' : Int} (hm : 0 < m) (hm' : 0 < m') :
    IsRounded (signum s * (m * 2 ^ e / (m' * 2 ^ e')))
      (ofUnpacked
        (match divCore Format.binary64 m e m' e' with
        | (n, t, acc) => roundWithAccuracy Format.binary64 s n t acc)) := by
  unfold divCore
  have hexponent : Format.binary64.targetExponent (totalExponent m e - totalExponent m' e') =
      max ((m.log2 : Int) - m'.log2 + (e - e') - 53) (-1074) := by
    have hbits : Format.binary64.mantissaBits = 53 := rfl
    have hmin : Format.binary64.minExponent = -1074 := by decide
    rw [Format.targetExponent, hbits, hmin, totalExponent, totalExponent]
    congr 1
    push_cast
    ring
  simp only [hexponent]
  generalize ht : min (e - e') (max ((m.log2 : Int) - m'.log2 + (e - e') - 53) (-1074)) = t
  have hm'' : (0 : ℚ) < m' := by exact_mod_cast hm'
  have hexact : (m : ℚ) * 2 ^ e / (m' * 2 ^ e') = (m <<< (e - e' - t).toNat : Nat) / m' * 2 ^ t := by
    have hpow : (2 : ℚ) ^ e / 2 ^ e' = 2 ^ (e - e' - t).toNat * 2 ^ t := by
      rw [← zpow_sub₀ (by norm_num), ← zpow_natCast, ← zpow_add₀ (by norm_num)]
      congr 1
      omega
    rw [mul_div_mul_comm, hpow, Nat.shiftLeft_eq]
    push_cast
    ring
  rw [hexact]
  refine isRounded_roundWithAccuracy s (.div _ hm') ?_ (log2_div _ _ hm hm' (by omega))
  rw [Nat.shiftLeft_eq]
  positivity

theorem isRounded_div (hx : x.isFinite = true) (hy : y.isFinite = true)
    (hne : signedValue y ≠ 0) : IsRounded (signedValue x / signedValue y) (x / y) := by
  rw [div_eq]
  cases parts hy with
  | zero h' hv' => exact absurd hv' hne
  | finite m' e' hm' hc' he' h' hv' =>
    cases parts hx with
    | zero h hv =>
      rw [h, h', hv, zero_div]
      exact ofUnpacked_zero _ ▸ isRounded_zero _
    | finite m e hm hc he h hv =>
      have hexact : signedValue x / signedValue y =
          signum (sign x / sign y) * (m * 2 ^ e / (m' * 2 ^ e')) := by
        rw [hv, hv', signum_div, mul_div_mul_comm]
      rw [h, h', hexact]
      exact isRounded_divCore _ hm hm'

/-! ## Square roots -/

theorem sqrt_eq (x : Float) :
    x.sqrt = ofUnpacked (UnpackedFloat.sqrt Format.binary64 (unpacked x)) := rfl

/-- The number lies between the same powers of two as the square root of the value. -/
def IsNearSqrt (q r : ℚ) : Prop :=
  ∀ k : ℤ, (2 ^ (2 * k) ≤ q → 2 ^ k ≤ r) ∧ (q < 2 ^ (2 * k) → r ≤ 2 ^ k)

theorem two_zpow_two_mul (k : ℤ) : (2 : ℚ) ^ (2 * k) = 2 ^ k * 2 ^ k := by
  rw [two_mul, zpow_add₀ (by norm_num)]

theorem isNearSqrt_mul {n : Nat} {r : ℚ} (t : ℤ) (hn : 0 < n) (hlow : n.sqrt ≤ r)
    (hhigh : r < n.sqrt + 1) : IsNearSqrt (n * 2 ^ (2 * t)) (r * 2 ^ t) := by
  have hroot : 1 ≤ n.sqrt := Nat.le_sqrt.mpr hn
  have hroot' : (1 : ℚ) ≤ n.sqrt := by exact_mod_cast hroot
  have hn' : (1 : ℚ) ≤ n := by exact_mod_cast hn
  intro k
  rcases le_or_gt t k with hk | hk
  · obtain ⟨j, rfl⟩ : ∃ j : ℕ, k = t + j := ⟨(k - t).toNat, by omega⟩
    have hpow : (2 : ℚ) ^ (t + j) = 2 ^ j * 2 ^ t := by
      rw [zpow_add₀ (by norm_num), zpow_natCast, mul_comm]
    have hsquare : (2 : ℚ) ^ (2 * (t + (j : ℤ))) = (2 ^ j * 2 ^ j : ℕ) * 2 ^ (2 * t) := by
      rw [two_zpow_two_mul, two_zpow_two_mul, hpow]
      push_cast
      ring
    rw [hsquare, hpow, mul_le_mul_iff_left₀ (by positivity), mul_lt_mul_iff_left₀ (by positivity),
      mul_le_mul_iff_left₀ (by positivity), mul_le_mul_iff_left₀ (by positivity), Nat.cast_le,
      Nat.cast_lt, ← Nat.le_sqrt, ← Nat.sqrt_lt]
    constructor
    · intro h
      exact le_trans (by exact_mod_cast h) hlow
    · intro h
      exact hhigh.le.trans (by exact_mod_cast h)
  · have hpow : (2 : ℚ) ^ k ≤ 2 ^ t := zpow_le_zpow_right₀ (by norm_num) hk.le
    have hsquare : (2 : ℚ) ^ (2 * k) ≤ 2 ^ (2 * t) := zpow_le_zpow_right₀ (by norm_num) (by omega)
    have hpos : (0 : ℚ) < 2 ^ t := by positivity
    have hpos' : (0 : ℚ) < 2 ^ (2 * t) := by positivity
    constructor
    · intro _
      nlinarith
    · intro h
      nlinarith

/-- Some number in the same half between two integers has the accuracy that is told of a root. -/
theorem exists_represents_sqrt (n : Nat) :
    ∃ r : ℚ, n.sqrt ≤ r ∧ r < n.sqrt + 1 ∧
      Represents (.ofMantissaAndAccuracy n.sqrt
        (if n - n.sqrt * n.sqrt = 0 then .exact
          else .inexact (if n - n.sqrt * n.sqrt ≤ n.sqrt then .lt else .gt))) r := by
  split
  · exact ⟨n.sqrt, le_rfl, by linarith, .exact _⟩
  · split
    · refine ⟨n.sqrt + 1 / 4, by linarith, by linarith, ?_⟩
      have hcompare : compare ((n.sqrt : ℚ) + 1 / 4) (n.sqrt + 1 / 2) = .lt :=
        compare_lt_iff_lt.mpr (by linarith)
      exact hcompare ▸ Represents.inexact (by linarith) (by linarith)
    · refine ⟨n.sqrt + 3 / 4, by linarith, by linarith, ?_⟩
      have hcompare : compare ((n.sqrt : ℚ) + 3 / 4) (n.sqrt + 1 / 2) = .gt :=
        compare_gt_iff_gt.mpr (by linarith)
      exact hcompare ▸ Represents.inexact (by linarith) (by linarith)

theorem log2_sqrt {m : Nat} {e t : Int} (hm : 0 < m)
    (ht : t ≤ max (((m.log2 : Int) + 2 + e) / 2 - 53) (-1074)) :
    52 ≤ (m <<< (e - 2 * t).toNat).sqrt.log2 ∨ t ≤ -1074 := by
  rcases le_or_gt t (-1074) with hleast | hmore
  · exact .inr hleast
  left
  have hshift : 104 ≤ m.log2 + (e - 2 * t).toNat := by omega
  have hroot : 2 ^ 52 ≤ (m <<< (e - 2 * t).toNat).sqrt := by
    rw [Nat.le_sqrt, Nat.shiftLeft_eq]
    calc 2 ^ 52 * 2 ^ 52
      _ = 2 ^ 104 := by norm_num
      _ ≤ 2 ^ (m.log2 + (e - 2 * t).toNat) := Nat.pow_le_pow_right (by norm_num) hshift
      _ = 2 ^ m.log2 * 2 ^ (e - 2 * t).toNat := pow_add _ _ _
      _ ≤ m * 2 ^ (e - 2 * t).toNat := Nat.mul_le_mul_right _ (Nat.log2_self_le hm.ne')
  rw [Nat.le_log2 (by omega)]
  exact hroot

theorem exists_isRounded_sqrtCore {m : Nat} (e : Int) (hm : 0 < m) :
    ∃ r : ℚ, 0 < r ∧ IsNearSqrt (m * 2 ^ e) r ∧
      IsRounded r (ofUnpacked
        (match sqrtCore Format.binary64 m e with
        | (n, t, acc) => roundWithAccuracy Format.binary64 .positive n t acc)) := by
  unfold sqrtCore
  have hexponent : Format.binary64.targetExponent ((totalExponent m e + 1).ediv 2) =
      max (((m.log2 : Int) + 2 + e) / 2 - 53) (-1074) := by
    have hbits : Format.binary64.mantissaBits = 53 := rfl
    have hmin : Format.binary64.minExponent = -1074 := by decide
    rw [Format.targetExponent, hbits, hmin, totalExponent]
    change max (((m.log2 : Int) + 1 + e + 1) / 2 - 53) (-1074) = _
    omega
  simp only [hexponent]
  have hhalf : e.ediv 2 = e / 2 := rfl
  rw [hhalf]
  generalize ht : min (e / 2) (max (((m.log2 : Int) + 2 + e) / 2 - 53) (-1074)) = t
  have hn : 0 < m <<< (e - 2 * t).toNat := by
    rw [Nat.shiftLeft_eq]
    positivity
  have hexact : (m : ℚ) * 2 ^ e = (m <<< (e - 2 * t).toNat : Nat) * 2 ^ (2 * t) := by
    rw [Nat.shiftLeft_eq]
    push_cast
    rw [mul_assoc, ← zpow_natCast, ← zpow_add₀ (by norm_num)]
    congr 2
    omega
  obtain ⟨r, hlow, hhigh, hrep⟩ := exists_represents_sqrt (m <<< (e - 2 * t).toNat)
  have hroot : (1 : ℚ) ≤ (m <<< (e - 2 * t).toNat).sqrt := by
    exact_mod_cast Nat.le_sqrt.mpr hn
  have hpos : 0 < r := by linarith
  refine ⟨r * 2 ^ t, by positivity, ?_, ?_⟩
  · rw [hexact]
    exact isNearSqrt_mul t hn hlow hhigh
  · have hround := isRounded_roundWithAccuracy .positive hrep hpos (log2_sqrt hm (by omega))
    rwa [signum, one_mul] at hround

theorem exists_isRounded_sqrt (hx : x.isFinite = true) (hpos : 0 < signedValue x) :
    ∃ r : ℚ, 0 < r ∧ IsNearSqrt (signedValue x) r ∧ IsRounded r x.sqrt := by
  rw [sqrt_eq]
  cases parts hx with
  | zero h hv => exact absurd hv hpos.ne'
  | finite m e hm hc he h hv =>
    have hsign : sign x = .positive := eq_positive_of_nonneg (by positivity) (hv ▸ hpos.le)
    rw [h, hv, hsign, signum, one_mul]
    exact exists_isRounded_sqrtCore e hm

end TableCleaner.Binary
