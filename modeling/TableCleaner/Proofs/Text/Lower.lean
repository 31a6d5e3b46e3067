import TableCleaner.Proofs.Text.Trim
import TableCleaner.Text.Lowercase

/-!
# Lowered texts

No character that lowering writes can be lowered again, so a lowered text stays as it is. Lowering
writes at least one character for each, and blanks for blanks only.
-/

namespace TableCleaner.Text

/-! ## Runs of code points -/

namespace CaseRun

/-- The code points that the run is lowered to. -/
def image (r : CaseRun) : CaseRun :=
  ⟨(r.first + r.offset).toNat, (r.last + r.offset).toNat, r.step, 0⟩

/-- A sign that no code point is in both runs: one ends before the other begins, or the steps of
one fall between those of the other. -/
def isApart (p q : CaseRun) : Bool :=
  Nat.ble (p.last + 1) q.first || (Nat.ble (q.last + 1) p.first ||
    (Nat.ble q.first p.first && (Nat.beq p.first p.last || Nat.beq (p.step % q.step) 0) &&
      !Nat.beq ((p.first - q.first) % q.step) 0))

variable {p q r : CaseRun} {n : Nat}

theorem holds_iff : r.holds n = true ↔ (r.first ≤ n ∧ n ≤ r.last) ∧ r.step ∣ n - r.first := by
  simp [holds, Nat.dvd_iff_mod_eq_zero]

theorem not_holds_of_isApart (h : p.isApart q = true) (hp : p.holds n = true) :
    q.holds n = false := by
  obtain ⟨⟨hlow, hhigh⟩, hstep⟩ := holds_iff.mp hp
  rw [← Bool.not_eq_true, holds_iff]
  rintro ⟨⟨hlow', hhigh'⟩, hstep'⟩
  simp only [isApart, Bool.or_eq_true, Bool.and_eq_true, Nat.ble_eq, Nat.beq_eq,
    Bool.not_eq_true', ← Bool.not_eq_true] at h
  rcases h with h | h | ⟨⟨hfirst, hdvd⟩, hbetween⟩
  · omega
  · omega
  · -- A common code point is a whole number of steps of `q` from both first ones.
    apply hbetween
    rw [← Nat.dvd_iff_mod_eq_zero]
    have hsum : n - q.first = (n - p.first) + (p.first - q.first) := by omega
    have hsteps : q.step ∣ n - p.first := by
      rcases hdvd with hsingle | hdvd
      · have hzero : n - p.first = 0 := by omega
        rw [hzero]
        exact Nat.dvd_zero _
      · exact Nat.dvd_trans (Nat.dvd_of_mod_eq_zero hdvd) hstep
    rw [hsum] at hstep'
    exact (Nat.dvd_add_iff_right hsteps).mpr hstep'

theorem holds_image (hfirst : 0 ≤ r.first + r.offset) (h : r.holds n = true) :
    r.image.holds (n + r.offset).toNat = true := by
  rw [holds_iff] at h ⊢
  obtain ⟨⟨hlow, hhigh⟩, hstep⟩ := h
  have hshift : (n + r.offset).toNat - r.image.first = n - r.first := by
    simp only [image]
    omega
  rw [hshift]
  refine ⟨?_, hstep⟩
  simp only [image]
  omega

end CaseRun

/-- The blanks, as runs. -/
def blankRuns : List CaseRun :=
  [⟨9, 13, 1, 0⟩, ⟨0x20, 0x20, 1, 0⟩, ⟨0x85, 0x85, 1, 0⟩, ⟨0xA0, 0xA0, 1, 0⟩,
    ⟨0x1680, 0x1680, 1, 0⟩, ⟨0x2000, 0x200A, 1, 0⟩, ⟨0x2028, 0x2029, 1, 0⟩,
    ⟨0x202F, 0x202F, 1, 0⟩, ⟨0x205F, 0x205F, 1, 0⟩, ⟨0x3000, 0x3000, 1, 0⟩]

/-- The capital I with a dot, as a run. -/
def dottedRun : CaseRun := ⟨0x130, 0x130, 1, 0⟩

theorem isBlank_iff {c : Char} : isBlank c = true ↔ ∃ b ∈ blankRuns, b.holds c.toNat = true := by
  simp [isBlank, blankRuns, CaseRun.holds, Nat.mod_one]
  omega

/-- What the table has to show of a run: no code point of its image can be lowered again, blanks are
neither lowered nor lowered to, and only the run of the ASCII letters has ASCII characters. -/
structure CaseRun.Lowers (r : CaseRun) : Prop where
  first_nonneg : 0 ≤ r.first + r.offset
  ascii : r = ⟨0x41, 0x5A, 1, 32⟩ ∨ 0x80 ≤ r.first
  blank : ∀ b ∈ blankRuns, r.isApart b = true
  image_blank : ∀ b ∈ blankRuns, r.image.isApart b = true
  image_dotted : r.image.isApart dottedRun = true
  image_lowers : ∀ q ∈ lowerRuns.toList, r.image.isApart q = true

theorem lowers_of_mem_lowerRuns : ∀ r ∈ lowerRuns.toList, r.Lowers := by
  have hall : lowerRuns.toList.all (fun r =>
      decide (0 ≤ r.first + r.offset) && (decide (r = ⟨0x41, 0x5A, 1, 32⟩) || Nat.ble 0x80 r.first) &&
      blankRuns.all r.isApart && blankRuns.all r.image.isApart && r.image.isApart dottedRun &&
      lowerRuns.toList.all r.image.isApart) = true := by
    decide +kernel
  intro r hr
  have hchecks := List.all_eq_true.mp hall r hr
  simp only [Bool.and_eq_true, Bool.or_eq_true, decide_eq_true_eq, Nat.ble_eq,
    List.all_eq_true] at hchecks
  obtain ⟨⟨⟨⟨⟨hfirst, hascii⟩, hblank⟩, himage⟩, hdotted⟩, hlowers⟩ := hchecks
  exact ⟨hfirst, hascii, hblank, himage, hdotted, hlowers⟩

/-! ## Characters -/

/-- Lowering leaves the character as it is. -/
def isLow (c : Char) : Bool :=
  !dottedRun.holds c.toNat && lowerRuns.toList.all fun r => !r.holds c.toNat

variable {c : Char}

theorem isLow_iff : isLow c = true ↔
    dottedRun.holds c.toNat = false ∧ ∀ r ∈ lowerRuns.toList, r.holds c.toNat = false := by
  simp only [isLow, Bool.and_eq_true, Bool.not_eq_true', List.all_eq_true]

theorem isLow_of_isBlank (h : isBlank c = true) : isLow c = true := by
  obtain ⟨b, hb, hc⟩ := isBlank_iff.mp h
  rw [isLow_iff]
  constructor
  · have hdotted : ∀ b ∈ blankRuns, b.isApart dottedRun = true := by decide
    exact CaseRun.not_holds_of_isApart (hdotted b hb) hc
  · intro r hr
    rw [Bool.eq_false_iff]
    intro hholds
    have hnot := CaseRun.not_holds_of_isApart ((lowers_of_mem_lowerRuns r hr).blank b hb) hholds
    rw [hc] at hnot
    cases hnot

theorem lowerChar_cases (c : Char) :
    (lowerChar c = c ∧ ∀ r ∈ lowerRuns.toList, r.holds c.toNat = false) ∨
      ∃ r ∈ lowerRuns.toList, r.holds c.toNat = true ∧
        lowerChar c = Char.ofNat (c.toNat + r.offset).toNat := by
  unfold lowerChar
  rw [← Array.find?_toList]
  cases hfind : lowerRuns.toList.find? (·.holds c.toNat) with
  | none => exact .inl ⟨rfl, by simpa using hfind⟩
  | some r =>
    have hholds := List.find?_some hfind
    exact .inr ⟨r, List.mem_of_find?_eq_some hfind, hholds, rfl⟩

theorem lowerChar_of_isLow (h : isLow c = true) : lowerChar c = c := by
  rcases lowerChar_cases c with ⟨hsame, -⟩ | ⟨r, hr, hholds, -⟩
  · exact hsame
  · rw [(isLow_iff.mp h).2 r hr] at hholds
    cases hholds

theorem toNat_ofNat_cases (n : Nat) : (Char.ofNat n).toNat = n ∨ Char.ofNat n = Char.ofNat 0 := by
  by_cases hvalid : n.isValidChar
  · have hchar : Char.ofNat n = Char.ofNatAux n hvalid := dif_pos hvalid
    exact .inl (congrArg Char.toNat hchar)
  · exact .inr (dif_neg hvalid)

theorem isLow_ofNat_zero : isLow (Char.ofNat 0) = true := by
  decide +kernel

theorem isLow_lowerChar (hdotted : dottedRun.holds c.toNat = false) : isLow (lowerChar c) = true := by
  rcases lowerChar_cases c with ⟨hsame, hlow⟩ | ⟨r, hr, hholds, himage⟩
  · rw [hsame, isLow_iff]
    exact ⟨hdotted, hlow⟩
  · have hr' := lowers_of_mem_lowerRuns r hr
    rw [himage]
    rcases toNat_ofNat_cases (c.toNat + r.offset).toNat with hn | hzero
    · have hmem := CaseRun.holds_image hr'.first_nonneg hholds
      rw [isLow_iff, hn]
      exact ⟨CaseRun.not_holds_of_isApart hr'.image_dotted hmem, fun q hq =>
        CaseRun.not_holds_of_isApart (hr'.image_lowers q hq) hmem⟩
    · rw [hzero, isLow_ofNat_zero]

theorem isBlank_lowerChar (h : isBlank c = false) : isBlank (lowerChar c) = false := by
  rcases lowerChar_cases c with ⟨hsame, -⟩ | ⟨r, hr, hholds, himage⟩
  · rw [hsame, h]
  · have hr' := lowers_of_mem_lowerRuns r hr
    rw [himage]
    rcases toNat_ofNat_cases (c.toNat + r.offset).toNat with hn | hzero
    · rw [Bool.eq_false_iff]
      intro hblank
      obtain ⟨b, hb, hc⟩ := isBlank_iff.mp hblank
      rw [hn, CaseRun.not_holds_of_isApart (hr'.image_blank b hb)
        (CaseRun.holds_image hr'.first_nonneg hholds)] at hc
      cases hc
    · rw [hzero]
      decide

theorem toLower_of_isUpper (h : 0x41 ≤ c.toNat ∧ c.toNat ≤ 0x5A) :
    c.toLower = Char.ofNat (c.toNat + 32) := by
  have hupper : c.val ≥ 'A'.val ∧ c.val ≤ 'Z'.val := h
  have hsum : (c.val + ('a'.val - 'A'.val)).toNat = c.toNat + 32 := by
    have hoffset : ('a'.val - 'A'.val).toNat = 32 := rfl
    have hlast : c.val.toNat ≤ 0x5A := h.2
    rw [UInt32.toNat_add, hoffset]
    exact Nat.mod_eq_of_lt (by omega)
  rw [← hsum]
  exact (dif_pos hupper).trans (Char.ofNat_toNat _).symm

theorem toLower_eq_lowerChar (h : c.toNat < 0x80) : c.toLower = lowerChar c := by
  have hletters : (⟨0x41, 0x5A, 1, 32⟩ : CaseRun) ∈ lowerRuns.toList := by decide +kernel
  rcases lowerChar_cases c with ⟨hsame, hlow⟩ | ⟨r, hr, hholds, himage⟩
  · have hnot : ¬(c.val ≥ 'A'.val ∧ c.val ≤ 'Z'.val) := by
      intro hletter
      have hfalse := hlow _ hletters
      rw [CaseRun.holds_iff.mpr ⟨hletter, Nat.one_dvd _⟩] at hfalse
      cases hfalse
    rw [hsame]
    exact dif_neg hnot
  · obtain ⟨hletter, -⟩ := CaseRun.holds_iff.mp hholds
    rcases (lowers_of_mem_lowerRuns r hr).ascii with rfl | habove
    · rw [himage, toLower_of_isUpper hletter]
      rfl
    · omega

/-! ## Texts -/

/-- What lowering may write for one character of a text. -/
structure IsLowered (c : Char) (low : List Char) : Prop where
  ne_nil : low ≠ []
  isLow : ∀ d ∈ low, isLow d = true
  isBlank : ∀ d ∈ low, isBlank d = isBlank c
  same : Text.isLow c = true → low = [c]

namespace IsLowered

variable {low : List Char}

theorem beginsBlank (h : IsLowered c low) : BeginsBlank low ↔ Text.isBlank c = true := by
  obtain ⟨d, rest, rfl⟩ := List.exists_cons_of_ne_nil h.ne_nil
  rw [beginsBlank_cons, h.isBlank d List.mem_cons_self]

theorem endsBlank (h : IsLowered c low) : EndsBlank low ↔ Text.isBlank c = true := by
  rw [← h.isBlank _ (List.getLast_mem h.ne_nil)]
  simp [EndsBlank, List.getLast?_eq_some_getLast h.ne_nil]

end IsLowered

theorem isLowered_sigma (final : Bool) : IsLowered 'Σ' [if final then 'ς' else 'σ'] := by
  have hcapital : isLow 'Σ' = false := by decide +kernel
  have hsmall : isLow (if final then 'ς' else 'σ') = true := by
    cases final <;> decide +kernel
  refine ⟨List.cons_ne_nil _ _, by simpa using hsmall, ?_, by simp [hcapital]⟩
  cases final <;> simp [Text.isBlank]

theorem isLowered_dotted : IsLowered 'İ' ['i', '\u0307'] := by
  have hcapital : isLow 'İ' = false := by decide +kernel
  have hsmall : isLow 'i' = true := by decide +kernel
  have hdot : isLow '\u0307' = true := by decide +kernel
  exact ⟨List.cons_ne_nil _ _, by simp [hsmall, hdot], by simp [Text.isBlank], by simp [hcapital]⟩

theorem isLowered_lowerChar (h : c ≠ 'İ') : IsLowered c [lowerChar c] := by
  have hdotted : dottedRun.holds c.toNat = false := by
    rw [Bool.eq_false_iff, ne_eq, CaseRun.holds_iff]
    rintro ⟨⟨hfirst, hlast⟩, -⟩
    exact h (Char.toNat_inj.mp (Nat.le_antisymm hlast hfirst))
  have hblank : isBlank (lowerChar c) = isBlank c := by
    cases hc : isBlank c with
    | false => exact isBlank_lowerChar hc
    | true => rw [lowerChar_of_isLow (isLow_of_isBlank hc), hc]
  exact ⟨List.cons_ne_nil _ _, by simpa using isLow_lowerChar hdotted, by simpa using hblank,
    fun hlow => by rw [lowerChar_of_isLow hlow]⟩

theorem exists_isLowered (before : List Char) (c : Char) (s : List Char) :
    ∃ low, IsLowered c low ∧ lowerAfter before (c :: s) = low ++ lowerAfter (c :: before) s := by
  refine ⟨_, ?_, rfl⟩
  by_cases hsigma : c = 'Σ'
  · rw [if_pos hsigma, hsigma]
    exact isLowered_sigma _
  rw [if_neg hsigma]
  by_cases hdotted : c = 'İ'
  · rw [if_pos hdotted, hdotted]
    exact isLowered_dotted
  rw [if_neg hdotted]
  by_cases hascii : c.toNat < 0x80
  · rw [if_pos hascii, toLower_eq_lowerChar hascii]
    exact isLowered_lowerChar hdotted
  · rw [if_neg hascii]
    exact isLowered_lowerChar hdotted

variable {s : List Char}

-- A sigma looks at what stands before it, so the inductions are for every such text.

theorem lowerAfter_of_isLow (before : List Char) (h : ∀ c ∈ s, isLow c = true) :
    lowerAfter before s = s := by
  induction s generalizing before with
  | nil => rfl
  | cons c s ih =>
    obtain ⟨low, hlow, happ⟩ := exists_isLowered before c s
    rw [happ, hlow.same (h c List.mem_cons_self), ih _ fun d hd => h d (List.mem_cons_of_mem c hd),
      List.singleton_append]

theorem isLow_of_mem_lowerAfter (before : List Char) : ∀ d ∈ lowerAfter before s, isLow d = true := by
  induction s generalizing before with
  | nil => intro d hd; cases hd
  | cons c s ih =>
    obtain ⟨low, hlow, happ⟩ := exists_isLowered before c s
    rw [happ]
    intro d hd
    rcases List.mem_append.mp hd with hd | hd
    · exact hlow.isLow d hd
    · exact ih _ d hd

theorem lower_of_isLow (h : ∀ c ∈ s, isLow c = true) : lower s = s := lowerAfter_of_isLow [] h

theorem isLow_of_mem_lower : ∀ d ∈ lower s, isLow d = true := isLow_of_mem_lowerAfter []

theorem beginsBlank_lower : BeginsBlank (lower s) ↔ BeginsBlank s := by
  cases s with
  | nil => rfl
  | cons c s =>
    obtain ⟨low, hlow, happ⟩ := exists_isLowered [] c s
    rw [lower, happ, beginsBlank_append hlow.ne_nil, hlow.beginsBlank, beginsBlank_cons]

theorem lowerAfter_ne_nil (before : List Char) (h : s ≠ []) : lowerAfter before s ≠ [] := by
  obtain ⟨c, s, rfl⟩ := List.exists_cons_of_ne_nil h
  obtain ⟨low, hlow, happ⟩ := exists_isLowered before c s
  rw [happ]
  exact List.append_ne_nil_of_left_ne_nil hlow.ne_nil _

theorem endsBlank_lowerAfter (before : List Char) : EndsBlank (lowerAfter before s) ↔ EndsBlank s := by
  induction s generalizing before with
  | nil => rfl
  | cons c s ih =>
    obtain ⟨low, hlow, happ⟩ := exists_isLowered before c s
    rw [happ]
    by_cases hnil : s = []
    · subst hnil
      rw [lowerAfter, List.append_nil, hlow.endsBlank]
      simp [EndsBlank]
    · rw [endsBlank_append (lowerAfter_ne_nil _ hnil), ih, ← List.singleton_append,
        endsBlank_append hnil]

theorem endsBlank_lower : EndsBlank (lower s) ↔ EndsBlank s := endsBlank_lowerAfter []

end TableCleaner.Text
