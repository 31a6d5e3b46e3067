import Mathlib.Data.List.Chain
import TableCleaner.Operation.CleanText
import TableCleaner.Proofs.Text.Lower

/-!
# Cleaned texts

Each part of the cleaning leaves a text as it is once it has cleaned it, and no later part undoes
what lowering, removing or collapsing did. Trimming comes first, so the removal of special
characters can bring a blank to an end again.
-/

namespace TableCleaner.Text

variable {s : List Char} {c : Char} {flags : CleanFlags}

/-! ## Collapsed blanks -/

/-- Every blank is a space, and no two stand side by side. -/
structure IsCollapsed (s : List Char) : Prop where
  space : ∀ c ∈ s, isBlank c = true → c = ' '
  apart : s.IsChain fun c d => isBlank c = true → isBlank d = false

theorem isCollapsed_cons : IsCollapsed (c :: s) ↔
    (isBlank c = true → c = ' ' ∧ StopsAt isBlank s) ∧ IsCollapsed s := by
  constructor
  · rintro ⟨hspace, hapart⟩
    rw [List.isChain_cons] at hapart
    exact ⟨fun hc => ⟨hspace c List.mem_cons_self hc, fun d hd => hapart.1 d hd hc⟩,
      fun d hd => hspace d (List.mem_cons_of_mem c hd), hapart.2⟩
  · rintro ⟨hc, hspace, hapart⟩
    refine ⟨?_, List.isChain_cons.mpr ⟨fun d hd hblank => (hc hblank).2 d hd, hapart⟩⟩
    intro d hd hblank
    rcases List.mem_cons.mp hd with rfl | hd
    · exact (hc hblank).1
    · exact hspace d hd hblank

theorem IsCollapsed.alone {p q : List Char} (h : IsCollapsed (p ++ c :: q))
    (hc : isBlank c = true) : c = ' ' ∧ ¬EndsBlank p ∧ ¬BeginsBlank q := by
  obtain ⟨-, hafter, hbefore⟩ := List.isChain_append.mp h.apart
  refine ⟨h.space c (by simp) hc, ?_, ?_⟩
  · rintro ⟨d, hd, hblank⟩
    rw [hbefore d hd c rfl hblank] at hc
    cases hc
  · rw [not_beginsBlank_iff]
    intro d hd
    exact (List.isChain_cons.mp hafter).1 d hd hc

theorem IsCollapsed.of_append {p q : List Char} (h : IsCollapsed (p ++ s ++ q)) : IsCollapsed s :=
  ⟨fun c hc => h.space c (by simp [hc]), h.apart.left_of_append.right_of_append⟩

theorem isCollapsed_collapseFrom (inRun : Bool) (s : List Char) :
    IsCollapsed (collapseFrom inRun s) ∧
      (inRun = true → StopsAt isBlank (collapseFrom inRun s)) := by
  induction s generalizing inRun with
  | nil => exact ⟨⟨by simp [collapseFrom], List.IsChain.nil⟩, fun _ c hc => by cases hc⟩
  | cons c s ih =>
    unfold collapseFrom
    cases hc : isBlank c with
    | false =>
      refine ⟨isCollapsed_cons.mpr ⟨by simp [hc], (ih false).1⟩, fun _ d hd => ?_⟩
      cases hd
      exact hc
    | true =>
      cases inRun with
      | true => exact ih true
      | false =>
        have hspaced : IsCollapsed (' ' :: collapseFrom true s) :=
          isCollapsed_cons.mpr ⟨fun _ => ⟨rfl, (ih true).2 rfl⟩, (ih true).1⟩
        exact ⟨hspaced, fun h => by cases h⟩

theorem isCollapsed_collapse (s : List Char) : IsCollapsed (collapse s) :=
  (isCollapsed_collapseFrom false s).1

theorem collapse_of_isCollapsed (h : IsCollapsed s) : collapse s = s := by
  have hfrom : ∀ inRun, (inRun = true → StopsAt isBlank s) → collapseFrom inRun s = s := by
    induction s with
    | nil => intro inRun _; rfl
    | cons c s ih =>
      obtain ⟨hc, hs⟩ := isCollapsed_cons.mp h
      intro inRun hstops
      unfold collapseFrom
      cases hblank : isBlank c with
      | false => simp [ih hs false (by simp)]
      | true =>
        cases inRun with
        | true => simp [hstops rfl c rfl] at hblank
        | false => simp [ih hs true fun _ => (hc hblank).2, (hc hblank).1]
  exact hfrom false (by simp)

theorem mem_collapseFrom (inRun : Bool) (h : c ∈ collapseFrom inRun s) : c = ' ' ∨ c ∈ s := by
  induction s generalizing inRun with
  | nil => cases h
  | cons d s ih =>
    unfold collapseFrom at h
    split at h
    · split at h
      · exact (ih true h).imp_right (List.mem_cons_of_mem d)
      · rcases List.mem_cons.mp h with rfl | h
        · exact .inl rfl
        · exact (ih true h).imp_right (List.mem_cons_of_mem d)
    · rcases List.mem_cons.mp h with rfl | h
      · exact .inr List.mem_cons_self
      · exact (ih false h).imp_right (List.mem_cons_of_mem d)

theorem beginsBlank_collapse : BeginsBlank (collapse s) ↔ BeginsBlank s := by
  cases s with
  | nil => rfl
  | cons c s =>
    unfold collapse collapseFrom
    rw [beginsBlank_cons]
    cases hc : isBlank c with
    | false => simp [beginsBlank_cons, hc]
    | true => simp [beginsBlank_cons, show isBlank ' ' = true by decide]

theorem endsBlank_collapseFrom (s : List Char) :
    (EndsBlank (collapseFrom false s) ↔ EndsBlank s) ∧
      (collapseFrom true s = [] ∨ EndsBlank (collapseFrom true s) ↔ s = [] ∨ EndsBlank s) := by
  induction s with
  | nil => simp [collapseFrom]
  | cons c s ih =>
    have hspace : isBlank ' ' = true := by decide
    unfold collapseFrom
    cases hc : isBlank c with
    | false => simp [endsBlank_cons, hc, ih.1]
    | true => simp [endsBlank_cons, hc, hspace, ih.2]

theorem endsBlank_collapse : EndsBlank (collapse s) ↔ EndsBlank s :=
  (endsBlank_collapseFrom s).1

/-! ## Special characters -/

theorem beginsBlank_filter : BeginsBlank (s.filter (!isSpecial ·)) ↔
    ∃ p c q, s = p ++ c :: q ∧ (∀ d ∈ p, isSpecial d = true) ∧ isBlank c = true := by
  rw [BeginsBlank, List.head?_filter]
  constructor
  · rintro ⟨c, hfirst, hc⟩
    obtain ⟨-, p, q, hs, hp⟩ := List.find?_eq_some_iff_append.mp hfirst
    exact ⟨p, c, q, hs, by simpa using hp, hc⟩
  · rintro ⟨p, c, q, hs, hp, hc⟩
    have hkept : (!isSpecial c) = true := by simp [isSpecial, hc]
    exact ⟨c, List.find?_eq_some_iff_append.mpr ⟨hkept, p, q, hs, by simpa using hp⟩, hc⟩

theorem endsBlank_filter : EndsBlank (s.filter (!isSpecial ·)) ↔
    ∃ p c q, s = p ++ c :: q ∧ isBlank c = true ∧ ∀ d ∈ q, isSpecial d = true := by
  rw [endsBlank_iff_reverse, ← List.filter_reverse, beginsBlank_filter]
  constructor
  · rintro ⟨p, c, q, hs, hp, hc⟩
    refine ⟨q.reverse, c, p.reverse, ?_, hc, fun d hd => hp d (List.mem_reverse.mp hd)⟩
    rw [← List.reverse_reverse s, hs]
    simp
  · rintro ⟨p, c, q, hs, hc, hq⟩
    refine ⟨q.reverse, c, p.reverse, ?_, fun d hd => hq d (List.mem_reverse.mp hd), hc⟩
    rw [hs]
    simp

/-! ## The stages of the cleaning -/

/-- The text that the removal of special characters is given. -/
def prepared (flags : CleanFlags) (s : List Char) : List Char :=
  let s := if flags.trim then trim s else s
  if flags.lowercase then lower s else s

/-- The text that the collapsing is given. -/
def stripped (flags : CleanFlags) (s : List Char) : List Char :=
  if flags.removeSpecial then (prepared flags s).filter (!isSpecial ·) else prepared flags s

theorem clean_eq (flags : CleanFlags) (s : List Char) :
    clean flags s = if flags.collapseSpaces then collapse (stripped flags s) else stripped flags s :=
  rfl

theorem isLow_of_mem_prepared (hflag : flags.lowercase = true) :
    ∀ c ∈ prepared flags s, isLow c = true := by
  unfold prepared
  rw [if_pos hflag]
  exact isLow_of_mem_lower

theorem mem_prepared_of_mem_stripped (h : c ∈ stripped flags s) : c ∈ prepared flags s := by
  unfold stripped at h
  split at h
  · exact List.mem_of_mem_filter h
  · exact h

theorem not_isSpecial_of_mem_stripped (hflag : flags.removeSpecial = true)
    (h : c ∈ stripped flags s) : isSpecial c = false := by
  unfold stripped at h
  rw [if_pos hflag] at h
  simpa using List.of_mem_filter h

theorem mem_stripped_of_mem_clean (h : c ∈ clean flags s) : c = ' ' ∨ c ∈ stripped flags s := by
  rw [clean_eq] at h
  split at h
  · exact mem_collapseFrom false h
  · exact .inr h

theorem beginsBlank_clean : BeginsBlank (clean flags s) ↔ BeginsBlank (stripped flags s) := by
  rw [clean_eq]
  split
  · exact beginsBlank_collapse
  · rfl

theorem endsBlank_clean : EndsBlank (clean flags s) ↔ EndsBlank (stripped flags s) := by
  rw [clean_eq]
  split
  · exact endsBlank_collapse
  · rfl

theorem not_beginsBlank_prepared (htrim : flags.trim = true) : ¬BeginsBlank (prepared flags s) := by
  unfold prepared
  rw [if_pos htrim]
  split
  · rw [beginsBlank_lower]
    exact not_beginsBlank_trim s
  · exact not_beginsBlank_trim s

theorem not_endsBlank_prepared (htrim : flags.trim = true) : ¬EndsBlank (prepared flags s) := by
  unfold prepared
  rw [if_pos htrim]
  split
  · rw [endsBlank_lower]
    exact not_endsBlank_trim s
  · exact not_endsBlank_trim s

/-! ## Cleaned once -/

/-- What the parts after the trimming promise. -/
structure IsClean (flags : CleanFlags) (s : List Char) : Prop where
  low : flags.lowercase = true → ∀ c ∈ s, isLow c = true
  plain : flags.removeSpecial = true → ∀ c ∈ s, isSpecial c = false
  collapsed : flags.collapseSpaces = true → IsCollapsed s

theorem IsClean.of_append {p q : List Char} (h : IsClean flags (p ++ s ++ q)) : IsClean flags s :=
  ⟨fun hflag c hc => h.low hflag c (by simp [hc]), fun hflag c hc => h.plain hflag c (by simp [hc]),
    fun hflag => (h.collapsed hflag).of_append⟩

theorem isClean_clean (flags : CleanFlags) (s : List Char) : IsClean flags (clean flags s) where
  low hflag c hc := by
    rcases mem_stripped_of_mem_clean hc with rfl | hc
    · exact isLow_of_isBlank (by decide)
    · exact isLow_of_mem_prepared hflag c (mem_prepared_of_mem_stripped hc)
  plain hflag c hc := by
    rcases mem_stripped_of_mem_clean hc with rfl | hc
    · simp [isSpecial, show isBlank ' ' = true by decide]
    · exact not_isSpecial_of_mem_stripped hflag hc
  collapsed hflag := by
    rw [clean_eq, if_pos hflag]
    exact isCollapsed_collapse _

theorem clean_of_isClean (h : IsClean flags s) :
    clean flags s = if flags.trim then trim s else s := by
  have ht : IsClean flags (if flags.trim then trim s else s) := by
    split
    · obtain ⟨p, q, -, -, hs⟩ := exists_trim s
      rw [hs] at h
      exact h.of_append
    · exact h
  have hprepared : prepared flags s = if flags.trim then trim s else s := by
    unfold prepared
    by_cases hflag : flags.lowercase = true
    · rw [if_pos hflag]
      exact lower_of_isLow (ht.low hflag)
    · rw [if_neg hflag]
  have hstripped : stripped flags s = if flags.trim then trim s else s := by
    unfold stripped
    rw [hprepared]
    split
    · exact List.filter_eq_self.mpr fun c hc => by simp [ht.plain ‹_› c hc]
    · rfl
  rw [clean_eq, hstripped]
  split
  · exact collapse_of_isCollapsed (ht.collapsed ‹_›)
  · rfl

theorem clean_clean (flags : CleanFlags) (s : List Char) :
    clean flags (clean flags s) =
      if flags.trim then trim (clean flags s) else clean flags s :=
  clean_of_isClean (isClean_clean flags s)

/-! ## Trimmed before the removal -/

theorem beginsBlank_clean_of_trim (htrim : flags.trim = true) : BeginsBlank (clean flags s) ↔
    flags.removeSpecial = true ∧ ∃ p c q, prepared flags s = p ++ c :: q ∧
      (∀ d ∈ p, isSpecial d = true) ∧ isBlank c = true := by
  rw [beginsBlank_clean, stripped]
  split
  · simp only [*, true_and, beginsBlank_filter]
  · simp [*, not_beginsBlank_prepared htrim]

theorem endsBlank_clean_of_trim (htrim : flags.trim = true) : EndsBlank (clean flags s) ↔
    flags.removeSpecial = true ∧ ∃ p c q, prepared flags s = p ++ c :: q ∧
      isBlank c = true ∧ ∀ d ∈ q, isSpecial d = true := by
  rw [endsBlank_clean, stripped]
  split
  · simp only [*, true_and, endsBlank_filter]
  · simp [*, not_endsBlank_prepared htrim]

/-- A text that is trimmed and cleaned has a blank at an end exactly when the removal took all that
stood outside of some blank. Cleaning it again only trims it, so it stays as it is exactly when it
has no blank at its ends. -/
theorem cleanText_blankEnds (flags : CleanFlags) (htrim : flags.trim = true) (s : String) :
    let cleaned := cleanText flags s
    (BeginsBlank cleaned.toList ↔ flags.removeSpecial = true ∧
      ∃ p c q, prepared flags s.toList = p ++ c :: q ∧
        (∀ d ∈ p, isSpecial d = true) ∧ isBlank c = true) ∧
    (EndsBlank cleaned.toList ↔ flags.removeSpecial = true ∧
      ∃ p c q, prepared flags s.toList = p ++ c :: q ∧
        isBlank c = true ∧ ∀ d ∈ q, isSpecial d = true) ∧
    cleanText flags cleaned = String.ofList (trim cleaned.toList) ∧
    (cleanText flags cleaned = cleaned ↔
      ¬BeginsBlank cleaned.toList ∧ ¬EndsBlank cleaned.toList) := by
  intro cleaned
  have hlist : cleaned.toList = clean flags s.toList := String.toList_ofList
  have hagain : cleanText flags cleaned = String.ofList (trim cleaned.toList) := by
    rw [cleanText, hlist, clean_clean, if_pos htrim]
  refine ⟨?_, ?_, hagain, ?_⟩
  · rw [hlist]
    exact beginsBlank_clean_of_trim htrim
  · rw [hlist]
    exact endsBlank_clean_of_trim htrim
  · rw [hagain, ← trim_eq_self_iff, ← String.toList_inj, String.toList_ofList]

theorem isSpecial_exclamation : isSpecial '!' = true := by
  unfold isSpecial isWord inRanges
  rw [← Array.any_toList]
  decide +kernel

theorem cleanText_blankEnds_mark :
    let flags : CleanFlags := { trim := true, removeSpecial := true }
    flags.trim = true ∧ BeginsBlank (cleanText flags "! a").toList := by
  refine ⟨rfl, (cleanText_blankEnds _ rfl "! a").1.mpr ⟨rfl, ['!'], ' ', ['a'], ?_, ?_, ?_⟩⟩
  · decide
  · simp [isSpecial_exclamation]
  · decide

/-- A mark before a blank leaves the blank at the front, and cleaning again takes it. -/
theorem cleanText_trim_leaves_blank :
    let flags : CleanFlags := { trim := true, removeSpecial := true }
    let cleaned := cleanText flags "! a"
    flags.trim = true ∧ BeginsBlank cleaned.toList ∧ cleanText flags cleaned ≠ cleaned := by
  intro flags cleaned
  have hlist : cleaned.toList = clean flags "! a".toList := String.toList_ofList
  have hbegins : BeginsBlank cleaned.toList := by
    rw [hlist, beginsBlank_clean_of_trim rfl]
    exact ⟨rfl, ['!'], ' ', ['a'], by decide, by simp [isSpecial_exclamation], by decide⟩
  refine ⟨rfl, hbegins, fun hsame => ?_⟩
  have htrim : trim cleaned.toList = cleaned.toList := by
    rw [← String.toList_inj, cleanText, String.toList_ofList] at hsame
    rwa [hlist, clean_clean, if_pos rfl, ← hlist] at hsame
  exact (trim_eq_self_iff.mp htrim).1 hbegins

/-! ## What each part promises -/

theorem not_blankEnds_clean (htrim : flags.trim = true) (hkeep : flags.removeSpecial = false) :
    ¬BeginsBlank (clean flags s) ∧ ¬EndsBlank (clean flags s) := by
  rw [beginsBlank_clean_of_trim htrim, endsBlank_clean_of_trim htrim, hkeep]
  simp

theorem clean_clean_of_not_both (h : ¬(flags.trim = true ∧ flags.removeSpecial = true)) :
    clean flags (clean flags s) = clean flags s := by
  rw [clean_clean]
  split
  · rename_i htrim
    have hkeep : flags.removeSpecial = false := by simpa [htrim] using h
    exact trim_eq_self_iff.mpr (not_blankEnds_clean htrim hkeep)
  · rfl

theorem isWord_or_of_not_isSpecial (h : isSpecial c = false) :
    isWord c = true ∨ isBlank c = true ∨ c = '-' := by
  rw [isSpecial, Bool.not_eq_false'] at h
  simpa only [Bool.or_eq_true, decide_eq_true_eq, or_assoc] using h

/-- **Every part but the trimming keeps its promise, whatever the other parts do.** A lowered text
can be lowered no more; where special characters are removed, only word characters, blanks and
hyphens are left; where blanks are collapsed, each is a space that stands alone. Cleaning again
changes nothing, and a trimmed text has no blank at its ends, as long as not both trimming and
removal are asked for. -/
theorem cleanText_keeps_promises (flags : CleanFlags) (s : String) :
    let cleaned := cleanText flags s
    (flags.lowercase = true → lowercase cleaned = cleaned) ∧
    (flags.removeSpecial = true →
      ∀ c ∈ cleaned.toList, isWord c = true ∨ isBlank c = true ∨ c = '-') ∧
    (flags.collapseSpaces = true → ∀ p c q, cleaned.toList = p ++ c :: q → isBlank c = true →
      c = ' ' ∧ ¬EndsBlank p ∧ ¬BeginsBlank q) ∧
    (¬(flags.trim = true ∧ flags.removeSpecial = true) → cleanText flags cleaned = cleaned) ∧
    (flags.trim = true → flags.removeSpecial = false →
      ¬BeginsBlank cleaned.toList ∧ ¬EndsBlank cleaned.toList) := by
  intro cleaned
  have hlist : cleaned.toList = clean flags s.toList := String.toList_ofList
  have hclean := isClean_clean flags s.toList
  refine ⟨fun hflag => ?_, fun hflag c hc => ?_, fun hflag p c q hsplit hc => ?_, fun hflags => ?_,
    fun htrim hkeep => ?_⟩
  · rw [lowercase, hlist, lower_of_isLow (hclean.low hflag)]
    rfl
  · rw [hlist] at hc
    exact isWord_or_of_not_isSpecial (hclean.plain hflag c hc)
  · have hcollapsed := hclean.collapsed hflag
    rw [← hlist, hsplit] at hcollapsed
    exact hcollapsed.alone hc
  · rw [cleanText, hlist, clean_clean_of_not_both hflags]
    rfl
  · rw [hlist]
    exact not_blankEnds_clean htrim hkeep

/-- A sigma becomes final although a mark follows it, and the marks leave blanks side by side. -/
theorem cleanText_keeps_promises_sigma :
    let marks : CleanFlags := { lowercase := true, removeSpecial := true, collapseSpaces := true }
    let ends : CleanFlags := { trim := true, lowercase := true, collapseSpaces := true }
    let cleaned := cleanText marks "İΣ ! ,Σ-"
    let trimmed := cleanText ends " İΣ ! "
    marks.lowercase = true ∧ marks.removeSpecial = true ∧ marks.collapseSpaces = true ∧
      ¬(marks.trim = true ∧ marks.removeSpecial = true) ∧
      lowercase cleaned = cleaned ∧
      (∀ c ∈ cleaned.toList, isWord c = true ∨ isBlank c = true ∨ c = '-') ∧
      (∀ p c q, cleaned.toList = p ++ c :: q → isBlank c = true →
        c = ' ' ∧ ¬EndsBlank p ∧ ¬BeginsBlank q) ∧
      cleanText marks cleaned = cleaned ∧
      ends.trim = true ∧ ends.removeSpecial = false ∧
      ¬BeginsBlank trimmed.toList ∧ ¬EndsBlank trimmed.toList := by
  intro marks ends cleaned trimmed
  obtain ⟨hlow, hplain, halone, hagain, -⟩ := cleanText_keeps_promises marks "İΣ ! ,Σ-"
  have hflags : ¬(marks.trim = true ∧ marks.removeSpecial = true) := by decide
  have hends := (cleanText_keeps_promises ends " İΣ ! ").2.2.2.2 rfl rfl
  exact ⟨rfl, rfl, rfl, hflags, hlow rfl, hplain rfl, halone rfl, hagain hflags, rfl, rfl, hends⟩

end TableCleaner.Text
