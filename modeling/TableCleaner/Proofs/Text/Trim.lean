import TableCleaner.Text.Blank

/-!
# Trimmed texts

Trimming takes the blanks at both ends and stops at the first other character. So it sees nothing of
a text that stands between two such characters.
-/

namespace TableCleaner

/-! ## First characters -/

/-- The text does not begin with a character of a class. -/
def StopsAt (p : Char → Bool) (s : List Char) : Prop := ∀ c ∈ s.head?, p c = false

namespace StopsAt

variable {p : Char → Bool} {s : List Char}

theorem takeWhile_eq (h : StopsAt p s) : s.takeWhile p = [] := by
  cases s with
  | nil => rfl
  | cons c s => exact List.takeWhile_cons_of_neg (by simp [h c rfl])

theorem dropWhile_eq (h : StopsAt p s) : s.dropWhile p = s := by
  cases s with
  | nil => rfl
  | cons c s => exact List.dropWhile_cons_of_neg (by simp [h c rfl])

end StopsAt

end TableCleaner

namespace TableCleaner.Text

variable {s p q : List Char} {c d : Char}

/-! ## One end -/

theorem trimStart_of_blank (hp : ∀ c ∈ p, isBlank c = true) : trimStart (p ++ s) = trimStart s :=
  List.dropWhile_append_of_pos hp

theorem trimEnd_of_blank (hq : ∀ c ∈ q, isBlank c = true) : trimEnd (s ++ q) = trimEnd s := by
  unfold trimEnd
  rw [List.reverse_append, List.dropWhile_append_of_pos]
  intro c hc
  exact hq c (List.mem_reverse.mp hc)

theorem trimStart_append_cons (hc : isBlank c = false) (p s : List Char) :
    trimStart (p ++ c :: s) = trimStart p ++ c :: s := by
  unfold trimStart
  rw [List.dropWhile_append]
  split
  · rename_i he
    rw [List.isEmpty_iff.mp he, List.dropWhile_cons_of_neg (by simp [hc]), List.nil_append]
  · rfl

theorem trimEnd_append_cons (hc : isBlank c = false) (s q : List Char) :
    trimEnd (s ++ c :: q) = s ++ c :: trimEnd q := by
  have h := trimStart_append_cons hc q.reverse s.reverse
  unfold trimEnd
  unfold trimStart at h
  simp [h]

theorem trimStart_suffix (s : List Char) : trimStart s <:+ s :=
  List.dropWhile_suffix _

theorem trimEnd_prefix (s : List Char) : trimEnd s <+: s := by
  have h := List.dropWhile_suffix (l := s.reverse) isBlank
  rw [← List.reverse_prefix] at h
  simpa [trimEnd] using h

/-! ## Both ends -/

theorem trim_blank_append (hp : ∀ c ∈ p, isBlank c = true) : trim (p ++ s) = trim s := by
  rw [trim, trimStart_of_blank hp, trim]

theorem trim_append_blank (hq : ∀ c ∈ q, isBlank c = true) : trim (s ++ q) = trim s := by
  unfold trim
  have happ : trimStart (s ++ q) = if trimStart s = [] then [] else trimStart s ++ q := by
    have hnil : trimStart q = [] := by
      have h := trimStart_of_blank (s := []) hq
      rwa [List.append_nil] at h
    unfold trimStart at hnil ⊢
    rw [List.dropWhile_append, hnil]
    simp
  rw [happ]
  split
  · rename_i hs
    rw [hs]
  · exact trimEnd_of_blank hq

theorem trim_between {m : List Char} (hc : isBlank c = false) (hd : isBlank d = false)
    (p q : List Char) :
    trim (p ++ c :: m ++ d :: q) = trimStart p ++ c :: m ++ d :: trimEnd q := by
  have hstart := trimStart_append_cons hc p (m ++ d :: q)
  have hend := trimEnd_append_cons hd (trimStart p ++ c :: m) q
  unfold trim
  simp only [List.append_assoc, List.cons_append] at hstart hend ⊢
  rw [hstart, hend]

theorem trimStart_of_stopsAt (h : StopsAt isBlank s) : trimStart s = s := h.dropWhile_eq

theorem trim_of_stopsAt (hfirst : StopsAt isBlank s) (hlast : StopsAt isBlank s.reverse) :
    trim s = s := by
  rw [trim, trimStart_of_stopsAt hfirst, trimEnd, ← trimStart, trimStart_of_stopsAt hlast,
    List.reverse_reverse]

theorem trimStart_of_not_blank (h : ∀ c ∈ s, isBlank c = false) : trimStart s = s := by
  cases s with
  | nil => rfl
  | cons c rest => exact List.dropWhile_cons_of_neg (by simp [h c List.mem_cons_self])

theorem trim_of_not_blank (h : ∀ c ∈ s, isBlank c = false) : trim s = s := by
  have hend := trimStart_of_not_blank fun c hc => h c (List.mem_reverse.mp hc)
  rw [trim, trimStart_of_not_blank h, trimEnd, ← trimStart, hend, List.reverse_reverse]

theorem exists_trimStart (s : List Char) :
    ∃ p, (∀ c ∈ p, isBlank c = true) ∧ s = p ++ trimStart s :=
  ⟨s.takeWhile isBlank, List.all_eq_true.mp List.all_takeWhile,
    List.takeWhile_append_dropWhile.symm⟩

theorem exists_trimEnd (s : List Char) :
    ∃ q, (∀ c ∈ q, isBlank c = true) ∧ s = trimEnd s ++ q := by
  obtain ⟨p, hp, hs⟩ := exists_trimStart s.reverse
  refine ⟨p.reverse, fun c hc => hp c (List.mem_reverse.mp hc), ?_⟩
  have := congrArg List.reverse hs
  simpa [trimEnd, trimStart] using this

theorem exists_trim (s : List Char) :
    ∃ p q, (∀ c ∈ p, isBlank c = true) ∧ (∀ c ∈ q, isBlank c = true) ∧ s = p ++ trim s ++ q := by
  obtain ⟨p, hp, hs⟩ := exists_trimStart s
  obtain ⟨q, hq, ht⟩ := exists_trimEnd (trimStart s)
  refine ⟨p, q, hp, hq, ?_⟩
  rw [List.append_assoc, trim, ← ht]
  exact hs

theorem exists_last (h : trim s ≠ []) :
    ∃ x c y, s = x ++ c :: y ∧ isBlank c = false ∧ ∀ d ∈ y, isBlank d = true := by
  obtain ⟨y, hy, hs⟩ := exists_trimStart s.reverse
  cases hrest : trimStart s.reverse with
  | nil =>
    have hblank : ∀ c ∈ s, isBlank c = true := by
      intro c hc
      rw [hrest, List.append_nil] at hs
      exact hy c (hs ▸ List.mem_reverse.mpr hc)
    have hnil := trim_blank_append (s := []) hblank
    rw [List.append_nil] at hnil
    exact absurd hnil h
  | cons c x =>
    refine ⟨x.reverse, c, y.reverse, ?_, ?_, fun d hd => hy d (List.mem_reverse.mp hd)⟩
    · rw [hrest] at hs
      simpa using congrArg List.reverse hs
    · have hhead := List.head?_dropWhile_not isBlank s.reverse
      unfold trimStart at hrest
      rwa [hrest] at hhead

/-! ## Blank ends -/

def BeginsBlank (s : List Char) : Prop := ∃ c ∈ s.head?, isBlank c = true

def EndsBlank (s : List Char) : Prop := ∃ c ∈ s.getLast?, isBlank c = true

theorem not_beginsBlank_iff : ¬BeginsBlank s ↔ StopsAt isBlank s := by
  simp [BeginsBlank, StopsAt]

theorem endsBlank_iff_reverse : EndsBlank s ↔ BeginsBlank s.reverse := by
  rw [EndsBlank, BeginsBlank, List.head?_reverse]

theorem beginsBlank_append (h : p ≠ []) : BeginsBlank (p ++ q) ↔ BeginsBlank p := by
  obtain ⟨c, p, rfl⟩ := List.exists_cons_of_ne_nil h
  rfl

theorem endsBlank_append (h : q ≠ []) : EndsBlank (p ++ q) ↔ EndsBlank q := by
  rw [endsBlank_iff_reverse, List.reverse_append, beginsBlank_append (by simpa using h),
    endsBlank_iff_reverse]

theorem beginsBlank_cons : BeginsBlank (c :: s) ↔ isBlank c = true := by
  simp [BeginsBlank]

theorem endsBlank_cons : EndsBlank (c :: s) ↔ (s = [] ∧ isBlank c = true) ∨ EndsBlank s := by
  cases s with
  | nil => simp [EndsBlank]
  | cons d s => simp [EndsBlank]

theorem not_beginsBlank_of_not_blank (h : ∀ c ∈ s, isBlank c = false) : ¬BeginsBlank s := by
  rintro ⟨c, hc, hblank⟩
  rw [h c (List.mem_of_mem_head? hc)] at hblank
  cases hblank

theorem not_endsBlank_of_not_blank (h : ∀ c ∈ s, isBlank c = false) : ¬EndsBlank s := by
  rw [endsBlank_iff_reverse]
  exact not_beginsBlank_of_not_blank fun c hc => h c (List.mem_reverse.mp hc)

theorem not_beginsBlank_trimStart (s : List Char) : ¬BeginsBlank (trimStart s) := by
  rintro ⟨c, hc, hblank⟩
  have hnot := List.head?_dropWhile_not isBlank s
  rw [trimStart, Option.mem_def] at hc
  rw [hc] at hnot
  simp [hblank] at hnot

theorem not_endsBlank_trimEnd (s : List Char) : ¬EndsBlank (trimEnd s) := by
  rw [endsBlank_iff_reverse, trimEnd, List.reverse_reverse]
  exact not_beginsBlank_trimStart s.reverse

theorem not_beginsBlank_trim (s : List Char) : ¬BeginsBlank (trim s) := by
  intro hbegins
  apply not_beginsBlank_trimStart s
  obtain ⟨q, -, hs⟩ := exists_trimEnd (trimStart s)
  by_cases hnil : trimEnd (trimStart s) = []
  · rw [trim, hnil] at hbegins
    simp [BeginsBlank] at hbegins
  · rw [hs]
    exact (beginsBlank_append hnil).mpr hbegins

theorem not_endsBlank_trim (s : List Char) : ¬EndsBlank (trim s) := not_endsBlank_trimEnd _

theorem trim_eq_self_iff : trim s = s ↔ ¬BeginsBlank s ∧ ¬EndsBlank s := by
  constructor
  · intro h
    rw [← h]
    exact ⟨not_beginsBlank_trim s, not_endsBlank_trim s⟩
  · rintro ⟨hbegins, hends⟩
    rw [endsBlank_iff_reverse, not_beginsBlank_iff] at hends
    exact trim_of_stopsAt (not_beginsBlank_iff.mp hbegins) hends

end TableCleaner.Text
