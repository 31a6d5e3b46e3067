import TableCleaner.Proofs.Calendar.Written

/-!
# Names of months

The short names have three letters each and differ, so a text that begins with the name of a month
gives that month back, whether the name is the short or the full one. A full name that is cut short
reads as the short one, as long as no letter of the full name follows.
-/

namespace TableCleaner.Layout

variable {rest w : List Char}

/-! ## One word -/

theorem dropWord?_append {word : List Char} (hlen : w.length = word.length) :
    dropWord? word (w ++ rest) = if Text.asciiLower w = word then some rest else none := by
  have htake : (w ++ rest).take word.length = w := by rw [← hlen, List.take_left]
  have hdrop : (w ++ rest).drop word.length = rest := by rw [← hlen, List.drop_left]
  have hpre : word.isPrefixOf (Text.asciiLower w) = true ↔ Text.asciiLower w = word := by
    rw [List.isPrefixOf_iff_prefix]
    constructor
    · intro h
      exact (h.eq_of_length (by simp [Text.asciiLower, hlen])).symm
    · rintro rfl
      exact List.prefix_refl _
  unfold dropWord?
  rw [htake, hdrop]
  by_cases h : Text.asciiLower w = word
  · rw [if_pos (hpre.mpr h), if_pos h]
  · rw [if_neg (mt hpre.mp h), if_neg h]

/-! ## The table of names -/

/-- The characters that tell layouts apart, and timestamps from them. -/
def marks : List Char := ['-', '/', '.', ',', ':', 'Z', 'z']

/-- The short name of a month as it is written. -/
def shortName (month : Nat) : List Char := capitalized (monthNames.getD (month - 1) ([], [])).1

/-- The letters of the full name after the short one. -/
def nameRest (month : Nat) : List Char := (monthNames.getD (month - 1) ([], [])).2

/-- The month has a short name of three letters by which it is found in the table, and its full name
is written by lower-case letters behind them. -/
structure IsNamed (month : Nat) : Prop where
  length : (shortName month).length = 3
  found : ((monthNames.zipIdx 1).find? fun p => Text.asciiLower (shortName month) = p.1.1).map
    Prod.snd = some month
  full : capitalized ((monthNames.getD (month - 1) ([], [])).1 ++ nameRest month) =
    shortName month ++ nameRest month
  lower : Text.asciiLower (nameRest month) = nameRest month
  not_blank : ∀ c ∈ shortName month ++ nameRest month, Text.isBlank c = false
  not_mark : ∀ c ∈ shortName month ++ nameRest month, c ∉ marks

theorem isNamed {month : Nat} (h : 1 ≤ month ∧ month ≤ 12) : IsNamed month := by
  have hall : (List.range' 1 12).all (fun month =>
      (shortName month).length = 3 &&
      ((monthNames.zipIdx 1).find? fun p => Text.asciiLower (shortName month) = p.1.1).map
        Prod.snd = some month &&
      capitalized ((monthNames.getD (month - 1) ([], [])).1 ++ nameRest month) =
        shortName month ++ nameRest month &&
      Text.asciiLower (nameRest month) = nameRest month &&
      (shortName month ++ nameRest month).all fun c =>
        !Text.isBlank c && !marks.contains c) = true := by
    decide +kernel
  have hmonth := List.all_eq_true.mp hall month (List.mem_range'_1.mpr (by omega))
  simp only [Bool.and_eq_true, decide_eq_true_eq, List.all_eq_true, Bool.not_eq_true',
    List.contains_eq_mem, decide_eq_false_iff_not] at hmonth
  obtain ⟨⟨⟨⟨hlength, hfound⟩, hfull⟩, hlower⟩, hletters⟩ := hmonth
  exact ⟨hlength, hfound, hfull, hlower, fun c hc => (hletters c hc).1,
    fun c hc => (hletters c hc).2⟩

/-- The short names have three letters each, so the first that fits is the one that stands there. -/
theorem readShortName?_append (hlen : w.length = 3) :
    readShortName? (w ++ rest) =
      (((monthNames.zipIdx 1).find? fun p => Text.asciiLower w = p.1.1).map Prod.snd).map (·, rest) := by
  have hlengths : ∀ p ∈ monthNames.zipIdx 1, p.1.1.length = 3 := by decide +kernel
  unfold readShortName?
  generalize monthNames.zipIdx 1 = table at hlengths
  induction table with
  | nil => rfl
  | cons p table ih =>
    have hp : w.length = p.1.1.length := by rw [hlen, hlengths p List.mem_cons_self]
    rw [List.findSome?_cons, List.find?_cons, dropWord?_append hp,
      ih fun q hq => hlengths q (List.mem_cons_of_mem p hq)]
    by_cases h : Text.asciiLower w = p.1.1
    · simp [h]
    · simp [h]

variable {month : Nat}

theorem readShortName?_shortName (h : IsNamed month) (rest : List Char) :
    readShortName? (shortName month ++ rest) = some (month, rest) := by
  rw [readShortName?_append h.length, h.found]
  rfl

theorem readName?_eq (s : List Char) : readName? s =
    (readShortName? s).map fun p => (p.1, (dropWord? (nameRest p.1) p.2).getD p.2) :=
  rfl

theorem readName?_full (h : IsNamed month) (rest : List Char) :
    readName? (shortName month ++ nameRest month ++ rest) = some (month, rest) := by
  have hrest : dropWord? (nameRest month) (nameRest month ++ rest) = some rest := by
    rw [dropWord?_append rfl, if_pos h.lower]
  rw [readName?_eq, List.append_assoc, readShortName?_shortName h, Option.map_some, hrest,
    Option.getD_some]

theorem readName?_shortName (h : IsNamed month) (rest : List Char) :
    readName? (shortName month ++ ' ' :: rest) = some (month, ' ' :: rest) := by
  have hrest : (dropWord? (nameRest month) (' ' :: rest)).getD (' ' :: rest) = ' ' :: rest := by
    cases hname : nameRest month with
    | nil => rfl
    | cons c word =>
      have hsolid := h.not_blank c (List.mem_append_right _ (hname ▸ List.mem_cons_self))
      have hc : c ≠ ' ' := by
        rintro rfl
        cases hsolid
      simp [dropWord?, Text.asciiLower, hc]
  rw [readName?_eq, readShortName?_shortName h, Option.map_some, hrest]

end TableCleaner.Layout
