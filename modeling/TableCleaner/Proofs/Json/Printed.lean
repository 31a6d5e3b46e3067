import TableCleaner.Proofs.Json.Canonical
import TableCleaner.Proofs.Json.Numeral

/-!
# Printed values

A canonical value that is printed is read as the same value: the reader passes over the line breaks
and the indentation, every escape stands for its character, and the number of an item ends before
the mark behind it.
-/

namespace TableCleaner.Json

variable {s p r rest : List Char} {d : Nat} {v : Json}

/-! ## Strings -/

theorem hexValue?_hexDigit : ∀ n < 16, hexValue? (hexDigit n) = some n := by decide

theorem hex4?_control {n : Nat} (h : n < 32) :
    hex4? '0' '0' (hexDigit (n / 16)) (hexDigit (n % 16)) = some n := by
  have hzero : hexValue? '0' = some 0 := rfl
  have hhigh := hexValue?_hexDigit (n / 16) (by omega)
  have hlow := hexValue?_hexDigit (n % 16) (by omega)
  simp only [hex4?, hzero, hhigh, hlow, Option.pure_def, Option.bind_eq_bind, Option.bind_some]
  congr 1
  omega

theorem readString?_control {c : Char} (h : c.toNat < 32) (t : List Char) :
    readString? ('\\' :: 'u' :: '0' :: '0' :: hexDigit (c.toNat / 16) :: hexDigit (c.toNat % 16) ::
      t) = (readString? t).map fun q => (c :: q.1, q.2) := by
  have hlow : isLowSurrogate c.toNat = false := by
    simp only [isLowSurrogate, Bool.and_eq_false_iff, decide_eq_false_iff_not]
    omega
  have hhigh : isHighSurrogate c.toNat = false := by
    simp only [isHighSurrogate, Bool.and_eq_false_iff, decide_eq_false_iff_not]
    omega
  rw [readString?, hex4?_control h]
  simp [hlow, hhigh, Char.ofNat_toNat]

theorem readString?_plain {c : Char} (hquote : c ≠ '"') (hslash : c ≠ '\\') (h : ¬ c.toNat < 32)
    (t : List Char) : readString? (c :: t) = (readString? t).map fun q => (c :: q.1, q.2) := by
  rw [readString?.eq_def]
  split <;> simp_all

theorem readString?_escape (c : Char) (t : List Char) :
    readString? (escape c ++ t) = (readString? t).map fun q => (c :: q.1, q.2) := by
  unfold escape
  split_ifs with h₁ h₂ h₃ h₄ h₅ h₆ h₇ h₈
  case pos => subst h₁; rfl
  case pos => subst h₂; rfl
  case pos => subst h₃; rfl
  case pos => subst h₄; rfl
  case pos => subst h₅; rfl
  case pos => subst h₆; rfl
  case pos => subst h₇; rfl
  case pos => exact readString?_control h₈ t
  case neg => exact readString?_plain h₁ h₂ h₈ t

theorem readString?_flatMap_escape (s rest : List Char) :
    readString? (s.flatMap escape ++ '"' :: rest) = some (s, rest) := by
  induction s with
  | nil => rfl
  | cons c s ih => rw [List.flatMap_cons, List.append_assoc, readString?_escape, ih]; rfl

/-! ## Printed, then read -/

theorem head_of_readNumber? {c : Char} {t : List Char} {n : NumberText}
    (h : readNumber? (c :: t) = some (n, r)) : c = '-' ∨ Decimal.isDigit c = true := by
  unfold readNumber? at h
  split at h
  · rename_i hc
    exact .inl (List.cons.inj hc).1
  · right
    by_contra hdigit
    simp [readDigits?, hdigit] at h

theorem Takes.of_number {n : NumberText} (h : readNumber? s = some (n, r))
    (hv : n.value? = some v) : Takes d s v r := by
  cases s with
  | nil => simp [readNumber?, readDigits?] at h
  | cons c t =>
    refine .number ?_ h hv
    intro hmem
    rcases head_of_readNumber? h with rfl | hdigit
    · revert hmem
      decide
    · simp only [List.mem_cons, List.not_mem_nil, or_false] at hmem
      rcases hmem with rfl | rfl | rfl | rfl | rfl | rfl <;> cases hdigit

theorem Takes.skipSpace_eq (h : Takes d s v r) : skipSpace s = s := by
  refine StopsAt.dropWhile_eq ?_
  cases h with
  | @number _ c _ _ _ _ _ h _ =>
    rintro _ ⟨⟩
    rcases head_of_readNumber? h with rfl | hdigit
    · rfl
    · by_contra hspace
      simp only [isSpace, Bool.not_eq_false, Bool.or_eq_true, decide_eq_true_eq] at hspace
      rcases hspace with ((rfl | rfl) | rfl) | rfl <;> cases hdigit
  | _ =>
    rintro _ ⟨⟩
    rfl

/-- The text is taken as the value, whatever follows that does not go on a number. -/
def PrintsAs (d : Nat) (p : List Char) (v : Json) : Prop :=
  ∀ rest, StopsAt goesOn rest → Takes d (p ++ rest) v rest

namespace PrintsAs

variable (h : PrintsAs d p v)
include h

theorem ne_nil : p ≠ [] := by
  rintro rfl
  have htakes : Takes d [] v [] := h [] nofun
  cases htakes

theorem skipSpace_append (hrest : StopsAt goesOn rest) : skipSpace (p ++ rest) = p ++ rest :=
  (h rest hrest).skipSpace_eq

theorem readValue?_append (hrest : StopsAt goesOn rest) :
    ∃ hlt, readValue? d (p ++ rest) = some (v, ⟨rest, hlt⟩) := by
  have hlt : rest.length < (p ++ rest).length := by
    have := List.length_pos_iff.mpr h.ne_nil
    rw [List.length_append]
    omega
  exact ⟨hlt, readValue?_eq_some.mpr (h rest hrest)⟩

theorem readValue?_skipSpace (hs : skipSpace s = p ++ rest) (hrest : StopsAt goesOn rest) :
    ∃ hlt, readValue? d (skipSpace s) = some (v, ⟨rest, hlt⟩) := by
  rw [hs]
  exact h.readValue?_append hrest

end PrintsAs

theorem skipSpace_newline (k : Nat) (s : List Char) : skipSpace (newline k ++ s) = skipSpace s := by
  refine List.dropWhile_append_of_pos fun c hc => ?_
  rcases List.mem_cons.mp hc with rfl | hc
  · rfl
  · rw [List.eq_of_mem_replicate hc]
    rfl

theorem stopsAt_newline (k : Nat) (s : List Char) : StopsAt goesOn (newline k ++ s) := by
  rintro _ ⟨⟩
  rfl

theorem stopsAt_comma (s : List Char) : StopsAt goesOn (',' :: s) := by
  rintro _ ⟨⟩
  rfl

theorem readItems?_prettyItems {items : List Json} (hne : items ≠ []) {k : Nat}
    (h : ∀ v ∈ items, PrintsAs d (prettyChars k v) v) (j : Nat) (rest : List Char) :
    readItems? (readValue? d) (newline k ++ (prettyItems k items ++ (newline j ++ ']' :: rest))) =
      some (items, rest) := by
  induction items with
  | nil => exact absurd rfl hne
  | cons v items ih =>
    obtain ⟨hv, hitems⟩ := List.forall_mem_cons.mp h
    cases items with
    | nil =>
      have hstop := stopsAt_newline j (']' :: rest)
      obtain ⟨hlt, hread⟩ := hv.readValue?_skipSpace
        ((skipSpace_newline k _).trans (hv.skipSpace_append hstop)) hstop
      exact readItems?_of_close hread (skipSpace_newline j _)
    | cons w items =>
      have hstop := stopsAt_comma
        (newline k ++ (prettyItems k (w :: items) ++ (newline j ++ ']' :: rest)))
      obtain ⟨hlt, hread⟩ := hv.readValue?_skipSpace
        ((skipSpace_newline k _).trans (hv.skipSpace_append hstop)) hstop
      have hmore := readItems?_of_comma hread rfl
      rw [ih (List.cons_ne_nil w items) hitems] at hmore
      rw [prettyItems]
      simpa using hmore

theorem readEntries?_quoted (key : String) {k : Nat} (hv : PrintsAs d (prettyChars k v) v)
    (rest : List Char) (hs : skipSpace s = quoted key ++ ':' :: ' ' :: (prettyChars k v ++ rest))
    (hrest : StopsAt goesOn rest) :
    readEntries? (readValue? d) s =
      match skipSpace rest with
      | ',' :: z => (readEntries? (readValue? d) z).map fun q => ((key, v) :: q.1, q.2)
      | '}' :: z => some ([(key, v)], z)
      | _ => none := by
  have hkey := readString?_flatMap_escape key.toList (':' :: ' ' :: (prettyChars k v ++ rest))
  have hblank : skipSpace (' ' :: (prettyChars k v ++ rest)) = prettyChars k v ++ rest :=
    hv.skipSpace_append hrest
  obtain ⟨hlt, hread⟩ := hv.readValue?_skipSpace hblank hrest
  simp only [quoted, List.cons_append, List.append_assoc, List.nil_append] at hs
  have hentry := readEntries?_of_value hs hkey rfl hread
  rw [String.ofList_toList] at hentry
  exact hentry

theorem readEntries?_prettyEntries {entries : List (String × Json)} (hne : entries ≠ []) {k : Nat}
    (h : ∀ e ∈ entries, PrintsAs d (prettyChars k e.2) e.2) (j : Nat) (rest : List Char) :
    readEntries? (readValue? d)
        (newline k ++ (prettyEntries k entries ++ (newline j ++ '}' :: rest))) =
      some (entries, rest) := by
  induction entries with
  | nil => exact absurd rfl hne
  | cons e entries ih =>
    obtain ⟨hv, hentries⟩ := List.forall_mem_cons.mp h
    obtain ⟨key, v⟩ := e
    cases entries with
    | nil =>
      rw [readEntries?_quoted key hv (newline j ++ '}' :: rest) _ (stopsAt_newline j _),
        skipSpace_newline j]
      · rfl
      · rw [skipSpace_newline]
        simp [prettyEntries, quoted, skipSpace, isSpace]
    | cons f entries =>
      rw [readEntries?_quoted key hv
        (',' :: (newline k ++ (prettyEntries k (f :: entries) ++ (newline j ++ '}' :: rest)))) _
        (stopsAt_comma _)]
      · have hcomma : ∀ z, skipSpace (',' :: z) = ',' :: z := fun _ => rfl
        simp only [hcomma, ih (List.cons_ne_nil f entries) hentries, Option.map_some]
      · rw [skipSpace_newline]
        simp [prettyEntries, quoted, skipSpace, isSpace]

theorem readItems?_first {vs : List Json} (h : readItems? (readValue? d) s = some (vs, r)) :
    ∀ z, skipSpace s ≠ ']' :: z := by
  intro z hz
  have hnone : readValue? d (skipSpace s) = none := by
    rw [hz]
    cases hread : readValue? d (']' :: z) with
    | none => rfl
    | some q =>
      cases readValue?_eq_some.mp hread with
      | number _ hnumber _ => rcases head_of_readNumber? hnumber with hc | hc <;> cases hc
  rw [readItems?, hnone] at h
  cases h

theorem readEntries?_first {item : Reader Json} {es : List (String × Json)}
    (h : readEntries? item s = some (es, r)) : ∀ z, skipSpace s ≠ '}' :: z := by
  intro z hz
  rw [readEntries?] at h
  split at h
  · rename_i hquote
    cases hz.symm.trans hquote
  · cases h

/-- **Printing.** A canonical value is read back from its text. -/
theorem Canonical.printsAs (h : Canonical d v) (k : Nat) : PrintsAs d (prettyChars k v) v := by
  induction h generalizing k with
  | null => exact fun rest _ => .null (by simp [dropWord?])
  | bool b =>
    intro rest _
    cases b with
    | false => exact .no (by simp [dropWord?])
    | true => exact .yes (by simp [dropWord?])
  | @int _ i hlow hhigh =>
    exact fun rest hrest => .of_number (readNumber?_intChars i hrest) (value?_intChars hlow hhigh)
  | float h =>
    intro rest hrest
    obtain ⟨t, hread, hvalue⟩ := readNumber?_floatChars h hrest
    exact .of_number hread hvalue
  | @text depth t =>
    intro rest _
    have htakes : Takes depth _ _ rest := .text (readString?_flatMap_escape t.toList rest)
    simpa [prettyChars, quoted, String.ofList_toList] using htakes
  | @array depth items _ ih =>
    intro rest _
    by_cases hne : items = []
    · subst hne
      exact .noItems rfl
    · have hread := readItems?_prettyItems hne (fun v hv => ih v hv (k + 1)) k rest
      have hempty : items.isEmpty = false := by simpa using hne
      have htakes := Takes.items (readItems?_first hread) hread
      simpa [prettyChars, hempty] using htakes
  | @object depth entries hkeys _ ih =>
    intro rest _
    by_cases hne : entries = []
    · subst hne
      exact .noEntries rfl
    · have hread := readEntries?_prettyEntries hne (fun e he => ih e he (k + 1)) k rest
      have hempty : entries.isEmpty = false := by simpa using hne
      have hrecord : (Record.ofEntries entries).toJson = .object entries :=
        congrArg Record.toJson (Record.ofEntries_entries ⟨entries, hkeys⟩)
      have htakes := Takes.entries (readEntries?_first hread) hread
      rw [hrecord] at htakes
      simpa [prettyChars, hempty] using htakes

theorem Canonical.readChars?_prettyChars (h : Canonical maxDepth v)
    (hblank : ∀ c ∈ rest, isSpace c = true) : readChars? (prettyChars 0 v ++ rest) = some v := by
  have hprints := h.printsAs 0
  have hstop : StopsAt goesOn rest := by
    intro c hc
    have hspace := hblank c (List.mem_of_mem_head? hc)
    simp only [isSpace, Bool.or_eq_true, decide_eq_true_eq] at hspace
    rcases hspace with ((rfl | rfl) | rfl) | rfl <;> rfl
  have hskip := hprints.skipSpace_append hstop
  obtain ⟨hlt, -⟩ := hprints.readValue?_append hstop
  exact readChars?_eq_some.mpr ⟨rest, hskip.symm ▸ hlt, hskip.symm ▸ hprints rest hstop, hblank⟩

end TableCleaner.Json
