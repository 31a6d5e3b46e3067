import TableCleaner.Proofs.Json.Extent

/-!
# What a reader leaves may be missing

A reader does not look past what it takes, but for a number, which ends where no digit follows. So
any end of the text that is left can be cut off and the same value is read.
-/

namespace TableCleaner.Json

variable {s r q : List Char} {item : Reader Json}

/-! ## Ends of texts -/

theorem exists_of_append_suffix {x t : List Char} (h : x ++ t = s ++ q) (hq : q <:+ t) :
    ∃ s', s = x ++ s' ∧ t = s' ++ q := by
  obtain ⟨s', rfl⟩ := hq
  rw [← List.append_assoc] at h
  exact ⟨s', (List.append_cancel_right h).symm, rfl⟩

theorem exists_of_cons_suffix {c : Char} {t : List Char} (h : c :: t = s ++ q) (hq : q <:+ t) :
    ∃ s', s = c :: s' ∧ t = s' ++ q :=
  exists_of_append_suffix (x := [c]) h hq

theorem dropWhile_cut {f : Char → Bool} (hq : q <:+ (s ++ q).dropWhile f) :
    (s ++ q).dropWhile f = s.dropWhile f ++ q := by
  induction s with
  | nil => exact (List.dropWhile_suffix f).eq_of_length_le hq.length_le
  | cons c s ih =>
    simp only [List.cons_append, List.dropWhile_cons] at hq ⊢
    split
    · rename_i hc
      rw [if_pos hc] at hq
      exact ih hq
    · rfl

theorem takeWhile_cut {f : Char → Bool} (hq : q <:+ (s ++ q).dropWhile f) :
    (s ++ q).takeWhile f = s.takeWhile f := by
  have hwhole := List.takeWhile_append_dropWhile (p := f) (l := s ++ q)
  have hs := List.takeWhile_append_dropWhile (p := f) (l := s)
  rw [dropWhile_cut hq, ← List.append_assoc] at hwhole
  exact List.append_cancel_right ((List.append_cancel_right hwhole).trans hs.symm)

/-! ## Strings and numbers -/

/-- The end that may be missing stands behind the characters `x` that were read first. -/
theorem exists_of_readString? {x t u : List Char} (h : s ++ q = x ++ t)
    (hu : readString? t = some (u, r ++ q)) : ∃ s', s = x ++ s' ∧ t = s' ++ q :=
  exists_of_append_suffix h.symm ((List.suffix_append r q).trans (readString?_suffix hu))

theorem readString?_cut {t : List Char} (h : readString? (s ++ q) = some (t, r ++ q)) :
    readString? s = some (t, r) := by
  generalize hx : s ++ q = x at h
  fun_induction readString? x generalizing s t r with
  | case1 | case3 | case4 | case5 | case7 | case8 | case10 | case12 => simp at h
  | case2 rest =>
    cases h
    obtain ⟨s, rfl, hs⟩ := exists_of_cons_suffix hx.symm (List.suffix_append r q)
    rw [readString?, List.append_cancel_right hs]
  | case6 a b c d n hn _ _ e f g h' rest m _ _ ih =>
    obtain ⟨u, hu⟩ := exists_of_map h
    obtain ⟨s, rfl, rfl⟩ :=
      exists_of_readString? (x := ['\\', 'u', a, b, c, d, '\\', 'u', e, f, g, h']) hx hu
    have hread := ih rfl hu
    simp_all [readString?]
  | case9 a b c d rest n _ _ _ ih =>
    obtain ⟨u, hu⟩ := exists_of_map h
    obtain ⟨s, rfl, rfl⟩ := exists_of_readString? (x := ['\\', 'u', a, b, c, d]) hx hu
    have hread := ih rfl hu
    simp_all [readString?]
  | case11 c rest hshort d hd ih =>
    obtain ⟨u, hu⟩ := exists_of_map h
    obtain ⟨s, rfl, rfl⟩ := exists_of_readString? (x := ['\\', c]) hx hu
    rw [hu] at h
    change readString? ('\\' :: c :: s) = _
    rw [readString?, hd, ih rfl hu]
    · simpa using h
    · rintro a b c d rest hc rfl
      exact hshort a b c d _ hc rfl
  | case13 c rest hquote _ hescape hcontrol ih =>
    obtain ⟨u, hu⟩ := exists_of_map h
    obtain ⟨s, rfl, rfl⟩ := exists_of_readString? (x := [c]) hx hu
    rw [hu] at h
    rw [List.singleton_append, readString?, if_neg hcontrol, ih rfl hu]
    · simpa using h
    · exact hquote
    · rintro a b c d rest hc rfl
      exact hescape 'u' _ hc rfl
    · rintro c rest hc rfl
      exact hescape c _ hc rfl

theorem readExponent?_cut {e : Int} (h : readExponent? (s ++ q) = some (e, r ++ q)) :
    readExponent? s = some (e, r) := by
  unfold readExponent? at h ⊢
  split at h
  rename_i negative t ht
  simp only at h
  split at h
  · simp at h
  rename_i hdigits
  obtain ⟨he, hr⟩ := Prod.mk.inj (Option.some.inj h)
  have hq : q <:+ t.dropWhile Decimal.isDigit := hr ▸ List.suffix_append r q
  have hqt : q <:+ t := hq.trans (List.dropWhile_suffix _)
  split
  rename_i negative' t' ht'
  -- The sign stands before what is left.
  have hsign : negative = negative' ∧ t = t' ++ q := by
    cases s with
    | nil =>
      cases ht'
      split at ht <;> cases ht <;> rename_i hx
      · exact absurd hqt.length_le (by simp [show q = _ from hx])
      · exact absurd hqt.length_le (by simp [show q = _ from hx])
      · exact ⟨rfl, rfl⟩
    | cons c s =>
      simp only [List.cons_append] at ht
      split at ht' <;> cases ht' <;> simp_all
  obtain ⟨rfl, rfl⟩ := hsign
  rw [dropWhile_cut hq] at hr
  rw [takeWhile_cut hq] at he hdigits
  simp only
  rw [if_neg hdigits, he, List.append_cancel_right hr]

theorem readTail?_cut {negative : Bool} {whole : List Char} {fraction : Option (List Char)}
    {n : NumberText} (h : readTail? negative whole fraction (s ++ q) = some (n, r ++ q)) :
    readTail? negative whole fraction s = some (n, r) := by
  unfold readTail? at h
  split at h
  · rename_i hnil
    obtain ⟨rfl, rfl⟩ := List.append_eq_nil_iff.mp hnil
    simpa [readTail?] using h
  rename_i c t hx
  split at h
  · rename_i hc
    obtain ⟨e, he⟩ := exists_of_map h
    obtain ⟨s, rfl, rfl⟩ :=
      exists_of_cons_suffix hx.symm ((List.suffix_append r q).trans (readExponent?_suffix he))
    rw [he] at h
    rw [readTail?, if_pos hc, readExponent?_cut he]
    simpa using h
  · rename_i hc
    obtain ⟨hn, hr⟩ := Prod.mk.inj (Option.some.inj h)
    rw [← List.append_cancel_right hr]
    cases s with
    | nil => rw [readTail?, hn]
    | cons d s =>
      obtain ⟨rfl, -⟩ := List.cons.inj hx
      rw [readTail?, if_neg hc, hn]

theorem readDigits?_cut {negative : Bool} {n : NumberText}
    (h : readDigits? negative (s ++ q) = some (n, r ++ q)) :
    readDigits? negative s = some (n, r) := by
  have hr : q <:+ r ++ q := List.suffix_append r q
  unfold readDigits? at h ⊢
  simp only at h ⊢
  split at h
  · simp at h
  rename_i hwhole
  split at h
  · rename_i t ht
    split at h
    · simp at h
    rename_i hfraction
    have hqt' : q <:+ t.dropWhile Decimal.isDigit := hr.trans (readTail?_suffix h)
    have hqt : q <:+ t := hqt'.trans (List.dropWhile_suffix _)
    have hq : q <:+ (s ++ q).dropWhile Decimal.isDigit := ht ▸ hqt.trans (List.suffix_cons '.' t)
    rw [dropWhile_cut hq] at ht
    obtain ⟨t, hd, rfl⟩ := exists_of_cons_suffix ht.symm hqt
    rw [takeWhile_cut hq] at hwhole h
    rw [takeWhile_cut hqt'] at hfraction h
    rw [dropWhile_cut hqt'] at h
    rw [if_neg hwhole, hd]
    simp only
    rw [if_neg hfraction, readTail?_cut h]
  · rename_i hpoint
    have hq : q <:+ (s ++ q).dropWhile Decimal.isDigit := hr.trans (readTail?_suffix h)
    rw [dropWhile_cut hq] at h hpoint
    rw [takeWhile_cut hq] at hwhole h
    rw [if_neg hwhole]
    split
    · rename_i t ht
      rw [ht] at hpoint
      exact absurd rfl (hpoint _)
    · exact readTail?_cut h

theorem readNumber?_cut {n : NumberText} (h : readNumber? (s ++ q) = some (n, r ++ q)) :
    readNumber? s = some (n, r) := by
  unfold readNumber? at h
  split at h
  · rename_i t hx
    obtain ⟨s, rfl, rfl⟩ :=
      exists_of_cons_suffix hx.symm ((List.suffix_append r q).trans (readDigits?_suffix h))
    exact readDigits?_cut h
  · rename_i hsign
    unfold readNumber?
    split
    · exact absurd rfl (hsign _)
    · exact readDigits?_cut h

/-! ## Values -/

theorem skipSpace_cut (hq : q <:+ skipSpace (s ++ q)) : skipSpace (s ++ q) = skipSpace s ++ q :=
  dropWhile_cut hq

theorem skipSpace_cut_cons {c : Char} {t : List Char} (h : skipSpace (s ++ q) = c :: t)
    (hq : q <:+ t) : ∃ t', skipSpace s = c :: t' ∧ t = t' ++ q := by
  rw [skipSpace_cut (h ▸ hq.trans (List.suffix_cons c t))] at h
  exact exists_of_cons_suffix h.symm hq

/-- An end of the text that the reader leaves may be missing. -/
def Cuts (item : Reader Json) : Prop :=
  ∀ {x s q r : List Char} {v : Json} {y : Rest x}, item x = some (v, y) → x = s ++ q →
    y.1 = r ++ q → ∃ h, item s = some (v, ⟨r, h⟩)

theorem readItems?_of_comma {t u : List Char} {v : Json} {h : t.length < (skipSpace s).length}
    (hread : item (skipSpace s) = some (v, ⟨t, h⟩)) (hcomma : skipSpace t = ',' :: u) :
    readItems? item s = (readItems? item u).map fun p => (v :: p.1, p.2) := by
  fun_cases readItems? item s <;> grind

theorem readItems?_of_close {t u : List Char} {v : Json} {h : t.length < (skipSpace s).length}
    (hread : item (skipSpace s) = some (v, ⟨t, h⟩)) (hclose : skipSpace t = ']' :: u) :
    readItems? item s = some ([v], u) := by
  fun_cases readItems? item s <;> grind

theorem item_cut (hitem : LeavesEnd item) (hcut : Cuts item) {u : List Char} {v : Json} {c : Char}
    {y : Rest (skipSpace (s ++ q))} (hread : item (skipSpace (s ++ q)) = some (v, y))
    (hend : skipSpace y.1 = c :: u) (hq : q <:+ u) :
    ∃ (t u' : List Char) (h : t.length < (skipSpace s).length),
      item (skipSpace s) = some (v, ⟨t, h⟩) ∧ skipSpace t = c :: u' ∧ u = u' ++ q := by
  have hqy : q <:+ y.1 := hq.trans (suffix_of_skipSpace hend)
  obtain ⟨t, ht⟩ := hqy
  have hs : skipSpace (s ++ q) = skipSpace s ++ q :=
    skipSpace_cut ((ht ▸ List.suffix_append t q).trans (hitem hread))
  obtain ⟨hlt, hread'⟩ := hcut hread hs ht.symm
  rw [← ht] at hend
  obtain ⟨u', hend', hu⟩ := skipSpace_cut_cons hend hq
  exact ⟨t, u', hlt, hread', hend', hu⟩

theorem readItems?_cut (hitem : LeavesEnd item) (hcut : Cuts item) {vs : List Json}
    (h : readItems? item (s ++ q) = some (vs, r ++ q)) : readItems? item s = some (vs, r) := by
  generalize hx : s ++ q = x at h
  fun_induction readItems? item x generalizing s vs r with
  | case1 | case4 => simp at h
  | case2 x v t hlt hread rest hcomma ih =>
    subst hx
    obtain ⟨ws, hws⟩ := exists_of_map h
    obtain ⟨inner, hinner⟩ := readItems?_ends hitem hws
    have hq : q <:+ rest := ⟨inner ++ ']' :: r, by simp [hinner]⟩
    obtain ⟨t', u, hlt', hread', hcomma', rfl⟩ := item_cut hitem hcut hread hcomma hq
    rw [hws] at h
    rw [readItems?_of_comma hread' hcomma', ih rfl hws]
    simpa using h
  | case3 x v t hlt hread rest hclose =>
    subst hx
    cases h
    obtain ⟨t', u, hlt', hread', hclose', hu⟩ :=
      item_cut hitem hcut hread hclose (List.suffix_append r q)
    rw [readItems?_of_close hread' hclose', List.append_cancel_right hu]

theorem readEntries?_of_value {t u w key : List Char} {v : Json} {y : Rest (skipSpace w)}
    (hquote : skipSpace s = '"' :: t) (hkey : readString? t = some (key, u))
    (hcolon : skipSpace u = ':' :: w) (hvalue : item (skipSpace w) = some (v, y)) :
    readEntries? item s =
      match skipSpace y.1 with
      | ',' :: z => (readEntries? item z).map fun p => ((String.ofList key, v) :: p.1, p.2)
      | '}' :: z => some ([(String.ofList key, v)], z)
      | _ => none := by
  rw [readEntries?]
  split
  · rename_i t' ht'
    rw [hquote] at ht'
    cases ht'
    split
    · simp_all
    · rename_i key' u' hkey'
      rw [hkey] at hkey'
      cases hkey'
      split
      · rename_i w' hw'
        rw [hcolon] at hw'
        cases hw'
        simp only [hvalue]
        split <;> simp_all
      · simp_all
  · simp_all

theorem entry_cut (hitem : LeavesEnd item) (hcut : Cuts item) {t u w z key : List Char} {v : Json}
    {c : Char} {y : Rest (skipSpace w)} (hquote : skipSpace (s ++ q) = '"' :: t)
    (hkey : readString? t = some (key, u)) (hcolon : skipSpace u = ':' :: w)
    (hvalue : item (skipSpace w) = some (v, y)) (hend : skipSpace y.1 = c :: z) (hq : q <:+ z) :
    ∃ (t' u' w' z' : List Char) (y' : Rest (skipSpace w')), skipSpace s = '"' :: t' ∧
      readString? t' = some (key, u') ∧ skipSpace u' = ':' :: w' ∧
      item (skipSpace w') = some (v, y') ∧ skipSpace y'.1 = c :: z' ∧ z = z' ++ q := by
  have hqw : q <:+ w := hq.trans ((suffix_of_skipSpace hend).trans
    ((hitem hvalue).trans (skipSpace_suffix w)))
  have hqu : q <:+ u := hqw.trans (suffix_of_skipSpace hcolon)
  obtain ⟨t, hquote', rfl⟩ := skipSpace_cut_cons hquote (hqu.trans (readString?_suffix hkey))
  obtain ⟨u, rfl⟩ := hqu
  obtain ⟨w, hcolon', rfl⟩ := skipSpace_cut_cons hcolon hqw
  obtain ⟨x, z', hlt, hvalue', hend', hz⟩ := item_cut hitem hcut hvalue hend hq
  exact ⟨t, u, w, z', ⟨x, hlt⟩, hquote', readString?_cut hkey, hcolon', hvalue', hend', hz⟩

theorem readEntries?_cut (hitem : LeavesEnd item) (hcut : Cuts item) {es : List (String × Json)}
    (h : readEntries? item (s ++ q) = some (es, r ++ q)) : readEntries? item s = some (es, r) := by
  generalize hx : s ++ q = x at h
  fun_induction readEntries? item x generalizing s es r with
  | case1 | case2 | case5 | case6 | case7 => simp at h
  | case3 x t hquote key u hkey w hcolon v y hlt hvalue z hcomma ih =>
    subst hx
    obtain ⟨fs, hfs⟩ := exists_of_map h
    have hq : q <:+ z := (List.suffix_append r q).trans (readEntries?_suffix hitem hfs)
    obtain ⟨t, u, w, z, y, hquote', hkey', hcolon', hvalue', hcomma', rfl⟩ :=
      entry_cut hitem hcut hquote hkey hcolon hvalue hcomma hq
    rw [hfs] at h
    rw [readEntries?_of_value hquote' hkey' hcolon' hvalue', hcomma']
    simp only
    rw [ih rfl hfs]
    simpa using h
  | case4 x t hquote key u hkey w hcolon v y hlt hvalue z hclose =>
    subst hx
    cases h
    obtain ⟨t, u, w, z, y, hquote', hkey', hcolon', hvalue', hclose', hz⟩ :=
      entry_cut hitem hcut hquote hkey hcolon hvalue hclose (List.suffix_append r q)
    rw [readEntries?_of_value hquote' hkey' hcolon' hvalue', hclose', List.append_cancel_right hz]
    rfl

theorem dropWord?_cut {word : List Char} (h : dropWord? word (s ++ q) = some (r ++ q)) :
    dropWord? word s = some r := by
  unfold dropWord? at h
  split at h
  · rename_i hword
    obtain ⟨t, ht⟩ := List.isPrefixOf_iff_prefix.mp hword
    rw [← ht, List.drop_left] at h
    cases h
    rw [← List.append_assoc] at ht
    obtain rfl := List.append_cancel_right ht
    simp [dropWord?]
  · simp at h

theorem skipSpace_append_cons {c : Char} {t : List Char} (h : skipSpace s = c :: t)
    (q : List Char) : skipSpace (s ++ q) = c :: (t ++ q) := by
  unfold skipSpace at h ⊢
  rw [List.dropWhile_append, h]
  rfl

/-- What is left may be cut short: the value does not depend on it. -/
theorem Takes.cut {depth : Nat} {v : Json} (h : Takes depth (s ++ q) v (r ++ q))
    (hlt : r.length < s.length) : Takes depth s v r := by
  induction depth using Nat.strongRecOn generalizing s q r v with
  | ind depth ih =>
    have hcuts {d : Nat} (hd : d < depth) : Cuts (readValue? d) := by
      rintro x s q r v y hread rfl hy
      have htakes := readValue?_eq_some.mp hread
      rw [hy] at htakes
      have hlt : r.length < s.length := by
        have := y.2
        simp only [hy, List.length_append] at this
        omega
      exact ⟨hlt, readValue?_eq_some.mpr (ih d hd htakes hlt)⟩
    cases s with
    | nil => simp at hlt
    | cons c s =>
      cases h with
      | text h => exact .text (readString?_cut h)
      | null h => exact .null (dropWord?_cut h)
      | yes h => exact .yes (dropWord?_cut h)
      | no h => exact .no (dropWord?_cut h)
      | noItems h =>
        obtain ⟨t, ht, he⟩ := skipSpace_cut_cons h (List.suffix_append r q)
        rw [← List.append_cancel_right he] at ht
        exact .noItems ht
      | items hfirst h =>
        refine .items ?_ (readItems?_cut (readValue?_leavesEnd _) (hcuts (Nat.lt_succ_self _)) h)
        exact fun z hz => hfirst _ (skipSpace_append_cons hz q)
      | noEntries h =>
        obtain ⟨t, ht, he⟩ := skipSpace_cut_cons h (List.suffix_append r q)
        rw [← List.append_cancel_right he] at ht
        exact .noEntries ht
      | entries hfirst h =>
        refine .entries ?_ (readEntries?_cut (readValue?_leavesEnd _) (hcuts (Nat.lt_succ_self _)) h)
        exact fun z hz => hfirst _ (skipSpace_append_cons hz q)
      | number hc h hv => exact .number hc (readNumber?_cut (s := c :: s) h) hv

/-! ## Whole texts -/

theorem skipSpace_eq_nil : skipSpace s = [] ↔ ∀ c ∈ s, isSpace c = true := by
  constructor
  · intro h c hc
    have hsplit := List.takeWhile_append_dropWhile (p := isSpace) (l := s)
    rw [show s.dropWhile isSpace = [] from h, List.append_nil] at hsplit
    rw [← hsplit] at hc
    exact List.all_eq_true.mp List.all_takeWhile c hc
  · intro h
    have hnil : skipSpace (s ++ []) = [] := List.dropWhile_append_of_pos h
    rwa [List.append_nil] at hnil

theorem readChars?_eq_some {v : Json} :
    readChars? s = some v ↔ ∃ r, r.length < (skipSpace s).length ∧
      Takes maxDepth (skipSpace s) v r ∧ ∀ c ∈ r, isSpace c = true := by
  unfold readChars?
  constructor
  · intro h
    split at h
    · rename_i w r hlt hread
      split at h
      · rename_i hblank
        cases h
        exact ⟨r, hlt, readValue?_eq_some.mp hread, skipSpace_eq_nil.mp (List.isEmpty_iff.mp hblank)⟩
      · simp at h
    · simp at h
  · rintro ⟨r, hlt, htakes, hblank⟩
    have hread := (readValue?_eq_some (y := ⟨r, hlt⟩)).mpr htakes
    simp [hread, skipSpace_eq_nil.mpr hblank]

theorem readChars?_array {items : List Json} (h : readChars? s = some (.array items)) :
    ∃ p inner q, s = p ++ '[' :: inner ++ ']' :: q ∧ (∀ c ∈ p, isSpace c = true) ∧
      (∀ c ∈ q, isSpace c = true) ∧ readChars? ('[' :: inner ++ [']']) = some (.array items) := by
  obtain ⟨q, -, htakes, hq⟩ := readChars?_eq_some.mp h
  obtain ⟨inner, hinner⟩ := htakes.array_ends
  refine ⟨s.takeWhile isSpace, inner, q, ?_, List.all_eq_true.mp List.all_takeWhile, hq, ?_⟩
  · rw [List.append_assoc, List.cons_append, ← List.cons_append, ← hinner]
    exact List.takeWhile_append_dropWhile.symm
  · refine readChars?_eq_some.mpr ⟨[], Nat.zero_lt_succ _, ?_, by simp⟩
    rw [hinner] at htakes
    refine Takes.cut (q := q) ?_ (Nat.zero_lt_succ _)
    simpa [skipSpace, isSpace] using htakes

end TableCleaner.Json
