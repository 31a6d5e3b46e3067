import TableCleaner.Json.Reader

/-!
# How much of a text a reader takes

What a reader leaves is an end of its text. An array begins at an opening bracket and ends right
after a closing one.
-/

namespace TableCleaner.Json

variable {s r : List Char}

theorem exists_of_map {α β : Type} {p : Option (α × List Char)} {f : α × List Char → β} {b : β}
    (h : (p.map fun x => (f x, x.2)) = some (b, r)) : ∃ a, p = some (a, r) := by
  obtain ⟨⟨a, q⟩, hp, he⟩ := Option.map_eq_some_iff.mp h
  cases he
  exact ⟨a, hp⟩

/-! ## Strings and numbers -/

theorem readString?_suffix {t : List Char} (h : readString? s = some (t, r)) : r <:+ s := by
  fun_induction readString? s generalizing t r with
  | case1 | case3 | case4 | case5 | case7 | case8 | case10 | case12 => simp at h
  | case2 rest =>
    cases h
    exact List.suffix_cons '"' rest
  | case6 a b c d n _ _ _ e f g h' rest m _ _ ih =>
    obtain ⟨u, hu⟩ := exists_of_map h
    exact (ih hu).trans ⟨['\\', 'u', a, b, c, d, '\\', 'u', e, f, g, h'], rfl⟩
  | case9 a b c d rest n _ _ _ ih =>
    obtain ⟨u, hu⟩ := exists_of_map h
    exact (ih hu).trans ⟨['\\', 'u', a, b, c, d], rfl⟩
  | case11 c rest _ d _ ih =>
    obtain ⟨u, hu⟩ := exists_of_map h
    exact (ih hu).trans ⟨['\\', c], rfl⟩
  | case13 c rest _ _ _ _ ih =>
    obtain ⟨u, hu⟩ := exists_of_map h
    exact (ih hu).trans (List.suffix_cons c rest)

theorem readExponent?_suffix {e : Int} (h : readExponent? s = some (e, r)) : r <:+ s := by
  have hdigits (t : List Char) : t.dropWhile Decimal.isDigit <:+ t := List.dropWhile_suffix _
  unfold readExponent? at h
  split at h
  rename_i negative t ht
  have hsign : t <:+ s := by
    split at ht <;> cases ht
    · exact List.suffix_cons _ _
    · exact List.suffix_cons _ _
    · exact List.suffix_rfl
  simp only at h
  split at h
  · simp at h
  · cases h
    exact (hdigits t).trans hsign

theorem readTail?_suffix {negative : Bool} {whole : List Char} {fraction : Option (List Char)}
    {n : NumberText} (h : readTail? negative whole fraction s = some (n, r)) : r <:+ s := by
  unfold readTail? at h
  split at h
  · cases h
    exact List.suffix_rfl
  · split at h
    · obtain ⟨e, he⟩ := exists_of_map h
      exact (readExponent?_suffix he).trans (List.suffix_cons _ _)
    · cases h
      exact List.suffix_rfl

theorem readDigits?_suffix {negative : Bool} {n : NumberText}
    (h : readDigits? negative s = some (n, r)) : r <:+ s := by
  have hrest : s.dropWhile Decimal.isDigit <:+ s := List.dropWhile_suffix _
  unfold readDigits? at h
  simp only at h
  split at h
  · simp at h
  · split at h
    · rename_i t ht
      split at h
      · simp at h
      · have hfraction : t.dropWhile Decimal.isDigit <:+ t := List.dropWhile_suffix _
        rw [ht] at hrest
        exact (readTail?_suffix h).trans
          (hfraction.trans ((List.suffix_cons '.' t).trans hrest))
    · exact (readTail?_suffix h).trans hrest

theorem readNumber?_suffix {n : NumberText} (h : readNumber? s = some (n, r)) : r <:+ s := by
  unfold readNumber? at h
  split at h
  · exact (readDigits?_suffix h).trans (List.suffix_cons _ _)
  · exact readDigits?_suffix h

/-! ## Values -/

theorem skipSpace_suffix (s : List Char) : skipSpace s <:+ s :=
  List.dropWhile_suffix _

theorem suffix_of_skipSpace {t : List Char} {c : Char} (h : skipSpace s = c :: t) : t <:+ s :=
  (List.suffix_cons c t).trans (h ▸ skipSpace_suffix s)

/-- What the reader leaves is an end of its text. -/
def LeavesEnd (item : Reader Json) : Prop :=
  ∀ {s : List Char} {v : Json} {r : Rest s}, item s = some (v, r) → r.1 <:+ s

variable {item : Reader Json}

theorem readItems?_ends (hitem : LeavesEnd item) {vs : List Json}
    (h : readItems? item s = some (vs, r)) : ∃ inner, s = inner ++ ']' :: r := by
  fun_induction readItems? item s generalizing vs r with
  | case1 | case4 => simp at h
  | case2 s v t hlt hread rest hcomma ih =>
    obtain ⟨vs, hvs⟩ := exists_of_map h
    obtain ⟨inner, hinner⟩ := ih hvs
    obtain ⟨before, hbefore⟩ :=
      (suffix_of_skipSpace hcomma).trans ((hitem hread).trans (skipSpace_suffix s))
    exact ⟨before ++ inner, by rw [← hbefore, hinner, List.append_assoc]⟩
  | case3 s v t hlt hread rest hclose =>
    cases h
    have hcons := skipSpace_suffix t
    rw [hclose] at hcons
    obtain ⟨before, hbefore⟩ := hcons.trans ((hitem hread).trans (skipSpace_suffix s))
    exact ⟨before, hbefore.symm⟩

theorem entry_suffix (hitem : LeavesEnd item) {t u q key : List Char} {v : Json} {c : Char}
    {x : Rest (skipSpace u)} (hquote : skipSpace s = '"' :: t)
    (hkey : readString? t = some (key, r)) (hcolon : skipSpace r = ':' :: u)
    (hvalue : item (skipSpace u) = some (v, x)) (hend : skipSpace x.1 = c :: q) : q <:+ s := by
  have hu : q <:+ u := (suffix_of_skipSpace hend).trans ((hitem hvalue).trans (skipSpace_suffix u))
  have ht : u <:+ t := (suffix_of_skipSpace hcolon).trans (readString?_suffix hkey)
  exact hu.trans (ht.trans (suffix_of_skipSpace hquote))

theorem readEntries?_suffix (hitem : LeavesEnd item) {es : List (String × Json)}
    (h : readEntries? item s = some (es, r)) : r <:+ s := by
  fun_induction readEntries? item s generalizing es r with
  | case1 | case2 | case5 | case6 | case7 => simp at h
  | case3 s t hquote key r₁ hkey u hcolon v x hlt hvalue q hcomma ih =>
    obtain ⟨es, hes⟩ := exists_of_map h
    exact (ih hes).trans (entry_suffix hitem hquote hkey hcolon hvalue hcomma)
  | case4 s t hquote key r₁ hkey u hcolon v x hlt hvalue q hclose =>
    cases h
    exact entry_suffix hitem hquote hkey hcolon hvalue hclose

theorem dropWord?_suffix {word : List Char} (h : dropWord? word s = some r) : r <:+ s := by
  unfold dropWord? at h
  split at h
  · cases h
    exact List.drop_suffix _ _
  · simp at h

/-- The ways in which a value `v` is taken off the front of a text so that `r` is left. -/
inductive Takes : Nat → List Char → Json → List Char → Prop
  | text {depth t u r} (h : readString? t = some (u, r)) :
    Takes depth ('"' :: t) (.text (String.ofList u)) r
  | null {depth t r} (h : dropWord? ['u', 'l', 'l'] t = some r) : Takes depth ('n' :: t) .null r
  | yes {depth t r} (h : dropWord? ['r', 'u', 'e'] t = some r) :
    Takes depth ('t' :: t) (.bool true) r
  | no {depth t r} (h : dropWord? ['a', 'l', 's', 'e'] t = some r) :
    Takes depth ('f' :: t) (.bool false) r
  | noItems {depth t r} (h : skipSpace t = ']' :: r) : Takes (depth + 1) ('[' :: t) (.array []) r
  | items {depth t vs r} (hfirst : ∀ z, skipSpace t ≠ ']' :: z)
    (h : readItems? (readValue? depth) t = some (vs, r)) : Takes (depth + 1) ('[' :: t) (.array vs) r
  | noEntries {depth t r} (h : skipSpace t = '}' :: r) : Takes (depth + 1) ('{' :: t) (.object []) r
  | entries {depth t es r} (hfirst : ∀ z, skipSpace t ≠ '}' :: z)
    (h : readEntries? (readValue? depth) t = some (es, r)) :
    Takes (depth + 1) ('{' :: t) (Record.ofEntries es).toJson r
  | number {depth c t n v r} (hc : c ∉ ['"', 'n', 't', 'f', '[', '{'])
    (h : readNumber? (c :: t) = some (n, r)) (hv : n.value? = some v) : Takes depth (c :: t) v r

theorem shorter?_eq_some {α : Type} {p : Option (α × List Char)} {v : α} {y : Rest s} :
    shorter? s p = some (v, y) ↔ p = some (v, y.1) := by
  obtain ⟨r, hlt⟩ := y
  unfold shorter?
  split
  · simp
  · rename_i w u
    split
    · simp
    · rename_i hu
      simp only [reduceCtorEq, Option.some.injEq, Prod.mk.injEq, false_iff, not_and]
      rintro rfl rfl
      exact hu hlt

/-- The reader takes a value in these ways and in no others. All that follows about it is a case
analysis over them. -/
theorem readValue?_eq_some {depth : Nat} {v : Json} {y : Rest s} :
    readValue? depth s = some (v, y) ↔ Takes depth s v y.1 := by
  constructor
  · intro h
    unfold readValue? at h
    split at h
    · simp at h
    rename_i c t
    replace h := shorter?_eq_some.mp h
    generalize y.1 = r at h ⊢
    split at h
    · rename_i hc
      obtain ⟨⟨u, r⟩, hu, he⟩ := Option.map_eq_some_iff.mp h
      cases he
      exact hc ▸ .text hu
    split at h
    · rename_i hc
      obtain ⟨r, hr, he⟩ := Option.map_eq_some_iff.mp h
      cases he
      exact hc ▸ .null hr
    split at h
    · rename_i hc
      obtain ⟨r, hr, he⟩ := Option.map_eq_some_iff.mp h
      cases he
      exact hc ▸ .yes hr
    split at h
    · rename_i hc
      obtain ⟨r, hr, he⟩ := Option.map_eq_some_iff.mp h
      cases he
      exact hc ▸ .no hr
    split at h
    · rename_i hc
      subst hc
      split at h
      · simp at h
      split at h
      · rename_i hclose
        cases h
        exact .noItems hclose
      · rename_i hfirst
        obtain ⟨⟨vs, r⟩, hvs, he⟩ := Option.map_eq_some_iff.mp h
        cases he
        exact .items hfirst hvs
    split at h
    · rename_i hc
      subst hc
      split at h
      · simp at h
      split at h
      · rename_i hclose
        cases h
        exact .noEntries hclose
      · rename_i hfirst
        obtain ⟨⟨es, r⟩, hes, he⟩ := Option.map_eq_some_iff.mp h
        cases he
        exact .entries hfirst hes
    obtain ⟨⟨n, r⟩, hn, hv⟩ := Option.bind_eq_some_iff.mp h
    obtain ⟨w, hw, he⟩ := Option.map_eq_some_iff.mp hv
    cases he
    exact .number (by simp_all) hn hw
  · intro h
    unfold readValue?
    cases h with
    | text h | null h | yes h | no h | noItems h | items _ h | noEntries h | entries _ h =>
      rw [shorter?_eq_some]
      simp [h]
    | number hc h hv =>
      rw [shorter?_eq_some]
      simp_all

theorem Takes.suffix {depth : Nat} {v : Json} (h : Takes depth s v r) : r <:+ s := by
  induction depth using Nat.strongRecOn generalizing s v r with
  | ind depth ih =>
    have hleaves {d : Nat} (hd : d < depth) : LeavesEnd (readValue? d) :=
      fun hread => ih d hd (readValue?_eq_some.mp hread)
    cases h with
    | text h => exact (readString?_suffix h).trans (List.suffix_cons _ _)
    | null h | yes h | no h => exact (dropWord?_suffix h).trans (List.suffix_cons _ _)
    | noItems h | noEntries h => exact (suffix_of_skipSpace h).trans (List.suffix_cons _ _)
    | items _ h =>
      obtain ⟨inner, hinner⟩ := readItems?_ends (hleaves (Nat.lt_succ_self _)) h
      exact ⟨'[' :: inner ++ [']'], by simp [hinner]⟩
    | entries _ h =>
      exact (readEntries?_suffix (hleaves (Nat.lt_succ_self _)) h).trans (List.suffix_cons _ _)
    | number _ h _ => exact readNumber?_suffix h

theorem readValue?_leavesEnd (depth : Nat) : LeavesEnd (readValue? depth) :=
  fun h => (readValue?_eq_some.mp h).suffix

theorem NumberText.value?_ne_array (t : NumberText) (items : List Json) :
    t.value? ≠ some (.array items) := by
  unfold NumberText.value?
  grind

theorem Takes.array_ends {depth : Nat} {items : List Json} (h : Takes depth s (.array items) r) :
    ∃ inner, s = '[' :: inner ++ ']' :: r := by
  cases h with
  | @noItems depth t r h =>
    have hend := skipSpace_suffix t
    rw [h] at hend
    obtain ⟨before, hbefore⟩ := hend
    exact ⟨before, by simp [hbefore]⟩
  | items _ h =>
    obtain ⟨inner, hinner⟩ := readItems?_ends (readValue?_leavesEnd _) h
    exact ⟨inner, by simp [hinner]⟩
  | number _ _ hv => exact absurd hv (NumberText.value?_ne_array _ items)

end TableCleaner.Json
