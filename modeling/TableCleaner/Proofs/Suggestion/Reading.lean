import TableCleaner.Proofs.Json.Cut
import TableCleaner.Proofs.Suggestion.Fence
import TableCleaner.Suggestion.Basic

/-!
# Suggestions in wrapped texts

Suggestions are read from the fenced text, or failing that from the bracketed part. For an array
without a fence in it, both are the array itself, so what stands around it does not matter.
-/

namespace TableCleaner

open Fence

variable {a p q s tag inner : List Char}

/-! ## Arrays as texts -/

theorem Json.isBlank_of_isSpace {c : Char} (h : Json.isSpace c = true) : Text.isBlank c = true := by
  simp only [Json.isSpace, Bool.or_eq_true, decide_eq_true_eq] at h
  rcases h with ((rfl | rfl) | rfl) | rfl <;> rfl

theorem Fence.trim_brackets (hp : ∀ c ∈ p, Text.isBlank c = true)
    (hq : ∀ c ∈ q, Text.isBlank c = true) (inner : List Char) :
    Text.trim (p ++ '[' :: inner ++ ']' :: q) = '[' :: inner ++ [']'] := by
  have hbetween := Text.trim_between (c := '[') (d := ']') (m := inner) rfl rfl [] []
  have hrest : p ++ '[' :: inner ++ ']' :: q = p ++ ([] ++ '[' :: inner ++ ']' :: []) ++ q := by simp
  rw [hrest, Text.trim_append_blank hq, Text.trim_blank_append hp, hbetween]
  simp [Text.trimStart, Text.trimEnd]

theorem Json.bracketed_of_array {items : List Json} (h : Json.readChars? a = some (.array items)) :
    Bracketed a ∧ Json.readChars? (Text.trim a) = some (.array items) := by
  obtain ⟨p, inner, q, rfl, hp, hq, hread⟩ := Json.readChars?_array h
  rw [Fence.Bracketed, Fence.trim_brackets (fun c hc => isBlank_of_isSpace (hp c hc))
    (fun c hc => isBlank_of_isSpace (hq c hc))]
  exact ⟨⟨inner, rfl⟩, hread⟩

theorem Fence.exists_of_bracketed (h : Bracketed a) :
    ∃ p inner q, a = p ++ '[' :: inner ++ ']' :: q ∧ (∀ c ∈ p, Text.isBlank c = true) ∧
      (∀ c ∈ q, Text.isBlank c = true) ∧ Text.trim a = '[' :: inner ++ [']'] := by
  obtain ⟨inner, hinner⟩ := h
  obtain ⟨p, q, hp, hq, ha⟩ := Text.exists_trim a
  exact ⟨p, inner, q, by rw [hinner] at ha; simpa using ha, hp, hq, hinner⟩

theorem Fence.unmarked_of_blank (h : ∀ c ∈ p, Text.isBlank c = true) : Unmarked p := by
  rintro c hc rfl
  exact absurd (h _ hc) (by decide)

/-- What surrounds an array stays apart from it: no fence goes over its brackets. -/
theorem Fence.free_between (ha : Free a) (hb : Bracketed a) (hp : Free p) (hq : Free q) :
    Free (p ++ a ++ q) := by
  obtain ⟨x, inner, y, rfl, hx, hy, -⟩ := exists_of_bracketed hb
  have hinner : Free inner := ha.of_infix ⟨x ++ ['['], ']' :: y, by simp⟩
  have hpx : Free (p ++ x) := (unmarked_of_blank hx).free_append_iff.mpr hp
  have hyq : Free (y ++ q) := (unmarked_of_blank hy).append_free_iff.mpr hq
  have hleft : Free (p ++ x ++ '[' :: inner) := (free_append_cons (by decide)).mpr ⟨hpx, hinner⟩
  have hall : Free (p ++ x ++ '[' :: inner ++ ']' :: (y ++ q)) :=
    (free_append_cons (by decide)).mpr ⟨hleft, hyq⟩
  simpa using hall

namespace Suggestion

/-! ## The value -/

theorem value?_eq {b : List Char} (h : body s = b) :
    value? s = (Json.readChars? b).or ((bracketed? b).bind Json.readChars?) := by
  subst h
  rfl

theorem value?_of_body_eq (h : body s = '[' :: inner ++ [']']) :
    value? s = Json.readChars? ('[' :: inner ++ [']']) := by
  have hspan : bracketed? ('[' :: inner ++ [']']) = some ('[' :: inner ++ [']']) :=
    bracketed?_append (p := []) (q := []) (by simp) (by simp) inner
  rw [value?_eq h, hspan, Option.bind_some, Option.or_self]

theorem value?_of_body_append (h : body s = p ++ '[' :: inner ++ ']' :: q) (hp : '[' ∉ p)
    (hq : ']' ∉ q)
    (harray : ∀ v, Json.readChars? (body s) = some v → ∃ items, v = .array items) :
    value? s = Json.readChars? ('[' :: inner ++ [']']) := by
  have hspan := bracketed?_append hp hq inner
  rw [h] at harray
  rw [value?_eq h]
  cases hread : Json.readChars? (p ++ '[' :: inner ++ ']' :: q) with
  | none => rw [hspan, Option.bind_some, Option.none_or]
  | some v =>
    obtain ⟨items, rfl⟩ := harray v hread
    obtain ⟨x, inner', y, he, hx, hy, hread'⟩ := Json.readChars?_array hread
    have hspan' := bracketed?_append (p := x) (q := y)
      (fun hm => absurd (hx _ hm) (by decide)) (fun hm => absurd (hy _ hm) (by decide)) inner'
    rw [← he, hspan] at hspan'
    rw [Option.some.inj hspan', hread', Option.some_or]

/-! ## Wrapped texts -/

theorem value?_closed (ha : Free a) (hp : Free p) (htag : '\n' ∉ tag) (q : List Char) :
    value? (p ++ fence ++ tag ++ '\n' :: a ++ '\n' :: (fence ++ q)) = value? a := by
  rw [value?_eq (body_closed hp htag ha q), value?_eq (body_of_free ha)]

theorem value?_open (ha : Free a) (hb : Bracketed a) (hp : Free p) (htag : '\n' ∉ tag) :
    value? (p ++ fence ++ tag ++ '\n' :: a) = value? a := by
  obtain ⟨inner, hinner⟩ := hb
  rw [value?_eq (body_open hp htag ha (by simp [hinner])), value?_eq (body_of_free ha)]

theorem value?_between (ha : Free a) (hb : Bracketed a) (hp : Free p) (hq : Free q)
    (hopen : '[' ∉ p) (hclose : ']' ∉ q)
    (harray : ∀ v, Json.readChars? (Text.trim (p ++ a ++ q)) = some v → ∃ items, v = .array items) :
    value? (p ++ a ++ q) = value? a := by
  have hbody := body_of_free (free_between ha hb hp hq)
  obtain ⟨x, inner, y, rfl, hx, hy, htrim⟩ := exists_of_bracketed hb
  have hbetween : Text.trim (p ++ (x ++ '[' :: inner ++ ']' :: y) ++ q) =
      Text.trimStart (p ++ x) ++ '[' :: inner ++ ']' :: Text.trimEnd (y ++ q) := by
    have h := Text.trim_between (c := '[') (d := ']') (m := inner) rfl rfl (p ++ x) (y ++ q)
    simpa using h
  have hopen' : '[' ∉ Text.trimStart (p ++ x) := by
    intro hm
    rcases List.mem_append.mp ((Text.trimStart_suffix _).subset hm) with hm | hm
    · exact hopen hm
    · exact absurd (hx _ hm) (by decide)
  have hclose' : ']' ∉ Text.trimEnd (y ++ q) := by
    intro hm
    rcases List.mem_append.mp ((Text.trimEnd_prefix _).subset hm) with hm | hm
    · exact absurd (hy _ hm) (by decide)
    · exact hclose hm
  rw [value?_of_body_append (hbody.trans hbetween) hopen' hclose' (hbody ▸ harray),
    value?_of_body_eq ((body_of_free ha).trans htrim)]

theorem readChars_of_array {items : List Json} (ha : Free a)
    (h : Json.readChars? a = some (.array items)) : readChars a = items.filterMap ofJson? := by
  obtain ⟨-, hread⟩ := Json.bracketed_of_array h
  have hvalue := value?_eq (body_of_free ha)
  rw [hread, Option.some_or] at hvalue
  simp only [readChars, hvalue]

/-- **Wrapping does not change the suggestions.** In front of a bracketed text without a fence, a
fence with a tag may stand after any text that has no fence; behind it, a fence and any text. So may
other texts without a fence and a bracket towards it, unless the whole is a value of another kind.
Every text that reads as an array is bracketed, and its suggestions are those of its items that
decode. -/
theorem read_wrapped (a : String) (ha : Free a.toList) :
    (Bracketed a.toList →
      (∀ p tag q : String, Free p.toList → '\n' ∉ tag.toList →
        read (p ++ "```" ++ tag ++ "\n" ++ a ++ "\n```" ++ q) = read a ∧
          read (p ++ "```" ++ tag ++ "\n" ++ a) = read a) ∧
      ∀ p q : String, Free p.toList → Free q.toList → '[' ∉ p.toList → ']' ∉ q.toList →
        (∀ v, Json.readChars? (Text.trim (p ++ a ++ q).toList) = some v → ∃ items, v = .array items) →
          read (p ++ a ++ q) = read a) ∧
    ∀ items, Json.read? a = some (.array items) →
      Bracketed a.toList ∧ read a = items.filterMap ofJson? := by
  have hmarks : "```".toList = fence := by decide
  have hline : "\n```".toList = '\n' :: fence := by decide
  refine ⟨fun hb => ⟨fun p tag q hp htag => ⟨?_, ?_⟩, fun p q hp hq hopen hclose harray => ?_⟩,
    fun items hitems => ⟨(Json.bracketed_of_array hitems).1, readChars_of_array ha hitems⟩⟩
  · have htext : (p ++ "```" ++ tag ++ "\n" ++ a ++ "\n```" ++ q).toList = p.toList ++ fence ++
        tag.toList ++ '\n' :: a.toList ++ '\n' :: (fence ++ q.toList) := by
      simp [String.toList_append, hmarks, hline]
    simp only [read, readChars, htext, value?_closed ha hp htag]
  · have htext : (p ++ "```" ++ tag ++ "\n" ++ a).toList = p.toList ++ fence ++ tag.toList ++
        '\n' :: a.toList := by
      simp [String.toList_append, hmarks]
    simp only [read, readChars, htext, value?_open ha hb hp htag]
  · rw [String.toList_append, String.toList_append] at harray
    have hvalue := value?_between ha hb hp hq hopen hclose harray
    simp only [read, readChars, String.toList_append, hvalue]

theorem read_wrapped_one :
    let a := "[\x7b\"title\":\"Drop id\",\"operation\":\x7b\"op\":\"drop_column\",\"column\":\"id\"\x7d\x7d]"
    Free a.toList ∧ Bracketed a.toList ∧ (read a).map title = ["Drop id"] ∧
      read ("Drop `id`:`" ++ "```" ++ "json" ++ "\n" ++ a ++ "\n```" ++ "```[`") = read a ∧
      read ("So: " ++ a ++ " Done.") = read a := by
  intro a
  have ha : Free a.toList := by decide +kernel
  obtain ⟨hwrapped, hplain⟩ := read_wrapped a ha
  obtain ⟨hb, hread⟩ := hplain
    [.object [("operation", .object [("column", .text "id"), ("op", .text "drop_column")]),
      ("title", .text "Drop id")]] (by decide +kernel)
  obtain ⟨hfenced, hbetween⟩ := hwrapped hb
  refine ⟨ha, hb, ?_, ?_, ?_⟩
  · rw [hread]
    decide +kernel
  · exact (hfenced "Drop `id`:`" "json" "```[`" (by decide +kernel)
      (by decide +kernel)).1
  · have hnone : Json.readChars? (Text.trim ("So: " ++ a ++ " Done.").toList) = none := by
      decide +kernel
    exact hbetween "So: " " Done." (by decide +kernel) (by decide +kernel) (by decide +kernel)
      (by decide +kernel) (fun v hv => by simp only [hnone, reduceCtorEq] at hv)

end Suggestion

end TableCleaner
