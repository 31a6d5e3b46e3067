import TableCleaner.Json.Printer
import TableCleaner.Proofs.Suggestion.Reading

/-!
# Suggestions in plain arrays

The fence is looked for before the text is read as an array, in its strings too. Printing writes
a mark as itself and puts none anywhere else, so the printed array has a fence exactly when one of
its strings has one.
-/

namespace TableCleaner

open Fence

/-! ## Numbers and words -/

namespace Fence

variable {s t : List Char} {c : Char}

theorem Unmarked.append (hs : Unmarked s) (ht : Unmarked t) : Unmarked (s ++ t) := by
  intro c hc
  rcases List.mem_append.mp hc with hc | hc
  · exact hs c hc
  · exact ht c hc

theorem Unmarked.cons (hc : c ≠ mark) (hs : Unmarked s) : Unmarked (c :: s) :=
  List.forall_mem_cons.mpr ⟨hc, hs⟩

theorem Unmarked.of_subset (hs : Unmarked s) (h : t ⊆ s) : Unmarked t :=
  fun c hc => hs c (h hc)

theorem unmarked_replicate (n : Nat) (hc : c ≠ mark) : Unmarked (List.replicate n c) := by
  intro d hd
  rw [List.eq_of_mem_replicate hd]
  exact hc

theorem unmarked_toDigits (n : Nat) : Unmarked (Nat.toDigits 10 n) := by
  rintro c hc rfl
  exact absurd (Nat.isDigit_of_mem_toDigits (by decide) (by decide) hc) (by decide)

end Fence

namespace Decimal

theorem unmarked_positional (wholePoint : Bool) {ds : List Char} (hds : Unmarked ds) (e : Int) :
    Unmarked (positional wholePoint ds e) := by
  have hzeros (n : Nat) : Unmarked (List.replicate n '0') := unmarked_replicate n (by decide)
  unfold positional
  simp only
  split
  · refine (hds.append (hzeros _)).append ?_
    split <;> decide
  split
  · exact (hds.of_subset (List.take_subset _ _)).append
      (.cons (by decide) (hds.of_subset (List.drop_subset _ _)))
  · exact .cons (by decide) (.cons (by decide) ((hzeros _).append hds))

theorem unmarked_scientific (plusSign : Bool) {ds : List Char} (hds : Unmarked ds) (lead : Int) :
    Unmarked (scientific plusSign ds lead) := by
  have hsign : Unmarked (if lead < 0 then ['-'] else if plusSign then ['+'] else []) := by
    split
    · decide
    · split <;> decide
  have hexponent : Unmarked ('e' :: if lead < 0 then ['-'] else if plusSign then ['+'] else []) :=
    .cons (by decide) hsign
  match ds with
  | [] | [_] => exact (hds.append hexponent).append (unmarked_toDigits _)
  | d :: e :: rest =>
    obtain ⟨hd, hrest⟩ := List.forall_mem_cons.mp hds
    have hmantissa : Unmarked (d :: '.' :: e :: rest) := .cons hd (.cons (by decide) hrest)
    exact (hmantissa.append hexponent).append (unmarked_toDigits _)

theorem unmarked_layout (style : Style) (d : Decimal) : Unmarked (style.layout d) := by
  have hds := unmarked_toDigits d.digits
  unfold Style.layout
  simp only
  split <;> split
  · exact unmarked_positional _ hds _
  · exact unmarked_scientific _ hds _
  · exact unmarked_positional _ hds _
  · exact unmarked_scientific _ hds _

theorem unmarked_chars (style : Style) (x : Float) : Unmarked (style.chars x) := by
  unfold Style.chars
  split
  · decide
  have htext : Unmarked (if Binary.magnitudeBits x = Binary.infinityBits then ['i', 'n', 'f']
      else if Binary.magnitudeBits x = 0 then style.layout ⟨0, 0⟩
      else style.layout (shortest style.tie (Binary.ofBits (Binary.magnitudeBits x)))) := by
    split
    · decide
    · split <;> exact unmarked_layout style _
  simp only
  split
  · exact .cons (by decide) htext
  · exact htext

end Decimal

namespace Json

theorem unmarked_floatChars (x : Float) : Unmarked (floatChars x) := by
  unfold floatChars
  split
  · exact Decimal.unmarked_chars _ x
  · decide

theorem unmarked_intChars (i : Int) : Unmarked (intChars i) := by
  unfold intChars
  split
  · exact .cons (by decide) (unmarked_toDigits _)
  · exact unmarked_toDigits _

theorem unmarked_boolChars (b : Bool) : Unmarked (boolChars b) := by
  cases b <;> decide

/-! ## Strings -/

theorem hexDigit_ne_mark : ∀ n < 16, hexDigit n ≠ mark := by decide

theorem escape_mark : escape mark = [mark] := by decide

theorem unmarked_escape {c : Char} (h : c ≠ mark) : Unmarked (escape c) := by
  unfold escape
  repeat' split
  all_goals try decide
  · rename_i hcontrol
    have hhigh := hexDigit_ne_mark (c.toNat / 16) (by omega)
    have hlow := hexDigit_ne_mark (c.toNat % 16) (by omega)
    have hfront : Unmarked ['\\', 'u', '0', '0'] := by decide
    exact hfront.append (.cons hhigh (.cons hlow (by decide)))
  · exact .cons h (by decide)

theorem escape_ne_nil (c : Char) : escape c ≠ [] := by
  unfold escape
  repeat' split
  all_goals simp

theorem free_flatMap_escape (p s : List Char) : Free (p ++ s.flatMap escape) ↔ Free (p ++ s) := by
  induction s generalizing p with
  | nil => rfl
  | cons c s ih =>
    rw [List.flatMap_cons]
    by_cases hc : c = mark
    · subst hc
      have h := ih (p ++ [mark])
      rw [escape_mark]
      simpa using h
    · obtain ⟨d, ds, he⟩ := List.exists_cons_of_ne_nil (escape_ne_nil c)
      obtain ⟨hd, hds⟩ := List.forall_mem_cons.mp (he ▸ unmarked_escape hc)
      have hs := ih []
      rw [List.nil_append, List.nil_append] at hs
      rw [he, List.cons_append, free_append_cons hd, free_append_cons hc,
        Unmarked.append_free_iff hds, hs]

theorem free_quoted (s : String) : Free (quoted s) ↔ Free s.toList := by
  have h := free_flatMap_escape [] s.toList
  unfold quoted
  rw [List.cons_append, free_cons (by decide), free_append_cons (by decide)]
  simpa [Free, fence] using h

/-! ## Values -/

mutual

/-- The strings in a value, the keys of its objects among them. -/
def texts : Json → List String
  | null | bool _ | int _ | float _ => []
  | text s => [s]
  | array items => textsOfItems items
  | object entries => textsOfEntries entries

def textsOfItems : List Json → List String
  | [] => []
  | v :: rest => texts v ++ textsOfItems rest

def textsOfEntries : List (String × Json) → List String
  | [] => []
  | (k, v) :: rest => k :: texts v ++ textsOfEntries rest

end

mutual

theorem free_compactChars : ∀ v : Json, Free v.compactChars ↔ ∀ t ∈ v.texts, Free t.toList
  | null => by simp [compactChars, texts, show Free ['n', 'u', 'l', 'l'] by decide]
  | bool b => by simp [compactChars, texts, (unmarked_boolChars b).free]
  | int i => by simp [compactChars, texts, (unmarked_intChars i).free]
  | float x => by simp [compactChars, texts, (unmarked_floatChars x).free]
  | text s => by simp [compactChars, texts, free_quoted s]
  | array items => by
    have h := free_compactItems items
    rw [compactChars, List.cons_append, free_cons (by decide), free_append_cons (by decide), h]
    simp [texts, show Free [] by decide]
  | object entries => by
    have h := free_compactEntries entries
    rw [compactChars, List.cons_append, free_cons (by decide), free_append_cons (by decide), h]
    simp [texts, show Free [] by decide]

theorem free_compactItems : ∀ items : List Json,
    Free (compactItems items) ↔ ∀ t ∈ textsOfItems items, Free t.toList
  | [] => by simp [compactItems, textsOfItems, show Free [] by decide]
  | [v] => by
    have h := free_compactChars v
    simp [compactItems, textsOfItems, h]
  | v :: w :: rest => by
    have hv := free_compactChars v
    have hrest := free_compactItems (w :: rest)
    rw [compactItems, free_append_cons (by decide), hv, textsOfItems, hrest]
    simp only [List.mem_append, or_imp, forall_and]

theorem free_compactEntries : ∀ entries : List (String × Json),
    Free (compactEntries entries) ↔ ∀ t ∈ textsOfEntries entries, Free t.toList
  | [] => by simp [compactEntries, textsOfEntries, show Free [] by decide]
  | [(k, v)] => by
    have h := free_compactChars v
    rw [compactEntries, free_append_cons (by decide), free_quoted, h]
    simp [textsOfEntries]
  | (k, v) :: e :: rest => by
    have hv := free_compactChars v
    have hrest := free_compactEntries (e :: rest)
    rw [compactEntries, free_append_cons (by decide), free_append_cons (by decide), free_quoted, hv,
      textsOfEntries, hrest]
    simp only [List.cons_append, List.forall_mem_cons, List.mem_append, or_imp, forall_and, and_assoc]

end

end Json

namespace Suggestion

/-- **Suggestions in a plain array.** From every text of an array in which no fence stands, the
suggestions are those of the items that decode, in their order. The printed array is such a text
exactly when no string and no key in it holds a fence. -/
theorem read_array (items : List Json) :
    (∀ s : String, Json.read? s = some (.array items) → Free s.toList →
      read s = items.filterMap ofJson?) ∧
    (Free (Json.array items).compact.toList ↔
      ∀ t ∈ (Json.array items).texts, Free t.toList) := by
  refine ⟨fun s hs hfree => readChars_of_array hfree hs, ?_⟩
  unfold Json.compact
  rw [String.toList_ofList]
  exact Json.free_compactChars _

/-- An array of one record and of a number, which is no suggestion. -/
def sampleItems (title : String) : List Json :=
  [.object [("operation", .object [("column", .text "id"), ("op", .text "drop_column")]),
    ("title", .text title)], .int 1]

theorem read_array_two_marks :
    Json.read? (Json.array (sampleItems "``")).compact = some (.array (sampleItems "``")) ∧
      Free (Json.array (sampleItems "``")).compact.toList ∧
      (read (Json.array (sampleItems "``")).compact).map title = ["``"] := by
  obtain ⟨hread, hfree⟩ := read_array (sampleItems "``")
  have harray : Json.read? (Json.array (sampleItems "``")).compact =
      some (.array (sampleItems "``")) := by decide +kernel
  have hmarks := hfree.mpr (by decide +kernel)
  refine ⟨harray, hmarks, ?_⟩
  rw [hread _ harray hmarks]
  decide +kernel

/-- Three marks in a title are taken for a fence, and the suggestion is lost. -/
theorem read_array_three_marks :
    Json.read? (Json.array (sampleItems "```")).compact = some (.array (sampleItems "```")) ∧
      ((sampleItems "```").filterMap ofJson?).map title = ["```"] ∧
      read (Json.array (sampleItems "```")).compact = [] := by
  decide +kernel

end Suggestion

end TableCleaner
