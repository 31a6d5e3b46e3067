import TableCleaner.Proofs.Json.Record
import TableCleaner.Proofs.Suggestion.Reading

/-!
# Suggestions from records

A record of an array is a suggestion when it has one step, at `operation` or at `step`, and texts
where it has a title and a description. The items of an array are read one by one, so the
suggestions are those of the well-formed records. One more shape is read, which is no record: an
array of a title, a description and a step.
-/

namespace TableCleaner.Suggestion

/-! ## Well-formed items -/

/-- The text at a key, empty where the key is missing. -/
def IsTextAt (entries : List (String × Json)) (key text : String) : Prop :=
  Record.lastValue? entries key = some (.text text) ∨
    Record.lastValue? entries key = none ∧ text = ""

/-- The value at one of two keys, where the other one is missing. -/
def IsOnlyAt (entries : List (String × Json)) (key other : String) (v : Json) : Prop :=
  Record.lastValue? entries key = some v ∧ Record.lastValue? entries other = none ∨
    Record.lastValue? entries key = none ∧ Record.lastValue? entries other = some v

/-- The suggestion of a well-formed record. Its step may be any value. -/
inductive FromRecord : Json → Suggestion → Prop
  | intro {entries : List (String × Json)} {title description : String} {step : Json}
      (htitle : IsTextAt entries "title" title)
      (hdescription : IsTextAt entries "description" description)
      (hstep : IsOnlyAt entries "operation" "step" step) :
      FromRecord (.object entries) ⟨title, description, Step.ofJson step⟩

/-- The suggestion of an array of a title, a description and a step. -/
inductive FromTriple : Json → Suggestion → Prop
  | intro (title description : String) (step : Json) :
      FromTriple (.array [.text title, .text description, step])
        ⟨title, description, Step.ofJson step⟩

/-- The suggestions of the items that have one, in the order of the items. Each item is looked at
alone. -/
inductive Lists (P : Json → Suggestion → Prop) : List Json → List Suggestion → Prop
  | nil : Lists P [] []
  | keep {v : Json} {s : Suggestion} {items : List Json} {found : List Suggestion}
      (hv : P v s) (hrest : Lists P items found) : Lists P (v :: items) (s :: found)
  | skip {v : Json} {items : List Json} {found : List Suggestion}
      (hv : ∀ s, ¬ P v s) (hrest : Lists P items found) : Lists P (v :: items) found

variable {entries : List (String × Json)} {v : Json} {s : Suggestion} {items : List Json}
  {found more : List Suggestion} {P Q : Json → Suggestion → Prop}

/-! ## One item -/

theorem textAt?_eq_some_iff {key text : String} :
    textAt? (Record.ofEntries entries) key = some text ↔ IsTextAt entries key text := by
  unfold textAt? IsTextAt
  rw [Record.get?_ofEntries]
  cases Record.lastValue? entries key with
  | none => simp [eq_comm]
  | some v => cases v <;> simp [Json.text?]

theorem oneOf?_eq_some_iff {key other : String} :
    oneOf? (Record.ofEntries entries) key other = some v ↔ IsOnlyAt entries key other v := by
  unfold oneOf? IsOnlyAt
  rw [Record.get?_ofEntries, Record.get?_ofEntries]
  cases Record.lastValue? entries key <;> cases Record.lastValue? entries other <;> simp

theorem ofJson?_object_eq_some_iff :
    ofJson? (.object entries) = some s ↔ FromRecord (.object entries) s := by
  simp only [ofJson?, Option.bind_eq_bind, Option.bind_eq_some_iff, textAt?_eq_some_iff,
    oneOf?_eq_some_iff, Option.pure_def, Option.some.injEq]
  constructor
  · rintro ⟨title, htitle, description, hdescription, step, hstep, rfl⟩
    exact .intro htitle hdescription hstep
  · rintro ⟨htitle, hdescription, hstep⟩
    exact ⟨_, htitle, _, hdescription, _, hstep, rfl⟩

theorem ofJson?_eq_some_iff : ofJson? v = some s ↔ FromRecord v s ∨ FromTriple v s := by
  constructor
  · intro h
    unfold ofJson? at h
    split at h
    · exact .inl (ofJson?_object_eq_some_iff.mp h)
    · obtain rfl := Option.some.inj h
      exact .inr (.intro ..)
    · cases h
  · rintro (h | h)
    · cases h with
      | intro htitle hdescription hstep =>
        exact ofJson?_object_eq_some_iff.mpr (.intro htitle hdescription hstep)
    · cases h
      rfl

theorem FromRecord.unique {s' : Suggestion} (h : FromRecord v s) (h' : FromRecord v s') :
    s = s' := by
  have hs := ofJson?_eq_some_iff.mpr (.inl h)
  rw [ofJson?_eq_some_iff.mpr (.inl h')] at hs
  exact (Option.some.inj hs).symm

theorem FromTriple.not_fromRecord {s' : Suggestion} (h : FromTriple v s) : ¬ FromRecord v s' := by
  cases h
  exact nofun

/-! ## All items -/

theorem lists_filterMap {f : Json → Option Suggestion} (hf : ∀ v s, f v = some s ↔ P v s)
    (items : List Json) : Lists P items (items.filterMap f) := by
  induction items with
  | nil => exact .nil
  | cons v items ih =>
    cases hv : f v with
    | none =>
      rw [List.filterMap_cons_none hv]
      exact .skip (fun s hs => by simp [(hf v s).mpr hs] at hv) ih
    | some s =>
      rw [List.filterMap_cons_some hv]
      exact .keep ((hf v s).mp hv) ih

theorem exists_lists (P : Json → Suggestion → Prop) (items : List Json) :
    ∃ found, Lists P items found := by
  induction items with
  | nil => exact ⟨[], .nil⟩
  | cons v items ih =>
    obtain ⟨found, hfound⟩ := ih
    by_cases hv : ∃ s, P v s
    · obtain ⟨s, hs⟩ := hv
      exact ⟨s :: found, .keep hs hfound⟩
    · exact ⟨found, .skip (fun s hs => hv ⟨s, hs⟩) hfound⟩

theorem Lists.unique (hP : ∀ v s s', P v s → P v s' → s = s') (h : Lists P items found)
    (h' : Lists P items more) : found = more := by
  induction h generalizing more with
  | nil => cases h'; rfl
  | keep hv _ ih =>
    cases h' with
    | keep hv' hrest' => rw [hP _ _ _ hv hv', ih hrest']
    | skip hv' _ => exact absurd hv (hv' _)
  | skip hv _ ih =>
    cases h' with
    | keep hv' _ => exact absurd hv' (hv _)
    | skip _ hrest' => exact ih hrest'

section

variable (hPQ : ∀ v s, P v s → Q v s)

include hPQ

theorem Lists.length_le (h : Lists P items found) (hQ : Lists Q items more) :
    found.length ≤ more.length := by
  induction h generalizing more with
  | nil => exact Nat.zero_le _
  | keep hv _ ih =>
    cases hQ with
    | keep _ hrest => exact Nat.succ_le_succ (ih hrest)
    | skip hnone _ => exact absurd (hPQ _ _ hv) (hnone _)
  | skip _ _ ih =>
    cases hQ with
    | keep _ hrest => exact Nat.le_succ_of_le (ih hrest)
    | skip _ hrest => exact ih hrest

theorem Lists.exists_of_same (h : Lists P items found) (hQ : Lists Q items found) :
    ∀ v ∈ items, ∀ s, Q v s → ∃ s', P v s' := by
  induction h with
  | nil => simp
  | keep hv _ ih =>
    rw [List.forall_mem_cons]
    cases hQ with
    | keep _ hrest => exact ⟨fun _ _ => ⟨_, hv⟩, ih hrest⟩
    | skip hnone _ => exact absurd (hPQ _ _ hv) (hnone _)
  | skip _ hlists ih =>
    rw [List.forall_mem_cons]
    cases hQ with
    | keep _ hrest => exact absurd (hlists.length_le hPQ hrest) (Nat.not_succ_le_self _)
    | skip hnone hrest => exact ⟨fun s hs => absurd hs (hnone s), ih hrest⟩

end

theorem Lists.congr (hPQ : ∀ v ∈ items, ∀ s, P v s ↔ Q v s) (h : Lists P items found) :
    Lists Q items found := by
  induction h with
  | nil => exact .nil
  | keep hv _ ih =>
    rw [List.forall_mem_cons] at hPQ
    exact .keep ((hPQ.1 _).mp hv) (ih hPQ.2)
  | skip hv _ ih =>
    rw [List.forall_mem_cons] at hPQ
    exact .skip (fun s hs => hv s ((hPQ.1 s).mpr hs)) (ih hPQ.2)

/-- **Suggestions of records.** From the text of an array without a fence, each item is read alone:
a well-formed record, or an array of a title, a description and a step, gives one suggestion, and
any other item gives none. Hence the suggestions are those of the well-formed records, which are
determined, exactly when no item is such an array. -/
theorem read_records {text : String} (hread : Json.read? text = some (.array items))
    (hfree : Fence.Free text.toList) :
    Lists (fun v s => FromRecord v s ∨ FromTriple v s) items (read text) ∧
    (∃ found, Lists FromRecord items found ∧
      ∀ more, Lists FromRecord items more → more = found) ∧
    (Lists FromRecord items (read text) ↔ ∀ v ∈ items, ∀ s, ¬ FromTriple v s) := by
  have hall : Lists (fun v s => FromRecord v s ∨ FromTriple v s) items (read text) := by
    rw [read, readChars_of_array hfree hread]
    exact lists_filterMap (fun _ _ => ofJson?_eq_some_iff) items
  obtain ⟨found, hfound⟩ := exists_lists FromRecord items
  have hunique : ∀ more, Lists FromRecord items more → more = found :=
    fun more hmore => hmore.unique (fun v s s' hs hs' => hs.unique hs') hfound
  refine ⟨hall, ⟨found, hfound, hunique⟩, fun h v hv s hs => ?_, fun h => ?_⟩
  · obtain ⟨s', hs'⟩ := h.exists_of_same (fun _ _ => .inl) hall v hv s (.inr hs)
    exact hs.not_fromRecord hs'
  · exact hall.congr fun v hv s => or_iff_left (h v hv s)

theorem read_records_mixed : ∃ (text : String) (items : List Json),
    text = "[\x7b\"step\":null\x7d,7,\x7b\"operation\":1,\"step\":2\x7d,\x7b\"step\":0,\"title\":1\x7d," ++
      "\x7b\"title\":\"t\",\"operation\":\x7b\"op\":\"drop_column\"\x7d,\"note\":[]\x7d]" ∧
    Json.read? text = some (.array items) ∧ Fence.Free text.toList ∧
    (∀ v ∈ items, ∀ s, ¬ FromTriple v s) ∧ Lists FromRecord items (read text) ∧
    (read text).map (fun s => (s.title, s.description)) = [("", ""), ("t", "")] := by
  let items : List Json := [.object [("step", .null)], .int 7,
    .object [("operation", .int 1), ("step", .int 2)], .object [("step", .int 0), ("title", .int 1)],
    .object [("note", .array []), ("operation", .object [("op", .text "drop_column")]),
      ("title", .text "t")]]
  have hno : ∀ v ∈ items, ∀ s, ¬ FromTriple v s := by
    rintro v hv s ⟨⟩
    simp [items] at hv
  refine ⟨_, items, rfl, by decide +kernel, by decide +kernel, hno, ?_, by decide +kernel⟩
  exact (read_records (by decide +kernel) (by decide +kernel)).2.2.mpr hno

/-- An array of three is no record, and yet it is read. -/
theorem read_triple :
    let text := "[[\"t\",\"d\",\x7b\"op\":\"drop_column\"\x7d]]"
    let items := [Json.array [.text "t", .text "d", .object [("op", .text "drop_column")]]]
    Json.read? text = some (.array items) ∧ Fence.Free text.toList ∧
      Lists FromRecord items [] ∧ (read text).map title = ["t"] :=
  ⟨by decide +kernel, by decide +kernel, .skip nofun .nil, by decide +kernel⟩

end TableCleaner.Suggestion
