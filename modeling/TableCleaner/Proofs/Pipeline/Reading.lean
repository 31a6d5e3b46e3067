import TableCleaner.Pipeline.Basic
import TableCleaner.Proofs.Json.Record

/-!
# The format of a pipeline

A pipeline is an array of steps, or an object with such an array at `steps` or at `pipeline`. The
format prefers an array at `steps`; the reader prefers any value there. So a key `steps` without an
array hides the array at `pipeline`, and every other text is read as the format says.
-/

namespace TableCleaner.Pipeline

/-! ## The format -/

/-- The step records that a value holds. -/
inductive Holds : Json → List Json → Prop
  | array (items : List Json) : Holds (.array items) items
  | steps {entries : List (String × Json)} {items : List Json}
      (hsteps : Record.lastValue? entries "steps" = some (.array items)) :
      Holds (.object entries) items
  | pipeline {entries : List (String × Json)} {items : List Json}
      (hsteps : ∀ others, Record.lastValue? entries "steps" ≠ some (.array others))
      (hpipeline : Record.lastValue? entries "pipeline" = some (.array items)) :
      Holds (.object entries) items

/-- What a text is read as: one step for each record, in their order, or an error. -/
inductive Answers (text : String) : Except PipelineError Pipeline → Prop
  | steps {v : Json} {items : List Json} (hread : Json.read? text = some v) (hv : Holds v items) :
      Answers text (.ok (items.map Step.ofJson))
  | notASequence {v : Json} (hread : Json.read? text = some v) (hv : ∀ items, ¬ Holds v items) :
      Answers text (.error .notASequence)
  | notJson (hread : Json.read? text = none) : Answers text (.error .notJson)

/-- The key `steps` is there without an array, and an array is at `pipeline`. -/
inductive Hidden : Json → Prop
  | intro {entries : List (String × Json)} {other : Json} {items : List Json}
      (hsteps : Record.lastValue? entries "steps" = some other)
      (hother : ∀ others, other ≠ .array others)
      (hpipeline : Record.lastValue? entries "pipeline" = some (.array items)) :
      Hidden (.object entries)

variable {v : Json} {items others : List Json} {text : String}

theorem Holds.unique (h : Holds v items) (h' : Holds v others) : items = others := by
  cases h with
  | array => cases h'; rfl
  | steps hsteps =>
    cases h' with
    | steps hsteps' =>
      rw [hsteps] at hsteps'
      simpa using hsteps'
    | pipeline hsteps' => exact absurd hsteps (hsteps' _)
  | pipeline hsteps hpipeline =>
    cases h' with
    | steps hsteps' => exact absurd hsteps' (hsteps _)
    | pipeline _ hpipeline' =>
      rw [hpipeline] at hpipeline'
      simpa using hpipeline'

theorem Answers.unique {a b : Except PipelineError Pipeline} (ha : Answers text a)
    (hb : Answers text b) : a = b := by
  cases ha with
  | steps hread hv =>
    cases hb with
    | steps hread' hv' =>
      obtain rfl := Option.some.inj (hread.symm.trans hread')
      rw [hv.unique hv']
    | notASequence hread' hv' =>
      obtain rfl := Option.some.inj (hread.symm.trans hread')
      exact absurd hv (hv' _)
    | notJson hread' => simp [hread] at hread'
  | notASequence hread hv =>
    cases hb with
    | steps hread' hv' =>
      obtain rfl := Option.some.inj (hread.symm.trans hread')
      exact absurd hv' (hv _)
    | notASequence => rfl
    | notJson hread' => simp [hread] at hread'
  | notJson hread =>
    cases hb with
    | steps hread' _ | notASequence hread' _ => simp [hread] at hread'
    | notJson => rfl

/-! ## The reader -/

theorem records?_object (entries : List (String × Json)) :
    records? (.object entries) =
      match (Record.lastValue? entries "steps").or (Record.lastValue? entries "pipeline") with
      | some (.array items) => some items
      | _ => none := by
  rw [← Record.get?_ofEntries, ← Record.get?_ofEntries]
  rfl

theorem holds_of_records? (h : records? v = some items) : Holds v items := by
  cases v with
  | array =>
    obtain rfl := Option.some.inj h
    exact .array _
  | object entries =>
    rw [records?_object] at h
    split at h
    · rename_i found hfound
      obtain rfl := Option.some.inj h
      rcases Option.or_eq_some_iff.mp hfound with hsteps | ⟨hsteps, hpipeline⟩
      · exact .steps hsteps
      · exact .pipeline (by simp [hsteps]) hpipeline
    · cases h
  | null | bool | int | float | text => cases h

theorem records?_of_holds (hv : ¬ Hidden v) (h : Holds v items) : records? v = some items := by
  cases h with
  | array => rfl
  | steps hsteps => rw [records?_object, hsteps, Option.some_or]
  | pipeline hsteps hpipeline =>
    rename_i entries
    cases hother : Record.lastValue? entries "steps" with
    | none => rw [records?_object, hother, Option.none_or, hpipeline]
    | some other =>
      refine absurd (.intro hother (fun others hothers => ?_) hpipeline) hv
      exact hsteps others (hothers ▸ hother)

theorem records?_of_hidden (h : Hidden v) : records? v = none := by
  obtain ⟨hsteps, hother, -⟩ := h
  rw [records?_object, hsteps, Option.some_or]
  split
  · rename_i others hothers
    exact absurd (Option.some.inj hothers) (hother others)
  · rfl

theorem exists_holds_of_hidden (h : Hidden v) : ∃ items, Holds v items := by
  obtain ⟨hsteps, hother, hpipeline⟩ := h
  refine ⟨_, .pipeline (fun others hothers => ?_) hpipeline⟩
  rw [hsteps] at hothers
  exact hother others (Option.some.inj hothers)

theorem read_of_read? (h : Json.read? text = some v) :
    read text =
      match records? v with
      | some items => .ok (items.map Step.ofJson)
      | none => .error .notASequence := by
  simp only [read, h, ofJson?]
  cases records? v <;> rfl

theorem answers_read (h : ∀ v, Json.read? text = some v → ¬ Hidden v) :
    Answers text (read text) := by
  cases hread : Json.read? text with
  | none =>
    simp only [read, hread]
    exact .notJson hread
  | some v =>
    rw [read_of_read? hread]
    cases hrecords : records? v with
    | some items => exact .steps hread (holds_of_records? hrecords)
    | none =>
      refine .notASequence hread fun items hitems => ?_
      rw [records?_of_holds (h v hread) hitems] at hrecords
      cases hrecords

theorem exists_answers (text : String) : ∃ a, Answers text a := by
  cases hread : Json.read? text with
  | none => exact ⟨_, .notJson hread⟩
  | some v =>
    by_cases hv : ∃ items, Holds v items
    · obtain ⟨items, hitems⟩ := hv
      exact ⟨_, .steps hread hitems⟩
    · exact ⟨_, .notASequence hread fun items hitems => hv ⟨items, hitems⟩⟩

/-- **What is read as a pipeline.** The format has one answer for every text, and the reader gives
it exactly when no key `steps` hides an array at `pipeline`. A text with such a key is refused,
though the format gives its steps. -/
theorem read_answers_iff (text : String) :
    (∃ a, Answers text a ∧ ∀ b, Answers text b → b = a) ∧
    (Answers text (read text) ↔ ∀ v, Json.read? text = some v → ¬ Hidden v) ∧
    ∀ v, Json.read? text = some v → Hidden v →
      read text = .error .notASequence ∧
        ∃ items, Holds v items ∧ Answers text (.ok (items.map Step.ofJson)) := by
  have hrefused : ∀ v, Json.read? text = some v → Hidden v →
      read text = .error .notASequence ∧
        ∃ items, Holds v items ∧ Answers text (.ok (items.map Step.ofJson)) := by
    intro v hread hv
    obtain ⟨items, hitems⟩ := exists_holds_of_hidden hv
    rw [read_of_read? hread, records?_of_hidden hv]
    exact ⟨rfl, items, hitems, .steps hread hitems⟩
  obtain ⟨a, ha⟩ := exists_answers text
  refine ⟨⟨a, ha, fun b hb => hb.unique ha⟩, ⟨fun h v hread hv => ?_, answers_read⟩, hrefused⟩
  obtain ⟨herror, items, -, hitems⟩ := hrefused v hread hv
  rw [herror] at h
  cases h.unique hitems

/-- A `null` at `steps` hides the array at `pipeline`. -/
theorem read_null_steps :
    let text := "\x7b\"steps\":null,\"pipeline\":[]\x7d"
    Answers text (.ok []) ∧ read text = .error .notASequence := by
  intro text
  have hread : Json.read? text =
      some (.object [("pipeline", .array []), ("steps", .null)]) := by decide +kernel
  refine ⟨.steps hread (.pipeline (fun others => by simp [Record.lastValue?_cons]) rfl), ?_⟩
  rw [read_of_read? hread]
  rfl

end TableCleaner.Pipeline
