import TableCleaner.Pipeline.Basic
import TableCleaner.Proofs.Json.Printed
import TableCleaner.Proofs.Step.RoundTrip
import TableCleaner.Suggestion.Basic

/-!
# Canonical records of steps

The canonical record of a step holds the values of the record it was read from, and beside them
texts, truth values and an array of names. So a record that could be read is not nested too deeply
once it is canonical, and the canonical text of a pipeline is read as the pipeline.
-/

namespace TableCleaner

open Json (Canonical)

variable {d : Nat}

/-! ## Values that a step keeps -/

/-- The values that are kept as they were read. -/
def Operation.values : Operation → List Json
  | impute _ _ value => value.toList
  | replaceValues _ matching replacement => matching.toList ++ replacement.toList
  | _ => []

namespace Record

variable {r : Record} (h : ∀ e ∈ r.entries, Canonical d e.2)
include h

theorem canonical_of_get? {key : String} {v : Json} (hv : r.get? key = some v) : Canonical d v :=
  h (key, v) (get?_eq_some_iff.mp hv)

theorem canonical_of_first? {group : List String} {v : Json} (hv : r.first? group = some v) :
    Canonical d v := by
  obtain ⟨key, -, hkey⟩ := List.mem_filterMap.mp (List.mem_of_find?_eq_some hv)
  exact canonical_of_get? h hkey

theorem canonical_of_literal? {group : List String} {v : Json} (hv : r.literal? group = some v) :
    Canonical d v := by
  unfold literal? at hv
  rcases Option.or_eq_some_iff.mp hv with hv | ⟨-, hv⟩
  · exact canonical_of_first? h hv
  · split at hv
    · cases hv
      exact .null
    · cases hv

theorem canonical_values_read (kind : Kind) : ∀ v ∈ (kind.read r).values, Canonical d v := by
  intro v hv
  cases kind with
  | impute => exact canonical_of_first? h (Option.mem_toList.mp hv)
  | replaceValues =>
    rcases List.mem_append.mp hv with hv | hv
    · exact canonical_of_literal? h (Option.mem_toList.mp hv)
    · exact canonical_of_literal? h (Option.mem_toList.mp hv)
  | _ => cases hv

theorem canonical_extra : ∀ e ∈ (Step.ofRecord r).extra.entries, Canonical d e.2 := by
  have hwithout : ∀ keys, ∀ e ∈ (r.without keys).entries, Canonical d e.2 :=
    fun keys e he => h e (List.mem_filter.mp he).1
  unfold Step.ofRecord
  extract_lets op
  split
  · exact hwithout _
  · exact hwithout _

theorem canonical_values : ∀ v ∈ (Step.ofRecord r).operation.values, Canonical d v := by
  unfold Step.ofRecord
  extract_lets op
  split
  · exact canonical_values_read h _
  · exact nofun

end Record

/-! ## Canonical records -/

namespace Step

theorem canonical_textEntry (key value : String) : ∀ e ∈ textEntry key value, Canonical d e.2 := by
  intro e he
  unfold textEntry at he
  split at he
  · cases he
  · rw [List.mem_singleton.mp he]
    exact .text value

theorem canonical_valueEntry {key : String} {value : Option Json}
    (h : ∀ v ∈ value.toList, Canonical d v) : ∀ e ∈ valueEntry key value, Canonical d e.2 := by
  intro e he
  obtain ⟨v, hv, rfl⟩ := Option.map_eq_some_iff.mp (Option.mem_toList.mp he)
  exact h v (Option.mem_toList.mpr hv)

theorem canonical_parameterEntries (hd : 0 < d) {op : Operation}
    (h : ∀ v ∈ op.values, Canonical d v) : ∀ e ∈ parameterEntries op, Canonical d e.2 := by
  cases op with
  | dropColumn column | oneHotEncode column | labelEncode column | scale _ column =>
    exact canonical_textEntry _ _
  | renameColumn source target =>
    exact List.forall_mem_append.mpr ⟨canonical_textEntry _ _, canonical_textEntry _ _⟩
  | changeType column toType =>
    exact List.forall_mem_append.mpr ⟨canonical_textEntry _ _, canonical_textEntry _ _⟩
  | removeDuplicateRows subset =>
    intro e he
    replace he : e ∈ if subset.isEmpty then [] else [("columns", .array (subset.map .text))] := he
    split at he
    · cases he
    · -- The names stand in an array of their own.
      obtain ⟨d, rfl⟩ := Nat.exists_eq_add_of_le' hd
      rw [List.mem_singleton.mp he]
      refine .array fun v hv => ?_
      obtain ⟨name, -, rfl⟩ := List.mem_map.mp hv
      exact .text name
  | impute column strategy value =>
    exact List.forall_mem_append.mpr ⟨List.forall_mem_append.mpr
      ⟨canonical_textEntry _ _, canonical_textEntry _ _⟩, canonical_valueEntry h⟩
  | replaceValues column matching replacement =>
    obtain ⟨hmatching, hreplacement⟩ := List.forall_mem_append.mp h
    exact List.forall_mem_append.mpr ⟨List.forall_mem_append.mpr
      ⟨canonical_textEntry _ _, canonical_valueEntry hmatching⟩, canonical_valueEntry hreplacement⟩
  | textClean column flags =>
    refine List.forall_mem_append.mpr ⟨canonical_textEntry _ _, ?_⟩
    simp [Canonical.bool]
  | extractDatePart column part =>
    exact List.forall_mem_append.mpr ⟨canonical_textEntry _ _, canonical_textEntry _ _⟩
  | unsupported name => exact nofun

theorem canonical_toRecord (hd : 0 < d) {s : Step}
    (hvalues : ∀ v ∈ s.operation.values, Canonical d v)
    (hextra : ∀ e ∈ s.extra.entries, Canonical d e.2) :
    ∀ e ∈ s.toRecord.entries, Canonical d e.2 := by
  rintro ⟨key, v⟩ he
  have hget := Record.get?_eq_some_iff.mpr he
  rw [get?_toRecord] at hget
  rcases Option.or_eq_some_iff.mp hget with hget | ⟨-, hget⟩
  · rcases Option.or_eq_some_iff.mp hget with hget | ⟨-, hget⟩
    · exact canonical_parameterEntries hd hvalues _ (Record.mem_of_lastValue? hget)
    · split at hget
      · cases hget
        exact .text _
      · cases hget
  · exact Record.canonical_of_get? hextra hget

/-- The canonical record of a step is nested no deeper than what the step was read from, except that
it has two levels at least. -/
theorem canonical_toJson_ofJson {v : Json} (h : Canonical (d + 2) v) :
    Canonical (d + 2) (ofJson v).toJson := by
  have hrecord : ∀ e ∈ (v.record?.getD .empty).entries, Canonical (d + 1) e.2 := by
    intro e he
    cases h with
    | object _ h => exact h e (Record.mem_of_mem_ofEntries he)
    | _ => cases he
  unfold ofJson toJson
  exact Record.canonical_toJson (canonical_toRecord (Nat.succ_pos d)
    (Record.canonical_values hrecord) (Record.canonical_extra hrecord))

end Step

/-! ## Pipelines and suggestions -/

/-- Every step was read from a value that is nested at most so many deep. -/
def Pipeline.FromValues (d : Nat) (steps : Pipeline) : Prop :=
  ∀ step ∈ steps, ∃ v, Canonical d v ∧ Step.ofJson v = step

namespace Pipeline

theorem fromValues_map {items : List Json} (h : ∀ v ∈ items, Canonical d v) :
    FromValues d (items.map Step.ofJson) := by
  intro step hstep
  obtain ⟨v, hv, rfl⟩ := List.mem_map.mp hstep
  exact ⟨v, h v hv, rfl⟩

theorem canonical_of_records? {v : Json} {items : List Json} (h : Canonical (d + 1) v)
    (hitems : records? v = some items) : ∀ w ∈ items, Canonical d w := by
  cases h with
  | array h =>
    cases hitems
    exact h
  | @object _ entries _ h =>
    have hentries : ∀ e ∈ (Record.ofEntries entries).entries, Canonical d e.2 :=
      fun e he => h e (Record.mem_of_mem_ofEntries he)
    unfold records? at hitems
    simp only at hitems
    split at hitems
    · rename_i found hfound
      cases hitems
      have harray : Canonical d (.array items) := by
        rcases Option.or_eq_some_iff.mp hfound with hfound | ⟨-, hfound⟩
        · exact Record.canonical_of_get? hentries hfound
        · exact Record.canonical_of_get? hentries hfound
      cases harray with
      | array h => exact fun w hw => (h w hw).mono (Nat.le_succ _)
    · cases hitems
  | _ => cases hitems

theorem fromValues_of_ofJson? {v : Json} {steps : Pipeline} (h : Canonical (d + 1) v)
    (hsteps : ofJson? v = some steps) : FromValues d steps := by
  obtain ⟨items, hitems, rfl⟩ := Option.map_eq_some_iff.mp hsteps
  exact fromValues_map (canonical_of_records? h hitems)

/-- The depth that is left for the items of an array. -/
def itemDepth : Nat := 126

theorem maxDepth_eq : Json.maxDepth = itemDepth + 1 := rfl

theorem itemDepth_eq : itemDepth = 124 + 2 := rfl

theorem fromValues_of_read {text : String} {steps : Pipeline} (h : read text = .ok steps) :
    FromValues itemDepth steps := by
  unfold read at h
  split at h
  · cases h
  · rename_i v hv
    split at h
    · cases h
    · rename_i hsteps
      cases h
      have hcanonical := Json.canonical_of_readChars? hv
      rw [maxDepth_eq] at hcanonical
      exact fromValues_of_ofJson? hcanonical hsteps

theorem FromValues.canonical_toJson {steps : Pipeline} (h : FromValues (d + 2) steps) :
    Canonical (d + 3) steps.toJson := by
  refine .array fun w hw => ?_
  obtain ⟨step, hstep, rfl⟩ := List.mem_map.mp hw
  obtain ⟨v, hv, rfl⟩ := h step hstep
  exact Step.canonical_toJson_ofJson hv

theorem FromValues.ofJson?_toJson {steps : Pipeline} (h : FromValues d steps) :
    ofJson? steps.toJson = some steps := by
  have hsame : (steps.map Step.toJson).map Step.ofJson = steps := by
    rw [List.map_map]
    refine (List.map_congr_left fun step hstep => ?_).trans (List.map_id steps)
    have hnormal : step.Normal := (Step.normal_iff step).mpr ((h step hstep).imp fun _ hv => hv.2)
    rw [Function.comp_apply, Step.ofJson_toJson, hnormal.ofRecord_toRecord, id_eq]
  exact congrArg some hsame

theorem FromValues.read_pretty_append {steps : Pipeline} (h : FromValues itemDepth steps)
    {blank : String} (hblank : ∀ c ∈ blank.toList, Json.isSpace c = true) :
    read (steps.pretty ++ blank) = .ok steps := by
  have hcanonical : Canonical Json.maxDepth steps.toJson := by
    rw [itemDepth_eq] at h
    rw [maxDepth_eq, itemDepth_eq]
    exact h.canonical_toJson
  have hread : Json.read? (steps.pretty ++ blank) = some steps.toJson := by
    rw [Json.read?, String.toList_append, pretty, Json.pretty, String.toList_ofList]
    exact hcanonical.readChars?_prettyChars hblank
  unfold read
  simp only [hread, h.ofJson?_toJson]

theorem FromValues.read_pretty {steps : Pipeline} (h : FromValues itemDepth steps) :
    read steps.pretty = .ok steps := by
  have hread : read (steps.pretty ++ "") = .ok steps := h.read_pretty_append nofun
  rwa [String.append_empty] at hread

end Pipeline

namespace Suggestion

theorem canonical_of_value? {s : List Char} {v : Json} (h : value? s = some v) :
    Canonical Json.maxDepth v := by
  unfold value? at h
  rcases Option.or_eq_some_iff.mp h with h | ⟨-, h⟩
  · exact Json.canonical_of_readChars? h
  · obtain ⟨t, -, h⟩ := Option.bind_eq_some_iff.mp h
    exact Json.canonical_of_readChars? h

theorem canonical_of_oneOf? {r : Record} {key other : String} {v : Json}
    (h : ∀ e ∈ r.entries, Canonical d e.2) (hv : oneOf? r key other = some v) : Canonical d v := by
  unfold oneOf? at hv
  split at hv
  · cases hv
    exact Record.canonical_of_get? h ‹_›
  · cases hv
    exact Record.canonical_of_get? h ‹_›
  · cases hv

theorem exists_ofJson_step {w : Json} {x : Suggestion} (h : Canonical d w)
    (hx : ofJson? w = some x) : ∃ v, Canonical d v ∧ Step.ofJson v = x.step := by
  unfold ofJson? at hx
  split at hx
  · rename_i entries
    simp only [Option.bind_eq_bind, Option.pure_def, Option.bind_eq_some_iff] at hx
    obtain ⟨title, -, description, -, v, hv, he⟩ := hx
    cases he
    cases h with
    | @object d _ _ h =>
      have hpart : Canonical d v :=
        canonical_of_oneOf? (fun e he => h e (Record.mem_of_mem_ofEntries he)) hv
      exact ⟨v, hpart.mono (Nat.le_succ d), by dsimp only⟩
  · rename_i title description v
    cases hx
    cases h with
    | @array d _ h =>
      have hpart : Canonical d v := h v (by simp)
      exact ⟨v, hpart.mono (Nat.le_succ d), by dsimp only⟩
  · cases hx

theorem fromValues_filterMap {items : List Json} (h : Canonical (d + 1) (.array items)) :
    Pipeline.FromValues d ((items.filterMap ofJson?).map (·.step)) := by
  intro step hstep
  obtain ⟨x, hx, rfl⟩ := List.mem_map.mp hstep
  obtain ⟨w, hw, hwx⟩ := List.mem_filterMap.mp hx
  cases h with
  | array h => exact exists_ofJson_step (h w hw) hwx

theorem fromValues_read (text : String) :
    Pipeline.FromValues Pipeline.itemDepth ((read text).map (·.step)) := by
  unfold read readChars
  split
  · rename_i items hitems
    have hcanonical := canonical_of_value? hitems
    rw [Pipeline.maxDepth_eq] at hcanonical
    exact fromValues_filterMap hcanonical
  · exact nofun

end Suggestion

end TableCleaner
