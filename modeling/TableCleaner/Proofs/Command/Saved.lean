import TableCleaner.Command.Execution
import TableCleaner.Proofs.File.Store
import TableCleaner.Proofs.Step.Canonical

/-!
# Saved pipelines

A pipeline that a command prints or saves is loaded again as the same steps. The printed text ends
in a line break, which the reader passes over; a saved file is found where it was written.
-/

namespace TableCleaner

/-! ## Written, then read -/

namespace Store

theorem readText_of_write {s u : Store} {p : Path} {text : String}
    (h : s.write p (.text text) = .ok u) : u.readText p = .ok text := by
  unfold write at h
  split at h
  · cases h
  · rename_i l hl
    cases h
    obtain ⟨hlocate, hfile⟩ := target_eq_ok hl
    have htree := (SameTree.refl s).put l (.text text)
    have hlocate' : (s.put l (.text text)).locate p = .ok l := by
      rw [← toOption_eq_some, htree.locate, hlocate]
      rfl
    have hcontent : (s.put l (.text text)).content? l = some (.text text) := by
      rw [content?_put, if_pos rfl]
    rw [readText, hlocate']
    simp only [readTextAt, readAt, htree.isDirectory, hfile, hcontent]
    simp

theorem loadPipeline_eq_ok {s : Store} {p : Path} {steps : Pipeline} :
    s.loadPipeline p = .ok steps ↔
      ∃ text, s.readText p = .ok text ∧ Pipeline.read text = .ok steps := by
  unfold loadPipeline
  cases s.readText p with
  | error e => simp
  | ok text => cases hread : Pipeline.read text <;> simp [Except.mapError, hread]

end Store

/-! ## Printed pipelines -/

theorem normalizeCommand_of_loadPipeline {s : Store} {p : Path} {steps : Pipeline}
    (h : s.loadPipeline p = .ok steps) : normalizeCommand s p = .printed s [steps.pretty] := by
  unfold normalizeCommand
  rw [h]

theorem Execution.output_printed (s : Store) (text : String) :
    (printed s [text]).output = text ++ "\n" := by
  simp [printed, output, String.join]

theorem loadPipeline_of_output {s u : Store} {p again : Path} {steps : Pipeline}
    (h : s.loadPipeline p = .ok steps)
    (hagain : u.readText again = .ok (normalizeCommand s p).output) :
    u.loadPipeline again = .ok steps := by
  obtain ⟨text, -, hread⟩ := Store.loadPipeline_eq_ok.mp h
  have hvalues := Pipeline.fromValues_of_read hread
  have hbreak : ∀ c ∈ "\n".toList, Json.isSpace c = true := by simp [Json.isSpace]
  rw [normalizeCommand_of_loadPipeline h, Execution.output_printed] at hagain
  exact Store.loadPipeline_eq_ok.mpr ⟨_, hagain, hvalues.read_pretty_append hbreak⟩

/-! ## Saved suggestions -/

/-- The steps of the suggestions in a text, in their order. -/
def Suggestion.steps (text : String) : Pipeline := (read text).map (·.step)

theorem suggestionsCommand_save {s : Store} {file : Path} {text : String}
    (h : s.readText file = .ok text) (out : Path) :
    match s.write out (.text (Suggestion.steps text).pretty) with
    | .ok u => (suggestionsCommand s file (some out)).failure = none ∧
        (suggestionsCommand s file (some out)).store = u
    | .error e => (suggestionsCommand s file (some out)).failure = some (.savePipeline out e) ∧
        (suggestionsCommand s file (some out)).store = s := by
  unfold suggestionsCommand Suggestion.steps
  simp only [h]
  cases s.write out (.text (Pipeline.pretty ((Suggestion.read text).map (·.step)))) with
  | ok u => exact ⟨rfl, rfl⟩
  | error e => exact ⟨rfl, rfl⟩

theorem isSome_failure_suggestionsCommand {s : Store} {file out : Path} {text : String}
    (h : s.readText file = .ok text) :
    (suggestionsCommand s file (some out)).failure.isSome = true ↔
      (s.target out).toOption = none := by
  have hsave := suggestionsCommand_save h out
  unfold Store.write at hsave
  cases htarget : s.target out with
  | ok l =>
    simp only [htarget] at hsave
    simp [hsave.1, Except.toOption]
  | error e =>
    simp only [htarget] at hsave
    simp [hsave.1, Except.toOption]

theorem loadPipeline_of_saved {s : Store} {file out : Path} {text : String}
    (h : s.readText file = .ok text)
    (hsaved : (suggestionsCommand s file (some out)).failure = none) :
    (suggestionsCommand s file (some out)).store.readText out =
        .ok (Suggestion.steps text).pretty ∧
      (suggestionsCommand s file (some out)).store.loadPipeline out =
        .ok (Suggestion.steps text) := by
  have hsave := suggestionsCommand_save h out
  cases hwrite : s.write out (.text (Suggestion.steps text).pretty) with
  | error e =>
    rw [hwrite] at hsave
    rw [hsave.1] at hsaved
    cases hsaved
  | ok u =>
    rw [hwrite] at hsave
    have hread := Store.readText_of_write hwrite
    have hvalues := Suggestion.fromValues_read text
    rw [hsave.2]
    exact ⟨hread, Store.loadPipeline_eq_ok.mpr ⟨_, hread, hvalues.read_pretty⟩⟩

/-- **Saved pipelines.** The steps of every text that is a pipeline are read back from their
canonical text. What normalizing prints is loaded as the steps that were normalized, wherever it is
stored, and normalizing it prints the same once more. Suggestions are saved unless the file cannot
be written, and the saved file is loaded as their steps in their order. -/
theorem saved_pipelines_reload (s : Store) :
    (∀ text steps, Pipeline.read text = .ok steps → Pipeline.read steps.pretty = .ok steps) ∧
    (∀ p steps, s.loadPipeline p = .ok steps →
      normalizeCommand s p = .printed s [steps.pretty] ∧
      ∀ u again, Store.readText u again = .ok (normalizeCommand s p).output →
        u.loadPipeline again = .ok steps ∧
          (normalizeCommand u again).output = (normalizeCommand s p).output) ∧
    (∀ file text out, s.readText file = .ok text →
      ((suggestionsCommand s file (some out)).failure.isSome ↔ (s.target out).toOption = none) ∧
      ((suggestionsCommand s file (some out)).failure = none →
        (suggestionsCommand s file (some out)).store.readText out =
            .ok (Suggestion.steps text).pretty ∧
          (suggestionsCommand s file (some out)).store.loadPipeline out =
            .ok (Suggestion.steps text))) := by
  refine ⟨?_, ?_, ?_⟩
  · exact fun text steps h => (Pipeline.fromValues_of_read h).read_pretty
  · intro p steps h
    have hprints := normalizeCommand_of_loadPipeline h
    refine ⟨hprints, fun u again hagain => ?_⟩
    have hload := loadPipeline_of_output h hagain
    rw [hprints, normalizeCommand_of_loadPipeline hload, Execution.output_printed,
      Execution.output_printed]
    exact ⟨hload, rfl⟩
  · intro file text out h
    exact ⟨isSome_failure_suggestionsCommand h, loadPipeline_of_saved h⟩

def savedSuggestions : String :=
  "So: [[\"T\",\"\",\x7b\"op\":\"drop_column\",\"column\":\"x\"\x7d]] Done."

/-- A pipeline with a step that is no record, and the text of a generator. -/
def savedStore : Store :=
  ⟨[], [],
    [(["p.json".toList], .text
        "\x7b\"steps\":[\x7b\"op\":\"remove_duplicate_rows\",\"by\":\"id\",\"n\":[0.10]\x7d,5]\x7d"),
      (["g.txt".toList], .text savedSuggestions)]⟩

/-- The name of a column becomes an array and the number becomes a record, and the steps stay the
same. A saved pipeline may take the place of another. -/
theorem saved_pipelines_reload_in_place :
    let extra : Record := ⟨[("n", .array [.float 0.1])], List.pairwise_singleton ..⟩
    let steps : Pipeline := [⟨.removeDuplicateRows ["id"], extra⟩, ⟨.unsupported "", .empty⟩]
    (savedStore.loadPipeline ⟨"p.json"⟩).toOption = some steps ∧
      (savedStore.put ["q.json".toList]
        (.text (normalizeCommand savedStore ⟨"p.json"⟩).output)).loadPipeline ⟨"q.json"⟩ =
          .ok steps ∧
      (suggestionsCommand savedStore ⟨"g.txt"⟩ (some ⟨"p.json"⟩)).store.loadPipeline ⟨"p.json"⟩ =
        .ok [⟨.dropColumn "x", .empty⟩] := by
  intro extra steps
  obtain ⟨-, hnormalize, hsave⟩ := saved_pipelines_reload savedStore
  have hload : (savedStore.loadPipeline ⟨"p.json"⟩).toOption = some steps := by decide +kernel
  refine ⟨hload, ?_, ?_⟩
  · obtain ⟨-, hagain⟩ := hnormalize _ _ (Store.toOption_eq_some.mp hload)
    exact (hagain _ ⟨"q.json"⟩ (Store.readText_of_write (s := savedStore) rfl)).1
  · have hread : (savedStore.readText ⟨"g.txt"⟩).toOption = some savedSuggestions := by
      decide +kernel
    have htarget : (savedStore.target ⟨"p.json"⟩).toOption = some ["p.json".toList] := by
      decide +kernel
    have hsteps : Suggestion.steps savedSuggestions = [⟨.dropColumn "x", .empty⟩] := by
      decide +kernel
    obtain ⟨hfails, hsaved⟩ := hsave _ _ ⟨"p.json"⟩ (Store.toOption_eq_some.mp hread)
    rw [← hsteps]
    refine (hsaved ?_).2
    rw [← Option.not_isSome_iff_eq_none, hfails, htarget]
    exact nofun

end TableCleaner
