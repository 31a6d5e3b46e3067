import TableCleaner.Json.Reader
import TableCleaner.Step.Reading

/-!
# Pipelines

A pipeline is a list of steps. Its text is a JSON array of step records, or an object that holds
the array at `steps`, or at `pipeline` when there is no key `steps`.
-/

namespace TableCleaner

abbrev Pipeline := List Step

/-- Why a text is no pipeline. -/
inductive PipelineError where
  | notJson
  | notASequence
deriving DecidableEq, Repr

def PipelineError.message : PipelineError → String
  | notJson => "Pipeline is not valid JSON"
  | notASequence => "Pipeline must be a JSON array of steps or an object with a 'steps' array"

namespace Pipeline

/-- The step records of a JSON value. -/
def records? : Json → Option (List Json)
  | .array items => some items
  | .object entries =>
    let r := Record.ofEntries entries
    match (r.get? "steps").or (r.get? "pipeline") with
    | some (.array items) => some items
    | _ => none
  | _ => none

def ofJson? (v : Json) : Option Pipeline := (records? v).map (·.map Step.ofJson)

/-- Reads the text of a pipeline. -/
def read (s : String) : Except PipelineError Pipeline :=
  match Json.read? s with
  | none => .error .notJson
  | some v =>
    match ofJson? v with
    | none => .error .notASequence
    | some steps => .ok steps

/-- The canonical form. -/
def toJson (steps : Pipeline) : Json := .array (steps.map Step.toJson)

/-- The canonical text. -/
def pretty (steps : Pipeline) : String := steps.toJson.pretty

end Pipeline

end TableCleaner
