import TableCleaner.Command.Job
import TableCleaner.CommandLine.Invocation
import TableCleaner.Screen.Comparison
import TableCleaner.Suggestion.Basic

/-!
# Execution of commands

A command reads files from a store, prints lines and leaves a store. A failed command has printed
what came before the failure.
-/

namespace TableCleaner

/-- What a command leaves. -/
structure Execution where
  lines : List String
  store : Store
  failure : Option Failure

namespace Execution

/-- A command that failed before it did anything. -/
def failed (s : Store) (f : Failure) : Execution := ⟨[], s, some f⟩

/-- A command that only printed. -/
def printed (s : Store) (lines : List String) : Execution := ⟨lines, s, none⟩

/-- The lines as one text. -/
def output (e : Execution) : String := String.join (e.lines.map (· ++ "\n"))

end Execution

/-- The version that the banner shows. -/
def version : String := "0.1.0"

/-! ## Cleaning -/

/-- The pipeline in a file. -/
def Store.loadPipeline (s : Store) (p : Path) : Except Failure Pipeline :=
  match s.readText p with
  | .error e => .error (.loadPipeline p (.unreadable p e))
  | .ok text => (Pipeline.read text).mapError fun e => .loadPipeline p (.malformed e)

/-- The jobs of a run and the steps that they apply. -/
structure RunPlan where
  pipeline : Path
  jobs : List Job
  steps : Pipeline

namespace RunPlan

/-- Settles what a run has to do. Nothing is written before. -/
def make (s : Store) (inputs : List Path) (pipeline : Path) (output : Option Path) :
    Except Failure RunPlan := do
  let jobs ← Job.resolve inputs output
  let steps ← s.loadPipeline pipeline
  return ⟨pipeline, jobs, steps⟩

/-- What is printed before the jobs. -/
def opening (plan : RunPlan) : List String :=
  Screen.banner version ++
  match plan.jobs with
  | [j] => Screen.runCard j.input plan.pipeline j.output plan.steps.length
  | _ => []

/-- The failure of a run: that of its only job, or how many jobs failed. -/
def failure? (results : List JobResult) : Option Failure :=
  match results.filterMap JobResult.failure? with
  | [] => none
  | first :: rest =>
    if results.length = 1 then some first
    else some (.someFailed (rest.length + 1) results.length)

/-- What is printed after the jobs, each with the time that it took. -/
def closing (results : List (JobResult × String)) : List String :=
  (results.flatMap fun r => r.1.lines r.2) ++
  if (failure? (results.map (·.1))).isNone then Screen.completion results.length else []

end RunPlan

/-- Cleans tables. The time of every job is given as a text. -/
def runCommand (s : Store) (inputs : List Path) (pipeline : Path) (output : Option Path)
    (inferRows : Nat) (time : String) : Execution :=
  match RunPlan.make s inputs pipeline output with
  | .error e => .failed s e
  | .ok plan =>
    let (last, results) := Job.attemptAll s plan.steps inferRows plan.jobs
    ⟨plan.opening ++ RunPlan.closing (results.map fun r => (r, time)), last,
      RunPlan.failure? results⟩

/-! ## Looking -/

/-- The text of a step: after the sign `@` stands the path of a file that holds it. -/
def Store.stepText (s : Store) (step : String) : Except Failure String :=
  match step.toList with
  | '@' :: path =>
    let p : Path := ⟨String.ofList path⟩
    (s.readText p).mapError (.readStep p)
  | _ => .ok step

def Store.readStep (s : Store) (step : String) : Except Failure Step := do
  match Json.read? (← s.stepText step) with
  | some v => return Step.ofJson v
  | none => throw .stepNotJson

/-- The preview as one JSON value. -/
def Preview.toJson (p : Preview) : Json :=
  let rows (t : Table) : Json := .array (t.records.map Record.toJson)
  .object [("after", rows p.after), ("before", rows p.before), ("step", p.step.toJson)]

def previewCommand (s : Store) (input : Path) (step : String) (asJson : Bool) (inferRows : Nat) :
    Execution :=
  let preview : Except Failure Preview := do
    let step ← s.readStep step
    let t ← (s.loadTable input inferRows).mapError (.loadTable input)
    return step.preview t
  match preview with
  | .error e => .failed s e
  | .ok p => .printed s (if asJson then [p.toJson.pretty] else p.lines)

def normalizeCommand (s : Store) (pipeline : Path) : Execution :=
  match s.loadPipeline pipeline with
  | .error e => .failed s e
  | .ok steps => .printed s [steps.pretty]

/-! ## Suggestions -/

/-- A suggestion with its number. Without a title it goes by the kind of its step. -/
def Suggestion.lines (x : Suggestion) (number : Nat) : List String :=
  let kind := x.step.operation.kindName
  let title := if x.title.isEmpty then kind else x.title
  ("    " ++ Screen.shownNat number ++ ". " ++ title ++ " [" ++ kind ++ "]") ::
    if x.description.isEmpty then [] else ["       " ++ x.description]

/-- The list of suggestions, or a note that there are none. -/
def Suggestion.listLines (xs : List Suggestion) : List String :=
  if xs.isEmpty then Screen.warning "No usable suggestions found"
  else (xs.zipIdx).flatMap fun p => p.1.lines (p.2 + 1)

def suggestionsCommand (s : Store) (file : Path) (output : Option Path) : Execution :=
  match s.readText file with
  | .error e => .failed s (.readSuggestions file e)
  | .ok text =>
    let suggestions := Suggestion.read text
    let listed := Suggestion.listLines suggestions
    match output with
    | none =>
      let note := "Use --output to save these steps as a pipeline file"
      .printed s (listed ++ if suggestions.isEmpty then [] else Screen.info note)
    | some path =>
      let steps : Pipeline := suggestions.map (·.step)
      match s.write path (.text steps.pretty) with
      | .error e => ⟨listed, s, some (.savePipeline path e)⟩
      | .ok next =>
        let saved := "Saved " ++ Screen.shownNat steps.length ++ " steps to " ++ path.text
        ⟨listed ++ Screen.success saved, next, none⟩

/-! ## All commands -/

/-- Executes a command. The time of every job of a run is given as a text. -/
def Invocation.execute (i : Invocation) (s : Store) (time : String) : Execution :=
  match i.command with
  | .run inputs pipeline output => runCommand s inputs pipeline output i.inferRows time
  | .preview input step asJson => previewCommand s input step asJson i.inferRows
  | .normalize pipeline => normalizeCommand s pipeline
  | .suggestions file output => suggestionsCommand s file output

end TableCleaner
