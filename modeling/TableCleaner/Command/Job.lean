import TableCleaner.Command.Failure
import TableCleaner.Screen.RunSummary

/-!
# Jobs

A job cleans one table: it reads the table at its input, applies the steps and writes the result to
its output. A job that fails writes nothing.
-/

namespace TableCleaner

structure Job where
  input : Path
  output : Path
deriving DecidableEq, Repr

namespace Job

/-- The jobs for some inputs. An output can be named for a single input only. -/
def resolve (inputs : List Path) (output : Option Path) : Except Failure (List Job) :=
  match output with
  | none => .ok (inputs.map fun p => ⟨p, p.cleaned⟩)
  | some o =>
    if 1 < inputs.length then .error (.outputWithSeveralInputs o inputs.length)
    else .ok (inputs.map fun p => ⟨p, o⟩)

/-- Reads the table of the job. -/
def load (j : Job) (s : Store) (inferRows : Nat) : Except Failure Table :=
  (s.loadTable j.input inferRows).mapError (.loadTable j.input)

/-- Writes the cleaned table of the job. -/
def save (j : Job) (s : Store) (t : Table) : Except Failure Store :=
  (s.saveTable j.output t).mapError (.saveTable j.output)

/-- Carries the job out. -/
def run (j : Job) (s : Store) (steps : Pipeline) (inferRows : Nat) :
    Except Failure (Store × RunSummary) := do
  let t ← j.load s inferRows
  let (cleaned, report) := Pipeline.runWithReport t steps
  return (← j.save s cleaned, ⟨j.input, j.output, report⟩)

end Job

/-- What became of a job. -/
structure JobResult where
  job : Job
  summary : Except Failure RunSummary

namespace JobResult

def failure? (r : JobResult) : Option Failure :=
  match r.summary with
  | .ok _ => none
  | .error e => some e

/-- The report of a job, or a note that it failed. -/
def lines (r : JobResult) (time : String) : List String :=
  match r.summary with
  | .ok s => s.lines time
  | .error e => Screen.warning (r.job.input.text ++ ": " ++ e.chain)

end JobResult

namespace Job

/-- Carries one job out, with the store that it leaves. -/
def attempt (j : Job) (s : Store) (steps : Pipeline) (inferRows : Nat) : Store × JobResult :=
  match j.run s steps inferRows with
  | .ok (next, summary) => (next, ⟨j, .ok summary⟩)
  | .error e => (s, ⟨j, .error e⟩)

/-- Carries jobs out one after another. A job that fails does not stop the others. -/
def attemptAll (s : Store) (steps : Pipeline) (inferRows : Nat) :
    List Job → Store × List JobResult
  | [] => (s, [])
  | j :: rest =>
    let (next, result) := j.attempt s steps inferRows
    let (last, results) := attemptAll next steps inferRows rest
    (last, result :: results)

end Job

end TableCleaner
