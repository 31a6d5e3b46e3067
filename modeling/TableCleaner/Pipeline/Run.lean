import TableCleaner.Operation.Apply
import TableCleaner.Pipeline.Basic

/-!
# Runs

A run applies the steps of a pipeline one after another. Its report holds the shape of the table
before and after every step. A preview applies one step to the first rows.
-/

namespace TableCleaner

structure Shape where
  rows : Nat
  columns : Nat
deriving DecidableEq, Repr

def Table.shape (t : Table) : Shape := ⟨t.height, t.width⟩

def Step.apply (t : Table) (step : Step) : Table := step.operation.apply t

/-- What one step did to the shape of the table. -/
structure Outcome where
  /-- The place of the step in the pipeline, from 0. -/
  index : Nat
  kind : String
  isSupported : Bool
  before : Shape
  after : Shape
deriving DecidableEq, Repr

structure RunReport where
  before : Shape
  after : Shape
  outcomes : List Outcome
deriving DecidableEq, Repr

namespace RunReport

/-- The kinds of the steps that were passed over. -/
def unsupported (r : RunReport) : List String := (r.outcomes.filter (!·.isSupported)).map (·.kind)

def appliedCount (r : RunReport) : Nat := (r.outcomes.filter (·.isSupported)).length

end RunReport

namespace Pipeline

/-- The tables after each step. -/
def states (t : Table) : Pipeline → List Table
  | [] => []
  | step :: rest => step.apply t :: states (step.apply t) rest

/-- The table after the last step and the outcomes, the first of which gets the index `i`. -/
def runFrom (i : Nat) (t : Table) : Pipeline → Table × List Outcome
  | [] => (t, [])
  | step :: rest =>
    let next := step.apply t
    let op := step.operation
    let outcome := ⟨i, op.kindName, op.isSupported, t.shape, next.shape⟩
    let (last, outcomes) := runFrom (i + 1) next rest
    (last, outcome :: outcomes)

def runWithReport (t : Table) (steps : Pipeline) : Table × RunReport :=
  let (last, outcomes) := runFrom 0 t steps
  (last, ⟨t.shape, last.shape, outcomes⟩)

/-- The table after the last step. -/
def run (t : Table) (steps : Pipeline) : Table := (runWithReport t steps).1

/-- The table after the last of some step records. -/
def runRecords (t : Table) (records : List Json) : Table := run t (records.map Step.ofJson)

end Pipeline

/-- The rows that a preview works on. -/
def previewRows : Nat := 50

structure Preview where
  step : Step
  before : Table
  after : Table
deriving DecidableEq

def Step.preview (step : Step) (t : Table) : Preview :=
  let before := t.head previewRows
  ⟨step, before, step.apply before⟩

end TableCleaner
