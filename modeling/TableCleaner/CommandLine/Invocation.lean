import TableCleaner.CommandLine.Given
import TableCleaner.File.Path

/-!
# Invocations

An invocation is a command with its parameters, read from the arguments of the program. What stands
before the command counts unless the command says it again.
-/

namespace TableCleaner

inductive Command where
  /-- Cleans tables by the steps in a file. -/
  | run (inputs : List Path) (pipeline : Path) (output : Option Path)
  /-- Shows what one step does to the first rows of a table. -/
  | preview (input : Path) (step : String) (asJson : Bool)
  /-- Prints the canonical text of a pipeline. -/
  | normalize (pipeline : Path)
  /-- Lists the steps that a text suggests. -/
  | suggestions (file : Path) (output : Option Path)
deriving DecidableEq, Repr

structure Invocation where
  command : Command
  verbosity : Nat
  /-- The rows from which types are inferred; zero stands for all. -/
  inferRows : Nat
deriving DecidableEq, Repr

namespace Invocation

open CommandLine

/-- The rows from which types are inferred unless a number is given. -/
def defaultInferRows : Nat := 10000

/-- How much is logged for a verbosity. -/
def levelName (verbosity : Nat) : String :=
  match verbosity with
  | 0 => "warn"
  | 1 => "info"
  | 2 => "debug"
  | _ => "trace"

def pathOf? (g : Given) (o : OptionName) : Option Path := (g.value? o).map Path.mk

/-- The command with the given parameters, if none is missing. -/
def command? (g : Given) : CommandName → Option Command
  | .run => do
    let pipeline ← pathOf? g .pipeline
    if g.has .inputs then
      return .run ((g.values .inputs).map Path.mk) pipeline (pathOf? g .output)
    else none
  | .preview => do
    return .preview (← pathOf? g .input) (← g.value? .step) (g.has .json)
  | .normalize => (pathOf? g .pipeline).map .normalize
  | .suggestions => (pathOf? g .file).map fun file => .suggestions file (pathOf? g .output)

/-- How often the verbosity was raised. The count stops at 255. -/
def verbosityOf (g outer : Given) : Nat :=
  min 255 (if g.has .verbose then g.count .verbose else outer.count .verbose)

def inferRowsOf (g outer : Given) : Nat :=
  (((g.value? .inferRows).or (outer.value? .inferRows)).bind number?).getD defaultInferRows

/-- The error when no command is named. -/
def noCommand (outer : Given) : UsageError :=
  if outer.isEmpty then .displayHelpOnMissing else .missingSubcommand

/-- Reads the arguments of the program. The options of the command are checked before the last one
that stands in front of it. -/
def ofArguments (args : List String) : Except UsageError Invocation := do
  let (st, found) ← scan none {} args
  match found with
  | none => throw (noCommand (← st.settle).given)
  | some (name, rest) =>
    let g ← readOptions name rest
    match command? g name with
    | none => throw .missingRequiredArgument
    | some command =>
      let outer := (← st.settle).given
      return ⟨command, verbosityOf g outer, inferRowsOf g outer⟩

end Invocation

end TableCleaner
