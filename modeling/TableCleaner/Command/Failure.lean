import TableCleaner.File.Dataset
import TableCleaner.Pipeline.Basic

/-!
# Failures of commands

A failure is shown as a chain of messages, from what the command was about to do down to the cause.
-/

namespace TableCleaner

/-- Why a file holds no pipeline. -/
inductive PipelineFileError where
  | unreadable (path : Path) (e : FileError)
  | malformed (e : PipelineError)
deriving DecidableEq, Repr

def PipelineFileError.messages : PipelineFileError → List String
  | unreadable path e =>
    let text := path.text
    let reason := e.message
    [s!"Failed to read pipeline file {text}: {reason}", reason]
  | malformed e => [e.message]

inductive Failure where
  | outputWithSeveralInputs (output : Path) (count : Nat)
  | loadTable (path : Path) (e : LoadError)
  | saveTable (path : Path) (e : SaveError)
  | loadPipeline (path : Path) (e : PipelineFileError)
  | readStep (path : Path) (e : FileError)
  | stepNotJson
  | readSuggestions (path : Path) (e : FileError)
  | savePipeline (path : Path) (e : FileError)
  | someFailed (failed count : Nat)
deriving DecidableEq, Repr

namespace Failure

/-- What the command was about to do. -/
def context : Failure → String
  | outputWithSeveralInputs output count =>
    let text := output.text
    s!"--output '{text}' can only be used with a single input ({count} given)"
  | loadTable path _ => "Failed to load dataset: " ++ path.text
  | saveTable path _ => "Failed to write cleaned dataset: " ++ path.text
  | loadPipeline path _ => "Failed to load pipeline: " ++ path.text
  | readStep path _ => "Failed to read step file: " ++ path.text
  | stepNotJson => "Step is not valid JSON"
  | readSuggestions path _ => "Failed to read suggestions file: " ++ path.text
  | savePipeline path _ => "Failed to write pipeline file: " ++ path.text
  | someFailed failed count => s!"{failed} of {count} files failed to clean"

/-- The messages of the causes. -/
def causes : Failure → List String
  | loadTable _ e => e.messages
  | saveTable _ e => e.messages
  | loadPipeline _ e => e.messages
  | readStep _ e | readSuggestions _ e | savePipeline _ e => [e.message]
  | outputWithSeveralInputs .. | stepNotJson | someFailed .. => []

/-- All messages in one line. -/
def chain (f : Failure) : String := ": ".intercalate (f.context :: f.causes)

end Failure

end TableCleaner
