import TableCleaner.Json.Reader
import TableCleaner.Step.Reading
import TableCleaner.Suggestion.Fence

/-!
# Suggestions

A suggestion is a step with a title and a description. Suggestions come as a JSON array, often with
a fence or some prose around it. What cannot be read is left out; it is never an error.
-/

namespace TableCleaner

structure Suggestion where
  title : String
  description : String
  step : Step
deriving DecidableEq

namespace Suggestion

/-- The text at a key, empty when the key is missing. Another value than a text is none. -/
def textAt? (r : Record) (key : String) : Option String :=
  match r.get? key with
  | none => some ""
  | some v => v.text?

/-- The one value at two names of the same thing. -/
def oneOf? (r : Record) (key other : String) : Option Json :=
  match r.get? key, r.get? other with
  | some v, none | none, some v => some v
  | _, _ => none

/-- Reads a record with a step at `operation` or `step`, or an array of title, description and
step. -/
def ofJson? : Json → Option Suggestion
  | .object entries => do
    let r := Record.ofEntries entries
    let title ← textAt? r "title"
    let description ← textAt? r "description"
    let step ← oneOf? r "operation" "step"
    return ⟨title, description, Step.ofJson step⟩
  | .array [.text title, .text description, step] => some ⟨title, description, Step.ofJson step⟩
  | _ => none

/-- The value in a text: the fenced text, or failing that its bracketed part. -/
def value? (s : List Char) : Option Json :=
  let body := Fence.body s
  (Json.readChars? body).or ((Fence.bracketed? body).bind Json.readChars?)

/-- The suggestions in a text, in their order. -/
def readChars (s : List Char) : List Suggestion :=
  match value? s with
  | some (.array items) => items.filterMap ofJson?
  | _ => []

def read (s : String) : List Suggestion := readChars s.toList

end Suggestion

end TableCleaner
