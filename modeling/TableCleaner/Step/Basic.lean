import TableCleaner.Json.Record
import TableCleaner.Operation.Basic

/-!
# Steps

A step is an operation and the extra keys of the record it was read from. Its canonical record has
the name of the operation at `op` and one key for each parameter; a parameter that is missing is
left out.
-/

namespace TableCleaner

structure Step where
  operation : Operation
  extra : Record := .empty
deriving DecidableEq

namespace Step

/-- An entry for a text that is not missing. -/
def textEntry (key value : String) : List (String × Json) :=
  if value.isEmpty then [] else [(key, .text value)]

/-- An entry for a value that is there. -/
def valueEntry (key : String) (value : Option Json) : List (String × Json) :=
  (value.map fun v => (key, v)).toList

/-- The entries for the parameters of an operation. -/
def parameterEntries : Operation → List (String × Json)
  | .dropColumn column | .oneHotEncode column | .labelEncode column | .scale _ column =>
    textEntry "column" column
  | .renameColumn source target => textEntry "from" source ++ textEntry "to" target
  | .changeType column toType =>
    textEntry "column" column ++ textEntry "to_type" ((toType.map TargetType.name).getD "")
  | .removeDuplicateRows subset =>
    if subset.isEmpty then [] else [("columns", .array (subset.map .text))]
  | .impute column strategy value =>
    textEntry "column" column ++
      textEntry "strategy" ((strategy.map ImputeStrategy.name).getD "") ++ valueEntry "value" value
  | .replaceValues column matching replacement =>
    textEntry "column" column ++ valueEntry "from" matching ++ valueEntry "to" replacement
  | .textClean column flags =>
    textEntry "column" column ++
      [("trim", .bool flags.trim), ("lowercase", .bool flags.lowercase),
        ("removeSpecial", .bool flags.removeSpecial),
        ("collapseSpaces", .bool flags.collapseSpaces)]
  | .extractDatePart column part =>
    textEntry "column" column ++ textEntry "part" ((part.map DatePart.name).getD "")
  | .unsupported _ => []

/-- The canonical record: the parameters, and the extra keys where they take no place of a
parameter. -/
def toRecord (step : Step) : Record :=
  let entries := ("op", .text step.operation.kindName) :: parameterEntries step.operation
  (Record.ofEntries entries).withDefaults step.extra

def toJson (step : Step) : Json := step.toRecord.toJson

end Step

end TableCleaner
