import TableCleaner.Json.Printer
import TableCleaner.Step.Basic

/-!
# Steps read from records

The makers of step records do not agree on the names of their keys. For each parameter there is a
group of names in order of priority: the first that holds a value other than `null` counts. Every
JSON value is read as some step. The keys that belong to no group of its kind are kept as extra
keys.
-/

namespace TableCleaner

/-! ## Groups of names -/

namespace Group

def column : List String := ["column"]
def renameSource : List String := ["from", "from_", "from_col", "column"]
def renameTarget : List String := ["to", "to_value"]
def toType : List String := ["to_type", "toType"]
def subset : List String := ["columns", "byColumns", "by", "by_cols", "subset"]
def strategy : List String := ["strategy"]
def value : List String := ["value"]
def matching : List String := ["from", "from_value"]
def replacement : List String := ["to", "to_value"]
def trim : List String := ["trim"]
def lowercase : List String := ["lowercase"]
def removeSpecial : List String := ["removeSpecial", "remove_special"]
def collapseSpaces : List String := ["collapseSpaces", "collapse_spaces"]
def part : List String := ["part"]

end Group

/-- The groups that a kind reads. -/
def Kind.groups : Kind → List (List String)
  | dropColumn | oneHotEncode | labelEncode | scale _ => [Group.column]
  | renameColumn => [Group.renameSource, Group.renameTarget]
  | changeType => [Group.column, Group.toType]
  | removeDuplicateRows => [Group.subset]
  | impute => [Group.column, Group.strategy, Group.value]
  | replaceValues => [Group.column, Group.matching, Group.replacement]
  | textClean =>
    [Group.column, Group.trim, Group.lowercase, Group.removeSpecial, Group.collapseSpaces]
  | extractDatePart => [Group.column, Group.part]

/-! ## Values of parameters -/

namespace Json

/-- A text as it is and a number as it is written; any other value is no name. -/
def nameText : Json → String
  | text s => s
  | int i => String.ofList (intChars i)
  | float x => String.ofList (floatChars x)
  | _ => ""

/-- The value switches something on: it is true, not zero, not empty, and neither the text `false`
nor the text `0`. -/
def isTruthy : Json → Bool
  | null => false
  | bool b => b
  | int i => i != 0
  | float x => x != 0.0
  | text s =>
    let s := Text.trim s.toList
    !s.isEmpty && Text.asciiLower s != ['f', 'a', 'l', 's', 'e'] && s != ['0']
  | array items => !items.isEmpty
  | object entries => !entries.isEmpty

/-- The names in an array, or one name; what is no name is left out. -/
def nameTexts : Json → List String
  | array items => (items.map nameText).filter (!·.isEmpty)
  | v => [v.nameText].filter (!·.isEmpty)

end Json

namespace Record

/-- The first value of a group that is not `null`. -/
def first? (r : Record) (group : List String) : Option Json :=
  (group.filterMap r.get?).find? (!·.isNull)

/-- The first value of a group, where `null` counts when there is no better one. -/
def literal? (r : Record) (group : List String) : Option Json :=
  (r.first? group).or (if group.any r.contains then some .null else none)

def nameOf (r : Record) (group : List String) : String :=
  ((r.first? group).map Json.nameText).getD ""

def namesOf (r : Record) (group : List String) : List String :=
  ((r.first? group).map Json.nameTexts).getD []

def flagOf (r : Record) (group : List String) : Bool :=
  ((r.first? group).map Json.isTruthy).getD false

end Record

/-! ## Steps -/

/-- The operation of a kind with the parameters of a record. -/
def Kind.read (r : Record) : Kind → Operation
  | dropColumn => .dropColumn (r.nameOf Group.column)
  | renameColumn => .renameColumn (r.nameOf Group.renameSource) (r.nameOf Group.renameTarget)
  | changeType =>
    .changeType (r.nameOf Group.column) (TargetType.ofName? (r.nameOf Group.toType))
  | removeDuplicateRows => .removeDuplicateRows (r.namesOf Group.subset)
  | impute =>
    .impute (r.nameOf Group.column) (ImputeStrategy.ofName? (r.nameOf Group.strategy))
      (r.first? Group.value)
  | replaceValues =>
    .replaceValues (r.nameOf Group.column) (r.literal? Group.matching)
      (r.literal? Group.replacement)
  | oneHotEncode => .oneHotEncode (r.nameOf Group.column)
  | labelEncode => .labelEncode (r.nameOf Group.column)
  | scale s => .scale s (r.nameOf Group.column)
  | textClean =>
    .textClean (r.nameOf Group.column)
      { trim := r.flagOf Group.trim
        lowercase := r.flagOf Group.lowercase
        removeSpecial := r.flagOf Group.removeSpecial
        collapseSpaces := r.flagOf Group.collapseSpaces }
  | extractDatePart =>
    .extractDatePart (r.nameOf Group.column) (DatePart.ofName? (r.nameOf Group.part))

namespace Step

/-- The step of a record. -/
def ofRecord (r : Record) : Step :=
  let op := ((r.get? "op").bind Json.text?).getD ""
  match Kind.ofName? op with
  | some kind => ⟨kind.read r, r.without ("op" :: kind.groups.flatten)⟩
  | none => ⟨.unsupported op, r.without ["op"]⟩

/-- The step of any JSON value. A value that is no object has no keys. -/
def ofJson (v : Json) : Step := ofRecord (v.record?.getD .empty)

end Step

end TableCleaner
