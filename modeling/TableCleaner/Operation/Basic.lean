import TableCleaner.Json.Value
import TableCleaner.Text.Blank
import TableCleaner.Text.Lowercase

/-!
# Operations

One change of a table with its parameters. A parameter that a step lacks is an empty name or
`none`; an operation that lacks one it needs changes nothing.
-/

namespace TableCleaner

/-- What the cells of a column are turned into. -/
inductive TargetType where
  | numeric
  | string
  | boolean
  | datetime
deriving DecidableEq, Repr

/-- Where the value for the empty cells of a column comes from. -/
inductive ImputeStrategy where
  | mean
  | median
  | mode
  | custom
deriving DecidableEq, Repr

inductive DatePart where
  | year
  | month
  | day
deriving DecidableEq, Repr

inductive Scaler where
  | minMax
  | standard
  | robust
deriving DecidableEq, Repr

/-- What text cleaning does. The order of its parts is fixed. -/
structure CleanFlags where
  trim : Bool := false
  lowercase : Bool := false
  removeSpecial : Bool := false
  collapseSpaces : Bool := false
deriving DecidableEq, Repr

/-! ## Names -/

/-- A parameter's name without blanks around it and without regard to ASCII case. -/
def parameterName (s : String) : String :=
  String.ofList (Text.asciiLower (Text.trim s.toList))

/-- What is added to the name of a column for its scaled form. -/
def Scaler.suffix : Scaler → String
  | .minMax => "_minmax"
  | .standard => "_std"
  | .robust => "_robust"

namespace TargetType

def name : TargetType → String
  | numeric => "numeric"
  | string => "string"
  | boolean => "boolean"
  | datetime => "datetime"

def ofName? (s : String) : Option TargetType :=
  match parameterName s with
  | "numeric" => some numeric
  | "string" => some string
  | "boolean" => some boolean
  | "datetime" => some datetime
  | _ => none

end TargetType

namespace ImputeStrategy

def name : ImputeStrategy → String
  | mean => "mean"
  | median => "median"
  | mode => "mode"
  | custom => "custom"

def ofName? (s : String) : Option ImputeStrategy :=
  match parameterName s with
  | "mean" => some mean
  | "median" => some median
  | "mode" => some mode
  | "custom" => some custom
  | _ => none

end ImputeStrategy

namespace DatePart

def name : DatePart → String
  | year => "year"
  | month => "month"
  | day => "day"

def ofName? (s : String) : Option DatePart :=
  match parameterName s with
  | "year" => some year
  | "month" => some month
  | "day" => some day
  | _ => none

end DatePart

/-! ## Kinds -/

/-- The operations that tables know, without their parameters. -/
inductive Kind where
  | dropColumn
  | renameColumn
  | changeType
  | removeDuplicateRows
  | impute
  | replaceValues
  | oneHotEncode
  | labelEncode
  | scale (scaler : Scaler)
  | textClean
  | extractDatePart
deriving DecidableEq, Repr

namespace Kind

def name : Kind → String
  | dropColumn => "drop_column"
  | renameColumn => "rename_column"
  | changeType => "change_type"
  | removeDuplicateRows => "remove_duplicate_rows"
  | impute => "impute"
  | replaceValues => "replace_values"
  | oneHotEncode => "one_hot_encode"
  | labelEncode => "label_encode"
  | scale .minMax => "scale_minmax"
  | scale .standard => "scale_standard"
  | scale .robust => "scale_robust"
  | textClean => "text_clean"
  | extractDatePart => "extract_date_part"

/-- The kind of a name. Three kinds have a second name, and blanks around a name do not count. -/
def ofName? (s : String) : Option Kind :=
  match String.ofList (Text.trim s.toList) with
  | "drop_column" => some dropColumn
  | "rename_column" => some renameColumn
  | "change_type" => some changeType
  | "remove_duplicate_rows" | "remove_duplicates" => some removeDuplicateRows
  | "impute" => some impute
  | "replace_values" => some replaceValues
  | "one_hot_encode" | "one_hot" => some oneHotEncode
  | "label_encode" => some labelEncode
  | "scale_minmax" => some (scale .minMax)
  | "scale_standard" => some (scale .standard)
  | "scale_robust" => some (scale .robust)
  | "text_clean" => some textClean
  | "extract_date_part" | "extract_date" => some extractDatePart
  | _ => none

end Kind

/-! ## Operations -/

inductive Operation where
  | dropColumn (column : String)
  | renameColumn (source target : String)
  | changeType (column : String) (toType : Option TargetType)
  | removeDuplicateRows (subset : List String)
  | impute (column : String) (strategy : Option ImputeStrategy) (value : Option Json)
  | replaceValues (column : String) (matching replacement : Option Json)
  | oneHotEncode (column : String)
  | labelEncode (column : String)
  | scale (scaler : Scaler) (column : String)
  | textClean (column : String) (flags : CleanFlags)
  | extractDatePart (column : String) (part : Option DatePart)
  /-- A kind that tables do not know, under the name it was given. It changes nothing. -/
  | unsupported (name : String)
deriving DecidableEq

namespace Operation

def kind? : Operation → Option Kind
  | dropColumn _ => some .dropColumn
  | renameColumn .. => some .renameColumn
  | changeType .. => some .changeType
  | removeDuplicateRows _ => some .removeDuplicateRows
  | impute .. => some .impute
  | replaceValues .. => some .replaceValues
  | oneHotEncode _ => some .oneHotEncode
  | labelEncode _ => some .labelEncode
  | scale s _ => some (.scale s)
  | textClean .. => some .textClean
  | extractDatePart .. => some .extractDatePart
  | unsupported _ => none

/-- The name of the kind, or the given name of an unknown one. -/
def kindName : Operation → String
  | unsupported name => name
  | op => (op.kind?.map Kind.name).getD ""

def isSupported (op : Operation) : Bool := op.kind?.isSome

end Operation

end TableCleaner
