import TableCleaner.CommandLine.OptionName
import TableCleaner.Decimal.Reading

/-!
# Given options

Arguments are read from left to right. The values of an option are collected until another option
comes, and are checked only then. What is left after the last option is no option's value.
-/

namespace TableCleaner.CommandLine

/-- Why arguments ask for nothing to be done. -/
inductive UsageError where
  | displayHelp
  | displayVersion
  | displayHelpOnMissing
  | missingSubcommand
  | invalidSubcommand
  | unknownArgument
  | invalidValue
  | valueValidation
  | argumentConflict
  | tooManyValues
  | missingRequiredArgument
deriving DecidableEq, Repr

/-- The options given so far with their values, in their order. -/
abbrev Given := List (OptionName × List String)

namespace Given

def has (g : Given) (o : OptionName) : Bool := g.any (·.1 == o)

def count (g : Given) (o : OptionName) : Nat := (g.filter (·.1 == o)).length

/-- All values of an option. -/
def values (g : Given) (o : OptionName) : List String := (g.filter (·.1 == o)).flatMap (·.2)

def value? (g : Given) (o : OptionName) : Option String := (g.values o).head?

end Given

/-! ## Checks -/

/-- The number that a text holds, if it fits a machine word. -/
def number? (s : String) : Option Nat :=
  let digits := match s.toList with
    | '+' :: r => r
    | r => r
  if digits.isEmpty || !digits.all Decimal.isDigit then none
  else
    let n := Decimal.digitsValue digits
    if n < 0x10000000000000000 then some n else none

def checkValue (form : ValueForm) (value : String) : Except UsageError Unit :=
  match form with
  | .path => if value.isEmpty then .error .invalidValue else .ok ()
  | .text => .ok ()
  | .number => if (number? value).isSome then .ok () else .error .valueValidation

def checkValues (form : ValueForm) : List String → Except UsageError Unit
  | [] => .ok ()
  | value :: rest =>
    match checkValue form value with
    | .ok () => checkValues form rest
    | .error e => .error e

/-- Adds an option with its values to the given ones. -/
def record (g : Given) (o : OptionName) (values : List String) : Except UsageError Given :=
  match o.form? with
  | none =>
    match o with
    | .help => .error .displayHelp
    | .version => .error .displayVersion
    | _ => if !o.isRepeatable && g.has o then .error .argumentConflict else .ok (g ++ [(o, [])])
  | some form =>
    if values.isEmpty then .error .invalidValue
    else if !o.isRepeatable && g.has o then .error .argumentConflict
    else
      match checkValues form values with
      | .ok () => .ok (g ++ [(o, values)])
      | .error e => .error e

/-! ## Reading arguments -/

/-- What has been read: the checked options, an option whose values are collected, and whether it
may still take one. -/
structure Scan where
  given : Given := []
  waiting : Option (OptionName × List String) := none
  isOpen : Bool := false
deriving DecidableEq, Repr

namespace Scan

/-- Checks the option whose values were collected. -/
def settle (st : Scan) : Except UsageError Scan :=
  match st.waiting with
  | none => .ok { st with isOpen := false }
  | some (o, values) => (record st.given o values).map fun g => ⟨g, none, false⟩

/-- Gives an option. A value that is written together with it is its only one. -/
def give (st : Scan) (o : OptionName) (attached : Option String) : Except UsageError Scan :=
  match st.settle with
  | .error e => .error e
  | .ok st =>
    match o.form?, attached with
    | some _, none => .ok ⟨st.given, some (o, []), true⟩
    | _, _ => (record st.given o attached.toList).map fun g => ⟨g, none, false⟩

/-- Takes a value for the waiting option. -/
def take (st : Scan) (value : String) : Scan :=
  match st.waiting with
  | none => st
  | some (o, values) => ⟨st.given, some (o, values ++ [value]), o.isMany⟩

/-- Reads an argument after two hyphens: a long name, perhaps with a value after an equals sign. -/
def giveLong (level : Option CommandName) (st : Scan) (s : List Char) : Except UsageError Scan :=
  let name := s.takeWhile (· ≠ '=')
  let attached := match s.drop name.length with
    | [] => none
    | _ :: value => some (String.ofList value)
  match optionOfLong? level (String.ofList name) with
  | none => .error .unknownArgument
  | some o =>
    if o.form?.isNone && attached.isSome then .error .tooManyValues else st.give o attached

/-- Reads letters after one hyphen. What follows the letter of an option with values is its
value. -/
def giveLetters (level : Option CommandName) (st : Scan) : List Char → Except UsageError Scan
  | [] => .ok st
  | c :: rest =>
    match optionOfLetter? level c with
    | none => .error .unknownArgument
    | some o =>
      if o.form?.isNone then
        match st.give o none with
        | .error e => .error e
        | .ok st => giveLetters level st rest
      else
        let attached := match rest with
          | [] => none
          | '=' :: value => some (String.ofList value)
          | value => some (String.ofList value)
        st.give o attached

end Scan

/-- The error of an argument that nothing takes. -/
def strayError (level : Option CommandName) : UsageError :=
  match level with
  | none => .invalidSubcommand
  | some _ => .unknownArgument

/-- The word that asks for help about the words after it. -/
def helpWord : String := "help"

def isCommandWord (s : String) : Bool := s == helpWord || (CommandName.ofText? s).isSome

/-- The error that shows the help about some words. -/
def helpError : List String → UsageError
  | [] => .displayHelp
  | [word] => if isCommandWord word then .displayHelp else .invalidSubcommand
  | _ => .invalidSubcommand

/-- The error after two lone hyphens, if anything follows them. -/
def checkAfterHyphens (level : Option CommandName) : List String → Except UsageError Unit
  | [] => .ok ()
  | word :: _ =>
    if level.isNone && isCommandWord word then .error .unknownArgument
    else .error (strayError level)

/-- The options before a command, with the command and the arguments after it. In a command, all
arguments are read. -/
def scan (level : Option CommandName) (st : Scan) :
    List String → Except UsageError (Scan × Option (CommandName × List String))
  | [] => .ok (st, none)
  | arg :: rest =>
    let command? := if level.isNone && !st.isOpen then CommandName.ofText? arg else none
    match command? with
    | some c => .ok (st, some (c, rest))
    | none =>
      if level.isNone && !st.isOpen && arg == helpWord then .error (helpError rest)
      else
        match arg.toList with
        | ['-', '-'] => (checkAfterHyphens level rest).map fun _ => (st, none)
        | '-' :: '-' :: s =>
          match st.giveLong level s with
          | .error e => .error e
          | .ok st => scan level st rest
        | '-' :: c :: s =>
          match st.giveLetters level (c :: s) with
          | .error e => .error e
          | .ok st => scan level st rest
        | _ => if st.isOpen then scan level (st.take arg) rest else .error (strayError level)

/-- All options of a command, checked. -/
def readOptions (level : CommandName) (args : List String) : Except UsageError Given :=
  match scan (some level) {} args with
  | .error e => .error e
  | .ok (st, _) => st.settle.map Scan.given

end TableCleaner.CommandLine
