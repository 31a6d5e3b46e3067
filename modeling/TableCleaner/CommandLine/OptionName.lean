/-!
# Options

The commands and the options that each of them takes. An option has a long name after two hyphens,
and most have a letter after one.
-/

namespace TableCleaner.CommandLine

inductive CommandName where
  | run
  | preview
  | normalize
  | suggestions
deriving DecidableEq, Repr

namespace CommandName

def text : CommandName → String
  | run => "run"
  | preview => "preview"
  | normalize => "normalize"
  | suggestions => "suggestions"

def all : List CommandName := [run, preview, normalize, suggestions]

def ofText? (s : String) : Option CommandName := all.find? (·.text == s)

end CommandName

inductive OptionName where
  | inputs
  | input
  | pipeline
  | output
  | step
  | file
  | json
  | inferRows
  | verbose
  | help
  | version
deriving DecidableEq, Repr

/-- What a value must be. -/
inductive ValueForm where
  | path
  | text
  | number
deriving DecidableEq, Repr

namespace OptionName

/-- The form of the values of an option that takes some. -/
def form? : OptionName → Option ValueForm
  | inputs | input | pipeline | output | file => some .path
  | step => some .text
  | inferRows => some .number
  | json | verbose | help | version => none

/-- One option with several values; all other options have one. -/
def isMany : OptionName → Bool
  | inputs => true
  | _ => false

/-- The option may be given again: its values are collected, or its occurrences counted. -/
def isRepeatable : OptionName → Bool
  | inputs | verbose => true
  | _ => false

def long : OptionName → String
  | inputs | input => "input"
  | pipeline => "pipeline"
  | output => "output"
  | step => "step"
  | file => "file"
  | json => "json"
  | inferRows => "infer-schema-length"
  | verbose => "verbose"
  | help => "help"
  | version => "version"

def letter? : OptionName → Option Char
  | inputs | input => some 'i'
  | pipeline => some 'p'
  | output => some 'o'
  | step => some 's'
  | file => some 'f'
  | json | inferRows => none
  | verbose => some 'v'
  | help => some 'h'
  | version => some 'V'

end OptionName

/-- The options of a command, or those that stand before any command. -/
def options : Option CommandName → List OptionName
  | none => [.inferRows, .verbose, .help, .version]
  | some .run => [.inputs, .pipeline, .output, .inferRows, .verbose, .help]
  | some .preview => [.input, .step, .json, .inferRows, .verbose, .help]
  | some .normalize => [.pipeline, .inferRows, .verbose, .help]
  | some .suggestions => [.file, .output, .inferRows, .verbose, .help]

def optionOfLong? (level : Option CommandName) (s : String) : Option OptionName :=
  (options level).find? (·.long == s)

def optionOfLetter? (level : Option CommandName) (c : Char) : Option OptionName :=
  (options level).find? (·.letter? == some c)

end TableCleaner.CommandLine
