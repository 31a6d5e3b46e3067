import TableCleaner.Command.Execution

/-!
# The program

Fetches the files that a command names, executes the command on them, prints its lines and writes
the files that it changed. A frame lives in memory only and has no form as a file here.
-/

namespace TableCleaner.Program

/-! ## Fetching -/

/-- The paths that a command may read or write. -/
def paths (c : Command) : List Path :=
  match c with
  | .run inputs pipeline none => pipeline :: inputs ++ inputs.map Path.cleaned
  | .run inputs pipeline (some output) => pipeline :: output :: inputs
  | .preview input step _ =>
    match step.toList with
    | '@' :: path => [input, ⟨String.ofList path⟩]
    | _ => [input]
  | .normalize pipeline => [pipeline]
  | .suggestions file output => file :: output.toList

/-- Where a part of a path leads when nothing is checked. -/
def beneath (l : Location) (part : List Char) : Location :=
  if Path.isIdle part then l else if part = Path.dots then l.dropLast else l ++ [part]

/-- The file that stands for a location. -/
def fileName (l : Location) : String := "/" ++ String.ofList (Text.join '/' l)

/-- The code of the system for a directory that is read as a file. -/
def directoryCode : UInt32 := 21

/-- Adds what stands at a location to a store, if there is something. -/
def fetchAt (s : Store) (l : Location) : IO Store := do
  if s.isDirectory l || (s.content? l).isSome then return s
  try
    let text ← IO.FS.readFile (fileName l)
    return s.put l (.text text)
  catch e =>
    match e with
    | .noFileOrDirectory .. => return s
    | .inappropriateType _ code _ =>
      if code == directoryCode then return { s with directories := s.directories ++ [l] }
      else return s
    | _ => return s.put l .unknown

/-- Adds what stands below a directory, down to some depth. -/
def fetchTree (s : Store) (l : Location) : (depth : Nat) → IO Store
  | 0 => return s
  | n + 1 => do
    let mut s := s
    for entry in ← (← IO.FS.realPath (fileName l)).readDir do
      let below := l ++ [entry.fileName.toList]
      s ← fetchAt s below
      if s.isDirectory below then s ← fetchTree s below n
    return s

/-- The depth down to which directories are looked through. -/
def treeDepth : Nat := 32

/-- The depth of the files that fit some parts of a path. -/
def depthOf (parts : List (List Char)) : Nat :=
  if parts.contains ['*', '*'] then treeDepth else parts.length

/-- Adds everything that a path leads through or may stand for. -/
def fetch (s : Store) (p : Path) : IO Store := do
  let mut s := s
  let mut l := s.start p
  for part in p.parts do
    l := beneath l part
    s ← fetchAt s l
  if s.isDirectory l then s ← fetchTree s l treeDepth
  let exact := p.parts.takeWhile (!isPattern ·)
  let patterns := p.parts.drop exact.length
  let base := exact.foldl beneath (s.start p)
  if !patterns.isEmpty && s.isDirectory base then s ← fetchTree s base (depthOf patterns)
  return s

/-- The part of the file system that a command can see. -/
def fetchAll (c : Command) : IO Store := do
  let directory : Path := ⟨(← IO.getEnv "PWD").getD "/"⟩
  let current := directory.parts.foldl beneath []
  let mut s : Store := ⟨current, [current], []⟩
  for p in paths c do
    s ← fetch s p
  return s

/-! ## Writing -/

/-- The files that hold another text than before. -/
def changes (before after : Store) : List (Location × Content) :=
  after.files.filter fun (l, c) =>
    match before.content? l, c with
    | some (.text old), .text new => old != new
    | some .unknown, .unknown => false
    | _, _ => true

/-- Writes the changed files. It says which of them could not be written. -/
def writeChanges (before after : Store) : IO Bool := do
  let mut done := true
  for (l, c) in changes before after do
    match c with
    | .text text => IO.FS.writeFile (fileName l) text
    | _ =>
      IO.eprintln ("Error: no frame can be written to " ++ fileName l)
      done := false
  return done

def printLines (lines : List String) : IO Unit := lines.forM IO.println

/-! ## Ending -/

/-- The text about a failure: its context, and its causes below. -/
def failureLines (f : Failure) : List String :=
  let causes := match f.causes with
    | [] => []
    | [cause] => ["", "Caused by:", "    " ++ cause]
    | causes =>
      "" :: "Caused by:" :: (causes.zipIdx).map fun (cause, i) => s!"    {i}: {cause}"
  ("Error: " ++ f.context) :: causes

/-- Reports a failure. The code of the program says if there was one. -/
def finish (failure : Option Failure) (written : Bool) : IO UInt32 := do
  match failure with
  | some f =>
    for line in failureLines f do IO.eprintln line
    return 1
  | none => return if written then 0 else 1

/-! ## Commands -/

/-- Carries out a run and takes the time of every job. -/
def run (s : Store) (inputs : List Path) (pipeline : Path) (output : Option Path)
    (inferRows : Nat) : IO UInt32 := do
  match RunPlan.make s inputs pipeline output with
  | .error f => finish (some f) true
  | .ok plan =>
    printLines plan.opening
    let mut store := s
    let mut results : List (JobResult × String) := []
    let mut written := true
    for job in plan.jobs do
      let start ← IO.monoNanosNow
      let (next, result) := job.attempt store plan.steps inferRows
      let done ← writeChanges store next
      let stop ← IO.monoNanosNow
      written := written && done
      store := next
      results := results ++ [(result, Screen.seconds (stop - start))]
    printLines (RunPlan.closing results)
    finish (RunPlan.failure? (results.map (·.1))) written

def execute (i : Invocation) : IO UInt32 := do
  let s ← fetchAll i.command
  match i.command with
  | .run inputs pipeline output => run s inputs pipeline output i.inferRows
  | _ =>
    let e := i.execute s ""
    printLines e.lines
    let written ← writeChanges s e.store
    finish e.failure written

/-- How the program is called. -/
def usage : List String :=
  ["Usage: clyra [OPTIONS] <COMMAND>", "", "Commands:",
    "  run          -i <INPUT>... -p <PIPELINE> [-o <OUTPUT>]",
    "  preview      -i <INPUT> -s <STEP> [--json]",
    "  normalize    -p <PIPELINE>",
    "  suggestions  -f <FILE> [-o <OUTPUT>]", "", "Options:",
    "  -v, --verbose", "      --infer-schema-length <ROWS>", "  -h, --help", "  -V, --version"]

/-- What is wrong with the arguments. -/
def usageMessage (e : CommandLine.UsageError) : String :=
  match e with
  | .displayHelp | .displayHelpOnMissing | .displayVersion => ""
  | .missingSubcommand => "a command is missing"
  | .invalidSubcommand => "there is no such command"
  | .unknownArgument => "an argument is unknown"
  | .invalidValue => "an option has no value"
  | .valueValidation => "the value of an option is no number"
  | .argumentConflict => "an option is given twice"
  | .tooManyValues => "an option that takes no value has one"
  | .missingRequiredArgument => "an option is missing"

end TableCleaner.Program

open TableCleaner

def main (args : List String) : IO UInt32 := do
  match Invocation.ofArguments args with
  | .ok i => Program.execute i
  | .error .displayHelp =>
    Program.printLines Program.usage
    return 0
  | .error .displayVersion =>
    IO.println ("clyra " ++ version)
    return 0
  | .error e =>
    let message := Program.usageMessage e
    if !message.isEmpty then IO.eprintln ("error: " ++ message ++ "\n")
    for line in Program.usage do IO.eprintln line
    return 2
