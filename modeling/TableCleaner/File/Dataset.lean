import TableCleaner.Csv.Basic
import TableCleaner.File.Source

/-!
# Tables in files

The extension of a path says how a table is stored: as comma separated values or, under `parquet`,
as a frame with the types of its columns.
-/

namespace TableCleaner

inductive FileFormat where
  | csv
  | parquet
deriving DecidableEq, Repr

/-- The format that an extension in lower case stands for. -/
def FileFormat.ofName? (s : String) : Option FileFormat :=
  if s = "csv" then some .csv else if s = "parquet" then some .parquet else none

/-! ## Loading -/

inductive LoadError where
  | unsupportedFormat (name : String)
  | missing (path : Path)
  | noSource (path : Path) (e : SourceError)
  | unreadable (path : Path) (e : FileError)
  | badText (path : Path) (e : Csv.ReadError)
  /-- The file holds something else than a frame. -/
  | notAFrame (path : Path)
  | badFrame (path : Path) (e : FrameError)
deriving DecidableEq, Repr

/-- The messages from the outermost cause to the innermost. -/
def LoadError.messages : LoadError → List String
  | unsupportedFormat name =>
    [s!"Unsupported file format: '{name}'. Supported formats: csv, parquet"]
  | missing path =>
    let text := path.text
    [s!"Failed to read {text}: file not found", "file not found"]
  | noSource path e => parse path e.message
  | unreadable path e => parse path e.message
  | badText path e => parse path e.message
  | notAFrame path => parse path "out-of-spec parquet file"
  | badFrame path e => parse path e.message
where
  parse (path : Path) (reason : String) : List String :=
    let text := path.text
    [s!"Failed to parse {text}: {reason}", reason]

namespace Store

/-- The frame in some files of some format, one after another. -/
def loadFiles (s : Store) (p : Path) (inferRows : Nat) (format : FileFormat) :
    List Location → Except LoadError Frame
  | [] => .error (.noSource p .noFile)
  | first :: rest =>
    match format with
    | .csv => do
      let text ← (s.readTextAt first).mapError (.unreadable p)
      let texts ← (rest.mapM s.readTextAt).mapError (.unreadable p)
      (Csv.readAll inferRows text texts).mapError (.badText p)
    | .parquet => do
      let frame ← readFrame first
      (Frame.appendAll? frame (← rest.mapM readFrame)).mapError (.badFrame p)
where
  readFrame (l : Location) : Except LoadError Frame :=
    match s.readAt l with
    | .error e => .error (.unreadable p e)
    | .ok (.frame f) => .ok f
    | .ok _ => .error (.notAFrame p)

/-- The frame in the files of a path. -/
def loadFrame (s : Store) (p : Path) (inferRows : Nat) (format : FileFormat) :
    Except LoadError Frame :=
  match s.sources p with
  | .error e => .error (.noSource p e)
  | .ok files => s.loadFiles p inferRows format files

/-- The table in a file. The types of columns of text are inferred from some first rows. -/
def loadTable (s : Store) (p : Path) (inferRows : Nat) : Except LoadError Table :=
  if !s.holds p then .error (.missing p)
  else
    match FileFormat.ofName? p.formatName with
    | none => .error (.unsupportedFormat p.formatName)
    | some format =>
      match s.loadFrame p inferRows format with
      | .error e => .error e
      | .ok f => f.toTable?.mapError (.badFrame p)

end Store

/-! ## Saving -/

inductive SaveError where
  | unsupportedFormat (name : String)
  | cannotCreate (path : Path) (e : FileError)
deriving DecidableEq, Repr

/-- The messages from the outermost cause to the innermost. -/
def SaveError.messages : SaveError → List String
  | unsupportedFormat name =>
    [s!"Unsupported output format: '{name}'. Supported formats: csv, parquet"]
  | cannotCreate path e =>
    let text := path.text
    let reason := e.message
    [s!"Failed to create {text}: {reason}", reason]

/-- A table as the content of a file. -/
def FileFormat.content (t : Table) : FileFormat → Content
  | csv => .text (Csv.write (Frame.ofTable t))
  | parquet => .frame (Frame.ofTable t)

namespace Store

/-- Writes a table to a file. A format that is not supported leaves the file alone. -/
def saveTable (s : Store) (p : Path) (t : Table) : Except SaveError Store :=
  match FileFormat.ofName? p.formatName with
  | none => .error (.unsupportedFormat p.formatName)
  | some format => (s.write p (format.content t)).mapError (.cannotCreate p)

end Store

end TableCleaner
