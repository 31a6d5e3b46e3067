import TableCleaner.File.Dataset
import TableCleaner.Proofs.File.Store

/-!
# Routes

The cleaning of a file reads at one location and writes at another one. Both are decided by the tree
and not by the files, and what is written depends on the content at the first location alone.
-/

namespace TableCleaner

/-- Where a cleaning reads and writes, and the format of both. -/
structure Route where
  source : Location
  destination : Location
  format : FileFormat
deriving DecidableEq, Repr

def FileFormat.table? (inferRows : Nat) : FileFormat → Content → Option Table
  | csv, .text t => (Csv.readAll inferRows t []).toOption.bind (·.toTable?.toOption)
  | parquet, .frame f => f.toTable?.toOption
  | _, _ => none

namespace Store

/-- The path stands for one file and not for the files that fit a pattern or stand in a directory.
There need not be a file yet. -/
structure NamesFile (s : Store) (p : Path) : Prop where
  plain : isPattern p.text.toList = false
  isFile : ∀ l, s.locate p = .ok l → s.isDirectory l = false

theorem namesFile_iff {s : Store} {p : Path} :
    s.NamesFile p ↔ isPattern p.text.toList = false ∧
      ∀ l ∈ (s.locate p).toOption, s.isDirectory l = false := by
  constructor
  · rintro ⟨hplain, hfile⟩
    exact ⟨hplain, fun l hl => hfile l (toOption_eq_some.1 hl)⟩
  · rintro ⟨hplain, hfile⟩
    exact ⟨hplain, fun l hl => hfile l (toOption_eq_some.2 hl)⟩

instance (s : Store) (p : Path) : Decidable (s.NamesFile p) :=
  decidable_of_iff _ namesFile_iff.symm

/-- The route of an input, when its cleaning can both read and write. -/
def route? (s : Store) (p : Path) : Option Route := do
  let source ← (s.locate p).toOption
  let destination ← (s.target p.cleaned).toOption
  let format ← FileFormat.ofName? p.formatName
  return ⟨source, destination, format⟩

theorem route?_eq_some {s : Store} {p : Path} {r : Route} :
    s.route? p = some r ↔
      s.locate p = .ok r.source ∧ s.target p.cleaned = .ok r.destination ∧
        FileFormat.ofName? p.formatName = some r.format := by
  obtain ⟨source, destination, format⟩ := r
  unfold route?
  simp only [Option.pure_def, Option.bind_eq_bind, Option.bind_eq_some_iff, toOption_eq_some,
    Option.some.injEq, Route.mk.injEq]
  constructor
  · rintro ⟨_, hl, _, hm, _, hf, rfl, rfl, rfl⟩
    exact ⟨hl, hm, hf⟩
  · rintro ⟨hl, hm, hf⟩
    exact ⟨_, hl, _, hm, _, hf, rfl, rfl, rfl⟩

theorem SameTree.route? {s t : Store} (h : s.SameTree t) (p : Path) :
    t.route? p = s.route? p := by
  unfold Store.route?
  rw [h.locate, h.target]

theorem SameTree.namesFile {s t : Store} (h : s.SameTree t) {p : Path} (hp : s.NamesFile p) :
    t.NamesFile p := by
  refine ⟨hp.plain, fun l hl => ?_⟩
  rw [h.isDirectory]
  exact hp.isFile l (toOption_eq_some.1 (h.locate p ▸ toOption_eq_some.2 hl))

/-! ## Loading -/

theorem table?_eq (s : Store) (p : Path) (n : Nat) (format : FileFormat) {l : Location}
    (h : s.isDirectory l = false) :
    ((s.loadFiles p n format [l]).toOption.bind (·.toTable?.toOption)) =
      (s.content? l).bind (format.table? n) := by
  unfold loadFiles
  cases format with
  | csv =>
    simp only [readTextAt, readAt, h]
    cases s.content? l with
    | none => rfl
    | some c =>
      cases c with
      | text t =>
        change ((Csv.readAll n t []).mapError (LoadError.badText p)).toOption.bind _ = _
        rw [toOption_mapError]
        rfl
      | frame f => rfl
      | unknown => rfl
  | parquet =>
    simp only [loadFiles.readFrame, readAt, h]
    cases s.content? l with
    | none => rfl
    | some c =>
      cases c with
      | text t => rfl
      | frame f => rfl
      | unknown => rfl

theorem toOption_loadTable {s : Store} {p : Path} (h : s.NamesFile p) (n : Nat) :
    (s.loadTable p n).toOption =
      (s.locate p).toOption.bind fun l => (s.content? l).bind fun c =>
        (FileFormat.ofName? p.formatName).bind fun format => format.table? n c := by
  unfold loadTable holds
  cases hl : s.locate p with
  | error e => simp [Except.toOption]
  | ok l =>
    have hfile := h.isFile l hl
    have hsource : (Except.ok l : Except FileError Location).toOption = some l := rfl
    rw [hsource, Option.bind_some]
    simp only [hfile, Bool.false_or]
    cases hc : s.content? l with
    | none => rfl
    | some c =>
      cases hformat : FileFormat.ofName? p.formatName with
      | none => rfl
      | some format =>
        have hframe : s.loadFrame p n format = s.loadFiles p n format [l] := by
          unfold loadFrame sources
          simp only [hl, hfile, h.plain, Bool.false_eq_true, if_false]
        have htable := table?_eq s p n format hfile
        rw [hc, Option.bind_some] at htable
        rw [Option.bind_some, Option.bind_some, ← htable]
        simp only [Option.isSome_some, Bool.not_true, Bool.false_eq_true, if_false, hframe]
        cases s.loadFiles p n format [l] with
        | error e => rfl
        | ok f => exact toOption_mapError ..

theorem isSome_of_loadTable {s : Store} {p : Path} {n : Nat} {t : Table}
    (h : s.loadTable p n = .ok t) :
    (s.locate p).toOption.isSome ∧ (FileFormat.ofName? p.formatName).isSome := by
  unfold loadTable at h
  split at h
  · cases h
  · rename_i hholds
    constructor
    · unfold holds at hholds
      cases hl : s.locate p with
      | error e => simp [hl] at hholds
      | ok l => rfl
    · cases hformat : FileFormat.ofName? p.formatName with
      | none => simp [hformat] at h
      | some format => rfl

/-! ## Names on a route -/

theorem exists_name {p : Path} {format : FileFormat}
    (h : FileFormat.ofName? p.formatName = some format) :
    ∃ name stem ext, p.fileName? = some name ∧ Path.splitName name = (stem, some ext) ∧
      p.formatName = String.ofList (Text.lower ext) := by
  have hnone : FileFormat.ofName? (String.ofList (Text.lower [])) = none := by decide
  unfold Path.formatName Path.extension? at h ⊢
  cases hname : p.fileName? with
  | none =>
    rw [hname] at h
    exact absurd (hnone.symm.trans h) (by simp)
  | some name =>
    rw [hname, Option.bind_some] at h
    cases hext : (Path.splitName name).2 with
    | none =>
      rw [hext] at h
      exact absurd (hnone.symm.trans h) (by simp)
    | some ext =>
      refine ⟨name, (Path.splitName name).1, ext, rfl, Prod.ext rfl hext, ?_⟩
      rw [Option.bind_some, hext]
      rfl

theorem exists_dir {s : Store} {p : Path} {r : Route} (hp : s.NamesFile p)
    (h : s.route? p = some r) :
    ∃ dir name stem ext, r.source = dir ++ [name] ∧ r.destination = dir ++ [Path.cleanedName name] ∧
      Path.splitName name = (stem, some ext) ∧
      FileFormat.ofName? (String.ofList (Text.lower ext)) = some r.format ∧
      FileFormat.ofName? p.cleaned.formatName = some r.format := by
  obtain ⟨hl, hm, hformat⟩ := route?_eq_some.1 h
  obtain ⟨name, stem, ext, hname, hsplit, hext⟩ := exists_name hformat
  have hfile := hp.isFile _ hl
  obtain ⟨dir, hsource, hdestination⟩ := target_cleaned hl hfile hname hsplit hm
  refine ⟨dir, name, stem, ext, hsource, hdestination, hsplit, hext ▸ hformat, ?_⟩
  rw [Path.formatName_cleaned (by simp [Path.extension?_of_fileName? hname, hsplit]), hformat]

theorem source_ne_destination {s : Store} {p : Path} {r : Route} (hp : s.NamesFile p)
    (h : s.route? p = some r) : r.source ≠ r.destination := by
  obtain ⟨dir, name, stem, ext, hsource, hdestination, hsplit, -, -⟩ := exists_dir hp h
  intro heq
  rw [hsource, hdestination] at heq
  exact Path.cleanedName_ne hsplit (List.singleton_inj.1 (List.append_cancel_left heq)).symm

theorem route_inj {s : Store} {p q : Path} {r r' : Route} (hp : s.NamesFile p)
    (hq : s.NamesFile q) (h : s.route? p = some r) (h' : s.route? q = some r')
    (heq : r.destination = r'.destination) : r = r' := by
  obtain ⟨dir, name, stem, ext, hsource, hdestination, hsplit, hformat, -⟩ := exists_dir hp h
  obtain ⟨dir', name', stem', ext', hsource', hdestination', hsplit', hformat', -⟩ :=
    exists_dir hq h'
  rw [hdestination, hdestination'] at heq
  obtain ⟨rfl, hnames⟩ := List.append_inj' heq rfl
  obtain rfl := Path.cleanedName_inj hsplit hsplit' (List.singleton_inj.1 hnames)
  obtain ⟨rfl, hext⟩ := Prod.mk.inj (hsplit.symm.trans hsplit')
  obtain rfl := Option.some.inj hext
  obtain ⟨source, destination, format⟩ := r
  obtain ⟨source', destination', format'⟩ := r'
  simp_all

theorem format_eq {s : Store} {p q : Path} {r r' : Route} (hp : s.NamesFile p)
    (hq : s.NamesFile q) (h : s.route? p = some r) (h' : s.route? q = some r')
    (heq : r.source = r'.destination) : r.format = r'.format := by
  obtain ⟨dir, name, stem, ext, hsource, -, hsplit, hformat, -⟩ := exists_dir hp h
  obtain ⟨dir', name', stem', ext', -, hdestination, hsplit', hformat', -⟩ := exists_dir hq h'
  rw [hsource, hdestination] at heq
  obtain ⟨-, hnames⟩ := List.append_inj' heq rfl
  have hcleaned := Path.splitName_cleanedName hsplit'
  rw [← List.singleton_inj.1 hnames, hsplit] at hcleaned
  obtain rfl := Option.some.inj (Prod.mk.inj hcleaned).2
  exact Option.some.inj (hformat.symm.trans hformat')

/-! ## Saving -/

theorem saveTable_of_route {s : Store} {p : Path} {r : Route} (hp : s.NamesFile p)
    (h : s.route? p = some r) (t : Table) :
    s.saveTable p.cleaned t = .ok (s.put r.destination (r.format.content t)) := by
  obtain ⟨-, hm, -⟩ := route?_eq_some.1 h
  obtain ⟨-, -, -, -, -, -, -, -, hformat⟩ := exists_dir hp h
  unfold saveTable write
  rw [hformat]
  simp only [hm]
  rfl

theorem SameTree.saveTable {s t u : Store} (h : s.SameTree t) {p : Path} {table : Table}
    (hsave : (t.saveTable p table).toOption = some u) : s.SameTree u := by
  unfold Store.saveTable at hsave
  split at hsave
  · cases hsave
  · rw [toOption_mapError] at hsave
    unfold Store.write at hsave
    split at hsave
    · cases hsave
    · obtain rfl := Option.some.inj hsave
      exact h.put ..

theorem saveTable_of_target {s : Store} {p : Path} (h : (s.target p).toOption = none)
    (t : Table) : (s.saveTable p t).toOption = none := by
  unfold saveTable write
  cases htarget : s.target p with
  | ok l => simp [htarget, Except.toOption] at h
  | error e => split <;> rfl

end Store

end TableCleaner
