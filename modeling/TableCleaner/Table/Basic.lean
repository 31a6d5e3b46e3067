import TableCleaner.Cell

/-!
# Tables

A table is a list of columns with different names and one height. The height is kept apart from the
columns, so rows can outlive the last column.
-/

namespace TableCleaner

structure Column where
  name : String
  cells : List Cell
deriving DecidableEq

structure Table where
  columns : List Column
  height : Nat
  names_nodup : (columns.map (·.name)).Nodup
  length_cells : ∀ c ∈ columns, c.cells.length = height
deriving DecidableEq

/-- Why columns make no table. -/
inductive TableError where
  | duplicate (name : String)
  | ragged (name : String) (expected actual : Nat)
deriving DecidableEq, Repr

def TableError.message : TableError → String
  | duplicate name => s!"Duplicate column name '{name}'"
  | ragged name expected actual => s!"Column '{name}' has {actual} rows, expected {expected}"

namespace Table

@[ext] theorem ext {s t : Table} (hc : s.columns = t.columns) (hh : s.height = t.height) :
    s = t := by
  cases s; cases t; cases hc; cases hh; rfl

/-! ## Building -/

/-- The first fault of columns that shall have a given height, after columns of some names. -/
def fault? (height : Nat) : List String → List Column → Option TableError
  | _, [] => none
  | before, c :: rest =>
    if c.cells.length ≠ height then some (.ragged c.name height c.cells.length)
    else if c.name ∈ before then some (.duplicate c.name)
    else fault? height (c.name :: before) rest

theorem fault?_eq_none_iff {height : Nat} {before : List String} {columns : List Column} :
    fault? height before columns = none ↔
      (∀ c ∈ columns, c.cells.length = height) ∧ (columns.map (·.name)).Nodup ∧
        ∀ c ∈ columns, c.name ∉ before := by
  induction columns generalizing before with
  | nil => simp [fault?]
  | cons c rest ih =>
    simp only [fault?, List.forall_mem_cons, List.map_cons, List.nodup_cons, List.mem_map]
    split
    · simp_all
    · split
      · simp_all
      · rw [ih]
        constructor
        · rintro ⟨hl, hn, hb⟩
          refine ⟨⟨by simp_all, hl⟩, ⟨?_, hn⟩, by simp_all, fun d hd => ?_⟩
          · rintro ⟨d, hd, he⟩
            exact hb d hd (by simp [he])
          · exact fun h => hb d hd (List.mem_cons_of_mem _ h)
        · rintro ⟨⟨-, hl⟩, ⟨hc, hn⟩, -, hb⟩
          refine ⟨hl, hn, fun d hd h => ?_⟩
          rcases List.mem_cons.1 h with h | h
          · exact hc ⟨d, hd, h⟩
          · exact hb d hd h

/-- The height that the first column sets; no columns have none. -/
def heightOf (columns : List Column) : Nat := (columns.head?.map (·.cells.length)).getD 0

/-- The table of some columns, if their names differ and their lengths agree. -/
def ofColumns? (columns : List Column) : Except TableError Table :=
  match h : fault? (heightOf columns) [] columns with
  | some e => .error e
  | none =>
    .ok ⟨columns, heightOf columns, (fault?_eq_none_iff.1 h).2.1, (fault?_eq_none_iff.1 h).1⟩

def empty : Table := ⟨[], 0, .nil, by simp⟩

instance : Inhabited Table := ⟨empty⟩

/-! ## Looking -/

def width (t : Table) : Nat := t.columns.length

def names (t : Table) : List String := t.columns.map (·.name)

def position? (t : Table) (name : String) : Option Nat := t.columns.findIdx? (·.name == name)

def column? (t : Table) (name : String) : Option Column := t.columns.find? (·.name == name)

def hasColumn (t : Table) (name : String) : Bool := (t.column? name).isSome

/-- The cells of a row in the order of the columns, if there is such a row. -/
def row? (t : Table) (i : Nat) : Option (List Cell) := t.columns.mapM (·.cells[i]?)

/-- The rows as records, with a value for every column. -/
def records (t : Table) : List Record :=
  (List.range t.height).map fun i =>
    Record.ofEntries (t.columns.map fun c => (c.name, (c.cells.getD i .null).toJson))

/-- Equal names and equal values; see `Cell.same`. -/
def same (s t : Table) : Bool :=
  s.height == t.height && s.width == t.width &&
    (s.columns.zip t.columns).all fun (c, d) =>
      c.name == d.name && c.cells.length == d.cells.length &&
        (c.cells.zip d.cells).all fun (a, b) => a.same b

/-! ## Changing columns -/

/-- Changes the cells of a column, one by one. -/
def mapCells (t : Table) (name : String) (f : Cell → Cell) : Table where
  columns := t.columns.map fun c => if c.name = name then { c with cells := c.cells.map f } else c
  height := t.height
  names_nodup := by
    have : (t.columns.map fun c =>
        if c.name = name then { c with cells := c.cells.map f } else c).map (·.name) =
        t.columns.map (·.name) := by
      rw [List.map_map]
      exact List.map_congr_left fun c _ => by simp only [Function.comp]; split <;> rfl
    rw [this]
    exact t.names_nodup
  length_cells := by
    intro c hc
    obtain ⟨d, hd, rfl⟩ := List.mem_map.1 hc
    split
    · simpa using t.length_cells d hd
    · exact t.length_cells d hd

/-- Takes a column away. -/
def dropColumn (t : Table) (name : String) : Table where
  columns := t.columns.filter (·.name ≠ name)
  height := t.height
  names_nodup := t.names_nodup.sublist (List.filter_sublist.map _)
  length_cells c hc := t.length_cells c (List.mem_filter.1 hc).1

theorem nodup_map_rename {columns : List Column} {source target : String}
    (h : (columns.map (·.name)).Nodup) (ht : ∀ c ∈ columns, c.name ≠ target) :
    ((columns.map fun c => if c.name = source then { c with name := target } else c).map
      (·.name)).Nodup := by
  induction columns with
  | nil => exact .nil
  | cons c rest ih =>
    simp only [List.map_cons, List.nodup_cons, List.mem_map] at h ⊢
    refine ⟨?_, ih h.2 fun d hd => ht d (List.mem_cons_of_mem _ hd)⟩
    rintro ⟨e, ⟨d, hd, rfl⟩, he⟩
    have hc := ht c List.mem_cons_self
    have hd' := ht d (List.mem_cons_of_mem _ hd)
    have hne : d.name ≠ c.name := fun he => h.1 ⟨d, hd, he⟩
    by_cases h₁ : d.name = source <;> by_cases h₂ : c.name = source <;> simp_all

/-- Gives a column a new name. Another column of that name gives way. Nothing happens when the two
names are equal or no column has the old one. -/
def renameColumn (t : Table) (source target : String) : Table :=
  if source = target ∨ t.hasColumn source = false then t
  else
    let s := t.dropColumn target
    { columns := s.columns.map fun c => if c.name = source then { c with name := target } else c
      height := s.height
      names_nodup := nodup_map_rename s.names_nodup fun c hc => by
        simpa using (List.mem_filter.1 hc).2
      length_cells := by
        intro c hc
        obtain ⟨d, hd, rfl⟩ := List.mem_map.1 hc
        split <;> exact s.length_cells d hd }

/-- Puts a column in the place of the one with its name, or after all others. -/
def setColumn (t : Table) (c : Column) (h : c.cells.length = t.height) : Table where
  columns :=
    if c.name ∈ t.names then t.columns.map fun d => if d.name = c.name then c else d
    else t.columns ++ [c]
  height := t.height
  names_nodup := by
    split
    · have : (t.columns.map fun d => if d.name = c.name then c else d).map (·.name) =
          t.columns.map (·.name) := by
        rw [List.map_map]
        exact List.map_congr_left fun d _ => by simp only [Function.comp]; split <;> simp_all
      rw [this]
      exact t.names_nodup
    · rename_i hn
      rw [List.map_append, List.nodup_append]
      refine ⟨t.names_nodup, by simp, ?_⟩
      rintro a ha b hb rfl
      simp only [List.map_cons, List.map_nil, List.mem_singleton] at hb
      exact hn (hb ▸ ha)
  length_cells := by
    intro d hd
    split at hd
    · obtain ⟨e, he, rfl⟩ := List.mem_map.1 hd
      split
      · exact h
      · exact t.length_cells e he
    · rcases List.mem_append.1 hd with hd | hd
      · exact t.length_cells d hd
      · rw [List.mem_singleton.1 hd, h]

/-- Writes one cell, if the table has it. -/
def setCell? (t : Table) (name : String) (row : Nat) (cell : Cell) : Option Table :=
  match h : t.column? name with
  | none => none
  | some c =>
    if row < t.height then
      some (t.setColumn { c with cells := c.cells.set row cell } (by
        simpa using t.length_cells c (List.mem_of_find?_eq_some h)))
    else none

/-! ## Changing rows -/

/-- The items whose flag is true. -/
def pick {α : Type} : List Bool → List α → List α
  | true :: flags, a :: rest => a :: pick flags rest
  | false :: flags, _ :: rest => pick flags rest
  | _, _ => []

theorem length_pick {α : Type} {flags : List Bool} {l : List α} (h : flags.length = l.length) :
    (pick flags l).length = flags.count true := by
  induction flags generalizing l with
  | nil => cases l <;> simp_all [pick]
  | cons f flags ih =>
    cases l with
    | nil => simp at h
    | cons a l => cases f <;> simp_all [pick]

/-- Keeps the rows whose flag is true, with one flag for each row. -/
def keepRows (t : Table) (flags : List Bool) (h : flags.length = t.height) : Table where
  columns := t.columns.map fun c => { c with cells := pick flags c.cells }
  height := flags.count true
  names_nodup := by simpa [Function.comp_def] using t.names_nodup
  length_cells := by
    intro c hc
    obtain ⟨d, hd, rfl⟩ := List.mem_map.1 hc
    exact length_pick (by rw [h, t.length_cells d hd])

/-- The first rows. -/
def head (t : Table) (n : Nat) : Table where
  columns := t.columns.map fun c => { c with cells := c.cells.take n }
  height := min t.height n
  names_nodup := by simpa [Function.comp_def] using t.names_nodup
  length_cells := by
    intro c hc
    obtain ⟨d, hd, rfl⟩ := List.mem_map.1 hc
    simp [t.length_cells d hd, Nat.min_comm]

end Table

end TableCleaner
