import TableCleaner.Pipeline.Run
import TableCleaner.Proofs.Operation.Change

/-!
# Bare tables

A bare table is columns and a height, with no promise about either. Operations are carried out on
it with every check in the open: a column is set only if it has a cell for each row, and a row is
read only where every column has it. Where a check fails there is no result. The main statement is
that from columns that make a table no check ever fails, and that the tables of a run are what the
checked operations give.
-/

namespace TableCleaner

structure BareTable where
  columns : List Column
  height : Nat
deriving DecidableEq

def Table.bare (t : Table) : BareTable := ⟨t.columns, t.height⟩

namespace BareTable

/-- The names differ, and every column has a cell for each row. -/
def Valid (b : BareTable) : Prop :=
  (b.columns.map (·.name)).Nodup ∧ ∀ c ∈ b.columns, c.cells.length = b.height

/-! ## Columns -/

def position? (b : BareTable) (name : String) : Option Nat :=
  b.columns.findIdx? (·.name == name)

def cells? (b : BareTable) (name : String) : Option (List Cell) :=
  if name.isEmpty then none else (b.columns.find? (·.name == name)).map (·.cells)

def updateFirst (name : String) (f : Column → Column) : List Column → List Column
  | [] => []
  | c :: rest => if c.name = name then f c :: rest else c :: updateFirst name f rest

def update (b : BareTable) (name : String) (f : Column → Column) : BareTable :=
  { b with columns := updateFirst name f b.columns }

def remove (b : BareTable) (name : String) : BareTable :=
  { b with columns := b.columns.eraseP (·.name == name) }

/-- Sets a column, which has to have a cell for each row. A table without columns takes over the
height of its new column. -/
def set? (b : BareTable) (c : Column) : Option BareTable :=
  if b.columns.isEmpty then some ⟨[c], c.cells.length⟩
  else if c.cells.length ≠ b.height then none
  else if (b.position? c.name).isSome then some (b.update c.name fun _ => c)
  else some { b with columns := b.columns ++ [c] }

def rename (b : BareTable) (source target : String) : BareTable :=
  if source = target ∨ b.position? source = none then b
  else (b.remove target).update source fun c => { c with name := target }

/-! ## Rows -/

def row? (b : BareTable) (i : Nat) : Option (List Cell) := b.columns.mapM (·.cells[i]?)

def records? (b : BareTable) : Option (List Record) :=
  (List.range b.height).mapM fun i =>
    (b.columns.mapM fun c => c.cells[i]?.map fun cell => (c.name, cell.toJson)).map Record.ofEntries

def rowKey? (b : BareTable) (positions : List Nat) (row : Nat) : Option (List (Option String)) :=
  positions.mapM fun i => (b.columns[i]?.bind (·.cells[row]?)).map Cell.key

/-- Keeps the rows whose flag is true. A row without a flag is not kept. -/
def keepRows (b : BareTable) (flags : List Bool) : BareTable :=
  ⟨b.columns.map fun c => { c with cells := Table.pick flags c.cells },
    (flags.take b.height).count true⟩

def comparedPositions? (b : BareTable) (subset : List String) : Option (List Nat) :=
  if subset.isEmpty then some (List.range b.columns.length) else subset.mapM b.position?

def select? (b : BareTable) (subset : List String) : Option BareTable :=
  match b.comparedPositions? subset with
  | none => some b
  | some positions =>
    ((List.range b.height).mapM (b.rowKey? positions)).map fun keys =>
      let flags := Table.firstFlags [] keys
      if flags.all id then b else b.keepRows flags

/-! ## Operations -/

def setIndicators? (column : String) (keys : List (Option String)) (b : BareTable)
    (categories : List String) : Option BareTable :=
  categories.foldlM
    (fun b k => b.set? ⟨column ++ "_" ++ k, keys.map fun key => .bool (key == some k)⟩) b

def encode? (b : BareTable) (column : String) : Option BareTable :=
  match b.cells? column with
  | none => some b
  | some cells =>
    setIndicators? column (cells.map Cell.key) (b.remove column)
      (Table.distinct (Table.presentKeys cells))

/-- Carries out a change with all checks. -/
def change? (b : BareTable) : Change → Option BareTable
  | .keep => some b
  | .drop column => some (if column.isEmpty then b else b.remove column)
  | .rename source target =>
    some (if source.isEmpty || target.isEmpty then b else b.rename source target)
  | .map column f =>
    match b.cells? column with
    | none => some b
    | some cells => some (b.update column fun c => { c with cells := c.cells.map (f cells) })
  | .derive source target f _ =>
    match b.cells? source with
    | none => some b
    | some cells => b.set? ⟨target, f cells⟩
  | .encode column => b.encode? column
  | .select subset => b.select? subset

/-- The bare tables after each step of a run with all checks. -/
def states? (b : BareTable) : Pipeline → Option (List BareTable)
  | [] => some []
  | step :: rest => do
    let next ← b.change? step.operation.change
    return next :: (← next.states? rest)

end BareTable

/-! ## Columns of a table -/

namespace BareTable

theorem updateFirst_eq_map {columns : List Column} (h : (columns.map (·.name)).Nodup)
    (name : String) (f : Column → Column) :
    updateFirst name f columns = columns.map fun c => if c.name = name then f c else c := by
  induction columns with
  | nil => rfl
  | cons c rest ih =>
    simp only [List.map_cons, List.nodup_cons, List.mem_map, not_exists, not_and] at h
    rw [updateFirst, List.map_cons]
    split
    · rename_i hc
      -- The names after the first match differ from it, so the map leaves them alone.
      have hrest : ∀ d ∈ rest, (if d.name = name then f d else d) = d := by
        intro d hd
        rw [if_neg]
        intro hn
        exact h.1 d hd (hn.trans hc.symm)
      rw [List.map_congr_left hrest, List.map_id'']
      simp
    · rw [ih h.2]

theorem eraseP_eq_filter {columns : List Column} (h : (columns.map (·.name)).Nodup)
    (name : String) :
    columns.eraseP (·.name == name) = columns.filter (·.name ≠ name) := by
  induction columns with
  | nil => rfl
  | cons c rest ih =>
    simp only [List.map_cons, List.nodup_cons, List.mem_map, not_exists, not_and] at h
    by_cases hc : c.name = name
    · have hrest : ∀ d ∈ rest, d.name ≠ name := by
        intro d hd hn
        exact h.1 d hd (hn.trans hc.symm)
      simp only [List.eraseP_cons, List.filter_cons, hc]
      simpa using (List.filter_eq_self.mpr (by simpa using hrest)).symm
    · rw [List.eraseP_cons_of_neg (by simpa using hc), List.filter_cons_of_pos (by simpa using hc),
        ih h.2]

theorem valid_bare (t : Table) : t.bare.Valid := ⟨t.names_nodup, t.length_cells⟩

theorem position?_isSome_iff (b : BareTable) (name : String) :
    (b.position? name).isSome ↔ ∃ c ∈ b.columns, c.name = name := by
  unfold position?
  rw [List.findIdx?_isSome]
  simp

theorem remove_bare (t : Table) (name : String) : t.bare.remove name = (t.dropColumn name).bare := by
  unfold remove Table.bare Table.dropColumn
  rw [eraseP_eq_filter t.names_nodup]

theorem update_cells_bare (t : Table) (name : String) (f : Cell → Cell) :
    t.bare.update name (fun c => { c with cells := c.cells.map f }) = (t.mapCells name f).bare := by
  unfold update Table.bare Table.mapCells
  rw [updateFirst_eq_map t.names_nodup]

theorem set?_bare (t : Table) (c : Column) (h : c.cells.length = t.height) :
    t.bare.set? c = some (t.setColumn c h).bare := by
  unfold set? Table.setColumn
  split
  · rename_i he
    have hnil : t.columns = [] := by simpa [Table.bare] using he
    simp [Table.bare, Table.names, hnil, h]
  · rw [if_neg (by simpa [Table.bare] using h)]
    have hmem : (t.bare.position? c.name).isSome ↔ c.name ∈ t.names := by
      rw [position?_isSome_iff]
      simp [Table.names, Table.bare]
    split
    · rename_i hp
      rw [update, Table.bare, updateFirst_eq_map t.names_nodup]
      simp [Table.bare, hmem.mp hp]
    · rename_i hp
      simp [Table.bare, mt hmem.mpr hp]

theorem rename_bare (t : Table) (source target : String) :
    t.bare.rename source target = (t.renameColumn source target).bare := by
  have hnone : t.bare.position? source = none ↔ t.hasColumn source = false := by
    rw [← Option.not_isSome_iff_eq_none, position?_isSome_iff, Table.hasColumn, Table.column?,
      ← Bool.not_eq_true, List.find?_isSome]
    simp [Table.bare]
  unfold rename Table.renameColumn
  simp only [hnone]
  split
  · rfl
  · rw [remove_bare, update]
    simp only [Table.bare]
    rw [updateFirst_eq_map (t.dropColumn target).names_nodup]

end BareTable

/-! ## Rows of a table -/

theorem mapM_some {α β : Type} {f : α → Option β} {g : α → β} {l : List α}
    (h : ∀ a ∈ l, f a = some (g a)) : l.mapM f = some (l.map g) := by
  induction l with
  | nil => rfl
  | cons a l ih =>
    rw [List.mapM_cons, h a List.mem_cons_self, ih fun b hb => h b (List.mem_cons_of_mem a hb)]
    rfl

theorem mapM_eq_none {α β : Type} {f : α → Option β} {l : List α} {a : α} (ha : a ∈ l)
    (h : f a = none) : l.mapM f = none := by
  induction l with
  | nil => cases ha
  | cons b l ih =>
    rw [List.mapM_cons]
    rcases List.mem_cons.mp ha with rfl | ha
    · rw [h]
      rfl
    · rw [ih ha]
      cases f b <;> rfl

theorem exists_of_mem_mapM {α β : Type} {f : α → Option β} {l : List α} {r : List β}
    (h : l.mapM f = some r) : ∀ b ∈ r, ∃ a ∈ l, f a = some b := by
  induction l generalizing r with
  | nil =>
    cases h
    simp
  | cons a l ih =>
    rw [List.mapM_cons] at h
    obtain ⟨b, hb, h⟩ := Option.bind_eq_some_iff.mp h
    obtain ⟨r', hr', h⟩ := Option.bind_eq_some_iff.mp h
    cases h
    intro c hc
    rcases List.mem_cons.mp hc with rfl | hc
    · exact ⟨a, List.mem_cons_self, hb⟩
    · obtain ⟨d, hd, he⟩ := ih hr' c hc
      exact ⟨d, List.mem_cons_of_mem a hd, he⟩

namespace BareTable

variable {t : Table} {i : Nat}

theorem cell_eq {c : Column} (hc : c ∈ t.columns) (hi : i < t.height) :
    c.cells[i]? = some (c.cells.getD i .null) := by
  have hlt : i < c.cells.length := by rw [t.length_cells c hc]; exact hi
  simp [List.getD_eq_getElem?_getD, List.getElem?_eq_getElem hlt]

theorem row?_bare (hi : i < t.height) :
    t.bare.row? i = some (t.columns.map (·.cells.getD i .null)) :=
  mapM_some fun _ hc => cell_eq hc hi

theorem records?_bare (t : Table) : t.bare.records? = some t.records := by
  apply mapM_some
  intro i hi
  rw [mapM_some (g := fun c => (c.name, (c.cells.getD i .null).toJson))]
  · rfl
  · intro c hc
    rw [cell_eq hc (List.mem_range.mp hi)]
    rfl

theorem lt_of_mem_comparedPositions? {subset : List String} {positions : List Nat}
    (h : t.comparedPositions? subset = some positions) : ∀ p ∈ positions, p < t.columns.length := by
  intro p hp
  unfold Table.comparedPositions? at h
  split at h
  · cases h
    simpa [Table.width] using hp
  · obtain ⟨name, -, hname⟩ := exists_of_mem_mapM h p hp
    exact (List.findIdx?_eq_some_iff_getElem.mp hname).1

theorem rowKeys?_bare {positions : List Nat} (h : ∀ p ∈ positions, p < t.columns.length) :
    (List.range t.height).mapM (t.bare.rowKey? positions) = some (t.rowKeys positions) := by
  apply mapM_some
  intro row hrow
  apply mapM_some
  intro p hp
  have hlt := h p hp
  have hc : t.columns[p]? = some t.columns[p] := List.getElem?_eq_getElem hlt
  have hcell := cell_eq (List.getElem_mem hlt) (List.mem_range.mp hrow)
  simp only [Table.bare, hc, Option.bind_some, hcell, Option.map_some, Option.getD_some]

theorem keepRows_bare (flags : List Bool) (h : flags.length = t.height) :
    t.bare.keepRows flags = (t.keepRows flags h).bare := by
  unfold keepRows Table.bare Table.keepRows
  rw [List.take_of_length_le (Nat.le_of_eq h)]

theorem pick_all {α : Type} {flags : List Bool} {l : List α} (hl : flags.length = l.length)
    (h : ∀ f ∈ flags, f = true) : Table.pick flags l = l := by
  induction flags generalizing l with
  | nil => cases l <;> simp_all [Table.pick]
  | cons f flags ih =>
    cases l with
    | nil => simp at hl
    | cons a l =>
      rw [h f List.mem_cons_self, Table.pick, ih (by simpa using hl)]
      exact fun g hg => h g (List.mem_cons_of_mem f hg)

theorem keepRows_all (flags : List Bool) (hl : flags.length = t.height)
    (h : ∀ f ∈ flags, f = true) : t.keepRows flags hl = t := by
  apply Table.ext
  · have hcells : ∀ c ∈ t.columns, ({ c with cells := Table.pick flags c.cells } : Column) = c := by
      intro c hc
      rw [pick_all (by rw [hl, t.length_cells c hc]) h]
    exact (List.map_congr_left hcells).trans (List.map_id' _)
  · have hcount : flags.count true = flags.length := by
      rw [List.count_eq_length]
      exact fun f hf => (h f hf).symm
    exact hcount.trans hl

theorem select?_bare (t : Table) (subset : List String) :
    t.bare.select? subset = some (t.removeDuplicateRows subset).bare := by
  have hpos : t.bare.comparedPositions? subset = t.comparedPositions? subset := rfl
  have hheight : t.bare.height = t.height := rfl
  unfold select? Table.removeDuplicateRows
  rw [hpos]
  cases hsub : t.comparedPositions? subset with
  | none => rfl
  | some positions =>
    dsimp only
    rw [hheight, rowKeys?_bare (lt_of_mem_comparedPositions? hsub), Option.map_some]
    split
    · rename_i hall
      rw [keepRows_all]
      simpa using hall
    · rw [keepRows_bare]

/-! ## Operations on a table -/

theorem setIndicators?_bare (t : Table) (column : String) (keys : List (Option String))
    (h : keys.length = t.height) (categories : List String) :
    setIndicators? column keys t.bare categories =
      some (t.setIndicators column keys h categories).bare := by
  induction categories generalizing t with
  | nil => rfl
  | cons k rest ih =>
    rw [setIndicators?, List.foldlM_cons, set?_bare t _ (by simpa using h)]
    exact ih (t.setColumn _ _) h

theorem encode?_bare (t : Table) (column : String) :
    t.bare.encode? column = some (t.oneHotEncode column).bare := by
  have hcells : t.bare.cells? column = t.cells? column := rfl
  unfold encode? Table.oneHotEncode
  rw [hcells]
  split
  · rename_i hnone
    split
    · rfl
    · simp_all
  · rename_i cells hsome
    split
    · simp_all
    · rename_i cells' hsome'
      obtain rfl : cells = cells' := by simpa [hsome] using hsome'
      rw [remove_bare, setIndicators?_bare]

theorem derive_bare (t : Table) (source target : String) (f : List Cell → List Cell)
    (hf : ∀ cells, (f cells).length = cells.length) :
    t.bare.change? (.derive source target f hf) = some (t.derive source target f hf).bare := by
  have hcells : t.bare.cells? source = t.cells? source := rfl
  unfold change? Table.derive
  simp only [hcells]
  split
  · rename_i hnone
    split
    · rfl
    · simp_all
  · rename_i cells hsome
    split
    · simp_all
    · rename_i cells' hsome'
      obtain rfl : cells = cells' := by simpa [hsome] using hsome'
      exact set?_bare t _ _

theorem change?_bare (t : Table) (ch : Change) : t.bare.change? ch = some (ch.apply t).bare := by
  cases ch with
  | keep => rfl
  | drop column =>
    simp only [change?, Change.apply, remove_bare]
    split <;> rfl
  | rename source target =>
    simp only [change?, Change.apply, rename_bare]
    split <;> rfl
  | map column f =>
    have hcells : t.bare.cells? column = t.cells? column := rfl
    simp only [change?, Change.apply, Table.mapColumn, hcells]
    cases t.cells? column with
    | none => rfl
    | some cells => exact congrArg some (update_cells_bare t column (f cells))
  | derive source target f hf => exact derive_bare t source target f hf
  | encode column => exact encode?_bare t column
  | select subset => exact select?_bare t subset

theorem states?_bare (t : Table) (steps : Pipeline) :
    t.bare.states? steps = some ((Pipeline.states t steps).map Table.bare) := by
  induction steps generalizing t with
  | nil => rfl
  | cons step rest ih =>
    rw [states?, change?_bare, ← Operation.apply_eq]
    have hrest := ih (step.apply t)
    rw [Step.apply] at hrest
    simp [hrest, Pipeline.states, Step.apply]

end BareTable

/-! ## Valid tables -/

namespace BareTable

theorem Valid.exists_bare {b : BareTable} (h : b.Valid) : ∃ t : Table, t.bare = b :=
  ⟨⟨b.columns, b.height, h.1, h.2⟩, rfl⟩

/-- What one change preserves: it passes its checks and leaves a valid table. -/
theorem Valid.change? {b : BareTable} (h : b.Valid) (ch : Change) :
    ∃ next, b.change? ch = some next ∧ next.Valid := by
  obtain ⟨t, rfl⟩ := h.exists_bare
  exact ⟨_, change?_bare t ch, valid_bare _⟩

theorem Valid.states? {b : BareTable} {steps : Pipeline} {states : List BareTable} (h : b.Valid)
    (hs : b.states? steps = some states) : ∀ s ∈ states, s.Valid := by
  induction steps generalizing b states with
  | nil =>
    cases hs
    simp
  | cons step rest ih =>
    obtain ⟨next, hnext, hv⟩ := h.change? step.operation.change
    rw [BareTable.states?, hnext] at hs
    obtain ⟨later, hlater, hs⟩ := Option.bind_eq_some_iff.mp
      ((Option.bind_some ..).symm.trans hs)
    cases hs
    intro s hmem
    rcases List.mem_cons.mp hmem with rfl | hmem
    · exact hv
    · exact ih hv hlater s hmem

theorem Valid.row?_isSome {b : BareTable} {i : Nat} (h : b.Valid) (hi : i < b.height) :
    (b.row? i).isSome := by
  obtain ⟨t, rfl⟩ := h.exists_bare
  rw [row?_bare hi]
  rfl

theorem Valid.records?_isSome {b : BareTable} (h : b.Valid) : b.records?.isSome := by
  obtain ⟨t, rfl⟩ := h.exists_bare
  rw [records?_bare]
  rfl

end BareTable

/-! ## From columns to a run -/

namespace Table

theorem ofColumns?_eq_ok_iff {columns : List Column} {t : Table} :
    ofColumns? columns = .ok t ↔ t.columns = columns ∧ t.height = heightOf columns := by
  unfold ofColumns?
  split
  · rename_i e he
    -- The columns of a table have no fault.
    have hnone : t.columns = columns → t.height = heightOf columns → False := by
      rintro rfl hh
      have := fault?_eq_none_iff.mpr
        ⟨fun c hc => (t.length_cells c hc).trans hh, t.names_nodup, fun _ _ => List.not_mem_nil⟩
      rw [this] at he
      cases he
    simpa using hnone
  · rename_i hnone
    rw [Except.ok.injEq]
    constructor
    · rintro rfl
      exact ⟨rfl, rfl⟩
    · rintro ⟨hc, hh⟩
      exact Table.ext hc.symm hh.symm

theorem length_eq_heightOf_iff (columns : List Column) :
    (∀ c ∈ columns, c.cells.length = heightOf columns) ↔
      ∀ c ∈ columns, ∀ d ∈ columns, c.cells.length = d.cells.length := by
  constructor
  · intro h c hc d hd
    rw [h c hc, h d hd]
  · intro h c hc
    cases columns with
    | nil => simp at hc
    | cons first rest => exact h c hc first List.mem_cons_self

theorem ofColumns?_isOk_iff (columns : List Column) :
    (∃ t, ofColumns? columns = .ok t) ↔
      (∀ c ∈ columns, ∀ d ∈ columns, c.cells.length = d.cells.length) ∧
        (columns.map (·.name)).Nodup := by
  rw [← length_eq_heightOf_iff]
  constructor
  · rintro ⟨t, ht⟩
    obtain ⟨rfl, hh⟩ := ofColumns?_eq_ok_iff.mp ht
    exact ⟨fun c hc => (t.length_cells c hc).trans hh, t.names_nodup⟩
  · rintro ⟨hl, hn⟩
    exact ⟨⟨columns, heightOf columns, hn, hl⟩, ofColumns?_eq_ok_iff.mpr ⟨rfl, rfl⟩⟩

end Table

/-- **No check fails.** Columns make a table exactly if they are equally long and their names
differ. From such columns a run passes all checks, whatever its steps are. It goes through the
tables of the run without checks, each of them is valid, and each has all rows that its height
promises. -/
theorem run_of_columns (columns : List Column) :
    ((∃ t, Table.ofColumns? columns = .ok t) ↔
      (∀ c ∈ columns, ∀ d ∈ columns, c.cells.length = d.cells.length) ∧
        (columns.map (·.name)).Nodup) ∧
    ∀ t, Table.ofColumns? columns = .ok t → t.bare = ⟨columns, Table.heightOf columns⟩ ∧
      ∀ steps : Pipeline, ∃ states, t.bare.states? steps = some states ∧
        states = (Pipeline.states t steps).map Table.bare ∧
        ∀ b ∈ t.bare :: states, b.Valid ∧ b.records?.isSome ∧ ∀ i < b.height, (b.row? i).isSome := by
  refine ⟨Table.ofColumns?_isOk_iff columns, ?_⟩
  intro t ht
  obtain ⟨hc, hh⟩ := Table.ofColumns?_eq_ok_iff.mp ht
  refine ⟨by rw [Table.bare, hc, hh], ?_⟩
  intro steps
  refine ⟨_, BareTable.states?_bare t steps, rfl, ?_⟩
  intro b hb
  have hv : b.Valid := by
    rcases List.mem_cons.mp hb with rfl | hb
    · exact BareTable.valid_bare t
    · exact (BareTable.valid_bare t).states? (BareTable.states?_bare t steps) b hb
  exact ⟨hv, hv.records?_isSome, fun i hi => hv.row?_isSome hi⟩

/-- A run that writes over a column, loses its last column and then compares empty rows. -/
theorem run_of_columns_collision :
    ∃ t, Table.ofColumns? [⟨"a", [.int 1, .null]⟩, ⟨"a_1", [.null, .null]⟩] = .ok t ∧
      ∃ states,
        t.bare.states? [⟨.oneHotEncode "a", .empty⟩, ⟨.dropColumn "a_1", .empty⟩,
          ⟨.removeDuplicateRows [], .empty⟩] = some states ∧
        states.map (fun b => (b.columns.length, b.height)) = [(1, 2), (0, 2), (0, 1)] ∧
        ∀ b ∈ states, b.Valid := by
  have ht : Table.ofColumns? [⟨"a", [.int 1, .null]⟩, ⟨"a_1", [.null, .null]⟩] =
      .ok ⟨[⟨"a", [.int 1, .null]⟩, ⟨"a_1", [.null, .null]⟩], 2, by decide, by decide⟩ := by
    rfl
  obtain ⟨-, hrun⟩ := (run_of_columns _).2 _ ht
  obtain ⟨states, hstates, hmap, hvalid⟩ := hrun [⟨.oneHotEncode "a", .empty⟩,
    ⟨.dropColumn "a_1", .empty⟩, ⟨.removeDuplicateRows [], .empty⟩]
  refine ⟨_, ht, states, hstates, ?_, fun b hb => (hvalid b (List.mem_cons_of_mem _ hb)).1⟩
  rw [hmap]
  decide +kernel

end TableCleaner
