import TableCleaner.Proofs.Operation.Mode

/-!
# Filled columns

An imputation changes nothing, or it puts one value in the place of all empty cells of its column.
The empty name names no column, so a column of that name is never filled.
-/

namespace TableCleaner

theorem Cell.isNull_iff {c : Cell} : c.isNull = true ↔ c = .null := by
  cases c <;> simp [isNull]

namespace Table

variable {t r : Table} {name : String} {c : Column} {f : Cell → Cell} {fill : Cell}

/-! ## Changes of one column -/

theorem mapColumn_of_mem (hc : c ∈ t.columns) (hname : c.name ≠ "") (f : List Cell → Cell → Cell) :
    t.mapColumn c.name f = t.mapCells c.name (f c.cells) := by
  rw [mapColumn, cells?_of_mem hc hname]

theorem mapCells_eq_self_iff (hc : c ∈ t.columns) (hname : c.name ≠ "") :
    t.mapCells c.name f = t ↔ ∀ d ∈ c.cells, f d = d := by
  constructor
  · intro hsame
    have hcells := t.cells?_mapCells c.name f
    rw [hsame, cells?_of_mem hc hname, Option.map_some, Option.some_inj] at hcells
    exact List.map_inj_left.mp (hcells.symm.trans (List.map_id c.cells).symm)
  · intro hid
    exact (mapCells_congr (cells?_of_mem hc hname) hid).trans (t.mapCells_id c.name)

theorem exists_of_mem_mapCells {d : Cell} (hc : c ∈ (t.mapCells name f).columns)
    (hname : c.name = name) (hd : d ∈ c.cells) : ∃ e, f e = d := by
  rw [columns_mapCells] at hc
  obtain ⟨b, -, rfl⟩ := List.mem_map.mp hc
  rw [Column.name_mapCells] at hname
  rw [Column.mapCells, if_pos hname] at hd
  obtain ⟨e, -, he⟩ := List.mem_map.mp hd
  exact ⟨e, he⟩

/-! ## Filled tables -/

/-- One value stands in the place of the empty cells of a column, and nothing else is changed. -/
structure IsFilled (t : Table) (name : String) (fill : Cell) (r : Table) : Prop where
  notNull : fill ≠ .null
  height : r.height = t.height
  columns : r.columns = t.columns.map (Column.mapCells name fun d => if d = .null then fill else d)
  full : ∀ c ∈ r.columns, c.name = name → Cell.null ∉ c.cells

theorem isFilled_mapCells (name : String) (hfill : fill ≠ .null) :
    t.IsFilled name fill (t.mapCells name fun d => if d.isNull then fill else d) := by
  refine ⟨hfill, rfl, ?_, fun c hc hname hnull => ?_⟩
  · simp only [columns_mapCells, Cell.isNull_iff]
  · obtain ⟨e, he⟩ := exists_of_mem_mapCells hc hname hnull
    simp only [Cell.isNull_iff] at he
    split at he
    · exact hfill he
    · contradiction

end Table

namespace Operation

variable {t : Table} {c : Column} {value : Option Json}

theorem impute_fills_or_keeps (t : Table) (name : String) (strategy : Option ImputeStrategy)
    (value : Option Json) : (impute name strategy value).apply t = t ∨
      ∃ fill, t.IsFilled name fill ((impute name strategy value).apply t) := by
  rw [apply, t.impute_eq, Table.mapColumn]
  cases t.cells? name with
  | none => exact .inl rfl
  | some cells =>
    dsimp only
    rcases fillCell_cases strategy value cells with hkeep | ⟨fill, hfill, heq⟩
    · exact .inl (by rw [hkeep, t.mapCells_id])
    · rw [← Bool.not_eq_true, Cell.isNull_iff] at hfill
      exact .inr ⟨fill, by rw [heq]; exact Table.isFilled_mapCells name hfill⟩

theorem impute_of_fill? (hc : c ∈ t.columns) (hname : c.name ≠ "") (strategy : ImputeStrategy)
    {fill : Cell} (hfill : Table.fill? c.cells value strategy = some fill) :
    (impute c.name (some strategy) value).apply t =
      if fill = .null then t else t.mapCells c.name fun d => if d.isNull then fill else d := by
  have hcell : fillCell (some strategy) value c.cells =
      if fill = .null then id else fun d => if d.isNull then fill else d := by
    rw [fillCell, Option.bind_some, hfill]
    simp only [Cell.isNull_iff]
  rw [apply, t.impute_eq, Table.mapColumn_of_mem hc hname, hcell]
  split
  · exact t.mapCells_id c.name
  · rfl

theorem impute_of_fill?_none (hc : c ∈ t.columns) (hname : c.name ≠ "")
    (strategy : ImputeStrategy) (hfill : Table.fill? c.cells value strategy = none) :
    (impute c.name (some strategy) value).apply t = t := by
  rw [apply, t.impute_eq, Table.mapColumn_of_mem hc hname, fillCell, Option.bind_some, hfill]
  exact t.mapCells_id c.name

/-! ## Filled with the most frequent value -/

theorem impute_mode_isFilled (hc : c ∈ t.columns) (hname : c.name ≠ "") {fill : Cell}
    (hmode : Table.mode? c.cells = some fill) :
    t.IsFilled c.name fill ((impute c.name (some .mode) value).apply t) := by
  have hfill := (isMode_of_mode? hmode).notNull
  rw [impute_of_fill? hc hname .mode hmode, if_neg hfill]
  exact Table.isFilled_mapCells c.name hfill

theorem impute_mode_eq_self_iff (hc : c ∈ t.columns) (hname : c.name ≠ "") :
    (impute c.name (some .mode) value).apply t = t ↔
      Cell.null ∉ c.cells ∨ ∀ d ∈ c.cells, d = .null := by
  cases hmode : Table.mode? c.cells with
  | none =>
    exact iff_of_true (impute_of_fill?_none hc hname .mode hmode)
      (.inr (mode?_eq_none_iff.mp hmode))
  | some fill =>
    have hfill := (isMode_of_mode? hmode).notNull
    have hsome : ¬∀ d ∈ c.cells, d = .null := by
      rw [← mode?_eq_none_iff, hmode]
      exact Option.some_ne_none fill
    rw [impute_of_fill? hc hname .mode hmode, if_neg hfill, Table.mapCells_eq_self_iff hc hname,
      or_iff_left hsome]
    constructor
    · intro hsame hnull
      exact hfill (hsame .null hnull)
    · intro hnull d hd
      rw [if_neg]
      rw [Cell.isNull_iff]
      rintro rfl
      exact hnull hd

end Operation

/-- **Empty cells get one value.** An imputation changes nothing, or it puts one value in the place
of all empty cells of its column, and none is left. The most frequent value is the first cell with
the key that most cells have, and of several such keys the one that is met first, in whatever order
the counted keys are looked through; it changes a column unless no cell is empty or all are. A given
value is put in as the cell that it stands for. -/
theorem Operation.impute_fills (t : Table) (name : String) :
    (∀ strategy value, (impute name strategy value).apply t = t ∨
      ∃ fill, t.IsFilled name fill ((impute name strategy value).apply t)) ∧
    ∀ c ∈ t.columns, c.name = name → name ≠ "" →
      (∀ value,
        ((impute name (some .mode) value).apply t = t ↔
          Cell.null ∉ c.cells ∨ ∀ d ∈ c.cells, d = .null) ∧
        ((∃ d ∈ c.cells, d ≠ .null) → ∀ order, order.Perm (Tally.ofCells c.cells) →
          ∃ fill, Tally.modeOf? order c.cells = some fill ∧ IsMode c.cells fill ∧
            t.IsFilled name fill ((impute name (some .mode) value).apply t))) ∧
      ∀ v, if Cell.ofJson v = .null then (impute name (some .custom) (some v)).apply t = t
        else t.IsFilled name (Cell.ofJson v) ((impute name (some .custom) (some v)).apply t) := by
  refine ⟨impute_fills_or_keeps t name, ?_⟩
  rintro c hc rfl hname
  refine ⟨fun value => ⟨impute_mode_eq_self_iff hc hname, ?_⟩, fun v => ?_⟩
  · rintro ⟨d, hd, hnull⟩ order hperm
    obtain ⟨fill, hmode⟩ := Option.ne_none_iff_exists'.mp
      (mt mode?_eq_none_iff.mp fun hall => hnull (hall d hd))
    exact ⟨fill, (Tally.modeOf?_eq hperm).trans hmode, isMode_of_mode? hmode,
      impute_mode_isFilled hc hname hmode⟩
  · rw [impute_of_fill? hc hname .custom rfl]
    split
    · rfl
    · exact Table.isFilled_mapCells c.name ‹_›

/-- A text and an integer have one key, and two keys are met as often. The counts are looked through
from the last key to the first. -/
theorem Operation.impute_fills_tie :
    let c : Column := ⟨"c", [.null, .text "1", .text "b", .int 1, .text "b", .null]⟩
    let t : Table := ⟨[c], 6, by decide, by decide⟩
    c ∈ t.columns ∧ "c" ≠ "" ∧ (∃ d ∈ c.cells, d ≠ .null) ∧
      [⟨"b", 2, 2⟩, ⟨"1", 2, 1⟩].Perm (Tally.ofCells c.cells) ∧ IsMode c.cells (.text "1") ∧
      t.IsFilled "c" (.text "1") ((impute "c" (some .mode) none).apply t) ∧
      t.IsFilled "c" (.bool true) ((impute "c" (some .custom) (some (.bool true))).apply t) := by
  intro c t
  have hperm : [⟨"b", 2, 2⟩, ⟨"1", 2, 1⟩].Perm (Tally.ofCells c.cells) := by decide +kernel
  have hsome : ∃ d ∈ c.cells, d ≠ .null := ⟨.text "1", by decide, by decide⟩
  have hfound : Tally.modeOf? [⟨"b", 2, 2⟩, ⟨"1", 2, 1⟩] c.cells = some (.text "1") := by decide
  obtain ⟨hmode, hcustom⟩ := (impute_fills t "c").2 c List.mem_cons_self rfl (by decide)
  obtain ⟨fill, horder, htop, hfilled⟩ := (hmode none).2 hsome _ hperm
  obtain rfl := Option.some.inj (hfound.symm.trans horder)
  exact ⟨List.mem_cons_self, by decide, hsome, hperm, htop, hfilled, hcustom (.bool true)⟩

/-- The empty name names no column, so the empty cell of a column with this name is not filled. -/
theorem Operation.impute_empty_name :
    let c : Column := ⟨"", [.null, .text "x"]⟩
    let t : Table := ⟨[c], 2, by decide, by decide⟩
    c ∈ t.columns ∧ (impute c.name (some .mode) none).apply t = t ∧
      ¬(Cell.null ∉ c.cells ∨ ∀ d ∈ c.cells, d = .null) := by
  decide

end TableCleaner
