import TableCleaner.Proofs.Step.Idle
import TableCleaner.Proofs.Table.Duplicates

/-!
# Lists of columns to compare

A record can name the columns in which duplicate rows are looked for. Elements of the list that are
no names are left out, so a record with a faulty element still removes rows: by the other columns,
or by all of them when none is left. It removes nothing if a name is left that no column has, or if
no two rows agree in the columns that are left.
-/

namespace TableCleaner

/-! ## Rows that differ -/

namespace Table

/-- No two rows have the same keys in the columns that are compared for a list of names. -/
def RowsDiffer (t : Table) (subset : List String) : Prop :=
  ∀ i j, i < j → j < t.height → ∃ name ∈ t.comparedNames subset,
    (t.cell? name i).map Cell.key ≠ (t.cell? name j).map Cell.key

variable {t : Table} {subset : List String} {positions : List Nat}

theorem mem_names_of_compared (h : t.comparedPositions? subset = some positions) {name : String}
    (hname : name ∈ t.comparedNames subset) : name ∈ t.names := by
  unfold comparedNames at hname
  unfold comparedPositions? at h
  split at hname
  · exact hname
  · rename_i hempty
    rw [if_neg hempty] at h
    by_contra habsent
    rw [mapM_eq_none hname (position?_eq_none habsent)] at h
    simp at h

theorem key_at_position {name : String} {p row : Nat} (hp : t.position? name = some p)
    (hrow : row < t.height) :
    (t.cell? name row).map Cell.key =
      some ((t.columns[p]?.bind (·.cells[row]?)).getD .null).key := by
  obtain ⟨c, hc, rfl⟩ := position?_eq_some_iff.mp hp
  have hmem := List.mem_of_getElem? hc
  have hlt : row < c.cells.length := by rwa [t.length_cells c hmem]
  have hcell : c.cells[row]? = some c.cells[row] := List.getElem?_eq_getElem hlt
  rw [cell?, column?_of_mem hmem, hc]
  simp only [Option.bind_some, hcell]
  rfl

theorem rowKey_eq_iff (h : t.comparedPositions? subset = some positions) {i j : Nat}
    (hi : i < t.height) (hj : j < t.height) :
    t.rowKey positions i = t.rowKey positions j ↔ ∀ name ∈ t.comparedNames subset,
      (t.cell? name i).map Cell.key = (t.cell? name j).map Cell.key := by
  unfold rowKey
  rw [List.map_inj_left]
  constructor
  · intro hall name hname
    obtain ⟨c, hc⟩ := Option.isSome_iff_exists.mp
      (column?_isSome_iff.mpr (mem_names_of_compared h hname))
    obtain ⟨p, hp, -⟩ := exists_position? hc
    rw [key_at_position hp hi, key_at_position hp hj,
      hall p ((mem_positions_iff h).mpr ⟨name, hname, hp⟩)]
  · intro hall p hp
    obtain ⟨name, hname, hposition⟩ := (mem_positions_iff h).mp hp
    have hkeys := hall name hname
    rwa [key_at_position hposition hi, key_at_position hposition hj, Option.some.injEq] at hkeys

theorem nodup_rowKeys_iff (h : t.comparedPositions? subset = some positions) :
    (t.rowKeys positions).Nodup ↔ t.RowsDiffer subset := by
  have hlength : (t.rowKeys positions).length = t.height := by simp [rowKeys]
  rw [List.nodup_iff_getElem?_ne_getElem?, RowsDiffer, hlength]
  refine forall₂_congr fun i j => forall₂_congr fun hij hj => ?_
  have hi : i < t.height := Nat.lt_trans hij hj
  rw [rowKeys_eq, List.getElem?_map, List.getElem?_map, List.getElem?_range hi,
    List.getElem?_range hj, Option.map_some, Option.map_some, ne_eq, Option.some.injEq,
    rowKey_eq_iff h hi hj]
  simp

theorem removeDuplicateRows_eq_self_iff (h : ∀ name ∈ subset, name ∈ t.names) :
    t.removeDuplicateRows subset = t ↔ t.RowsDiffer subset := by
  obtain ⟨positions, hpositions⟩ := exists_positions h
  rw [← nodup_rowKeys_iff hpositions]
  constructor
  · intro hself
    have hnodup := t.nodup_rowKeys_removeDuplicateRows hpositions
    rwa [hself] at hnodup
  · exact t.removeDuplicateRows_of_nodup hpositions

end Table

/-! ## Lists with faulty elements -/

namespace Json

theorem mem_nameTexts_array {items : List Json} {name : String} :
    name ∈ (array items).nameTexts ↔ name ≠ "" ∧ ∃ v ∈ items, v.nameText = name := by
  simp [nameTexts, and_comm]

end Json

namespace Pipeline

/-- **When a list of columns removes nothing.** A record asks for the removal of duplicate rows by a
list, in which elements may be faulty. The table is left as it is exactly if an element is a name
that no column has, or if no two rows agree in the columns that the elements name; where no element
is a name, all columns count. -/
theorem runRecords_compared_eq_self_iff {t : Table} {v : Json} {r : Record} {items : List Json}
    (hasks : v.Asks .removeDuplicateRows r) (hlist : r.first? Group.subset = some (.array items)) :
    runRecords t [v] = t ↔
      (∃ w ∈ items, w.nameText ≠ "" ∧ w.nameText ∉ t.names) ∨
        t.RowsDiffer (Json.array items).nameTexts := by
  have hrun : runRecords t [v] = t.removeDuplicateRows (Json.array items).nameTexts := by
    rw [runRecords, List.map_singleton, run_cons, run_nil, Step.apply,
      Step.operation_ofJson hasks, Kind.read, Record.namesOf, hlist]
    rfl
  rw [hrun]
  by_cases habsent : ∃ w ∈ items, w.nameText ≠ "" ∧ w.nameText ∉ t.names
  · obtain ⟨w, hw, hname, hnot⟩ := habsent
    have hmem := Json.mem_nameTexts_array.mpr ⟨hname, w, hw, rfl⟩
    exact iff_of_true (Table.removeDuplicateRows_of_not_mem hmem hnot) (.inl ⟨w, hw, hname, hnot⟩)
  · rw [or_iff_right habsent]
    apply Table.removeDuplicateRows_eq_self_iff
    intro name hname
    obtain ⟨hne, w, hw, rfl⟩ := Json.mem_nameTexts_array.mp hname
    by_contra hnot
    exact habsent ⟨w, hw, hne, hnot⟩

theorem runRecords_compared_eq_self_ghost :
    ∃ t : Table, t.columns = [⟨"70", [.int 1, .int 1]⟩, ⟨"b", [.text "x", .text "y"]⟩] ∧
      ∃ r, (Json.object [("op", .text "remove_duplicates"),
          ("by", .array [.null, .int 70, .text "ghost"])]).Asks .removeDuplicateRows r ∧
        r.first? Group.subset = some (.array [.null, .int 70, .text "ghost"]) ∧
        runRecords t [.object [("op", .text "remove_duplicates"),
          ("by", .array [.null, .int 70, .text "ghost"])]] = t ∧
        runRecords t [.object [("op", .text "remove_duplicates"),
          ("by", .array [.null, .int 70])]] ≠ t := by
  let t : Table := ⟨[⟨"70", [.int 1, .int 1]⟩, ⟨"b", [.text "x", .text "y"]⟩], 2, by decide,
    by decide⟩
  let r := Record.ofEntries [("op", .text "remove_duplicates"),
    ("by", .array [.null, .int 70, .text "ghost"])]
  have hasks : (Json.object [("op", .text "remove_duplicates"),
      ("by", .array [.null, .int 70, .text "ghost"])]).Asks .removeDuplicateRows r :=
    ⟨rfl, "remove_duplicates", by decide +kernel, by decide +kernel⟩
  have hlist : r.first? Group.subset = some (.array [.null, .int 70, .text "ghost"]) := by
    decide +kernel
  refine ⟨t, rfl, r, hasks, hlist, ?_, by decide +kernel⟩
  exact (runRecords_compared_eq_self_iff hasks hlist).mpr
    (.inl ⟨.text "ghost", by simp, by decide, by decide⟩)

/-- A list that holds the empty text names only one column by its other element, and a row goes that
differs from the one before it. -/
theorem runRecords_compared_empty_name :
    ∃ t : Table, t.columns = [⟨"a", [.int 1, .int 1]⟩, ⟨"b", [.text "x", .text "y"]⟩] ∧
      ∃ r, (Json.object [("op", .text "remove_duplicate_rows"),
          ("columns", .array [.text "a", .text ""])]).Asks .removeDuplicateRows r ∧
        r.first? Group.subset = some (.array [.text "a", .text ""]) ∧
        (Json.text "").nameText ∉ t.names ∧
        runRecords t [.object [("op", .text "remove_duplicate_rows"),
          ("columns", .array [.text "a", .text ""])]] ≠ t := by
  let t : Table := ⟨[⟨"a", [.int 1, .int 1]⟩, ⟨"b", [.text "x", .text "y"]⟩], 2, by decide,
    by decide⟩
  let r := Record.ofEntries [("op", .text "remove_duplicate_rows"),
    ("columns", .array [.text "a", .text ""])]
  exact ⟨t, rfl, r, ⟨rfl, "remove_duplicate_rows", by decide +kernel, by decide +kernel⟩,
    by decide +kernel, by decide, by decide +kernel⟩

end Pipeline

end TableCleaner
