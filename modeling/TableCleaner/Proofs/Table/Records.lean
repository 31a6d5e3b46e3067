import TableCleaner.Proofs.Operation.SameValue
import TableCleaner.Proofs.Pipeline.Finite

/-!
# Rows as records

A record of a table has a value for each column, under the name of the column. Names differ, so no
column hides another, and every value stands for the cell that it was made from: for the same cell,
or for the text of a date. So a value of a record finds the rows of the table that hold it.
-/

namespace TableCleaner

/-! ## Values of cells -/

namespace Cell

theorem ofJson_toJson {c : Cell} (h : c.isFinite = true) :
    ofJson c.toJson = match c with
      | dateTime t => text (String.ofList t.writeChars)
      | _ => c := by
  cases c with
  | number x =>
    rw [isFinite] at h
    rw [toJson, if_pos h, ofJson, ofFloat, if_pos h]
  | int i => simp only [toJson, ofJson, int64?_toInt]
  | null | text | bool | dateTime => rfl

theorem key_ofJson_toJson {c : Cell} (h : c.isFinite = true) : (ofJson c.toJson).key = c.key := by
  rw [ofJson_toJson h]
  cases c <;> rfl

end Cell

/-! ## Keys of records -/

namespace Record

def keys (r : Record) : List String := r.entries.map (·.1)

theorem nodup_keys (r : Record) : r.keys.Nodup := by
  rw [keys, List.Nodup, List.pairwise_map]
  refine r.ascending.imp ?_
  intro a b hlt heq
  rw [heq] at hlt
  exact String.lt_irrefl b.1 hlt

theorem mem_keys_iff {r : Record} {key : String} : key ∈ r.keys ↔ (r.get? key).isSome := by
  rw [← contains_eq]
  simp [keys, contains]

theorem keys_ofEntries_perm {entries : List (String × Json)} (h : (entries.map (·.1)).Nodup) :
    (ofEntries entries).keys.Perm (entries.map (·.1)) := by
  rw [List.perm_ext_iff_of_nodup (nodup_keys _) h]
  intro key
  rw [mem_keys_iff, get?_ofEntries]
  constructor
  · intro hsome
    by_contra habsent
    rw [lastValue?_of_not_mem habsent] at hsome
    simp at hsome
  · intro hmem
    obtain ⟨⟨_, v⟩, hv, rfl⟩ := List.mem_map.mp hmem
    rw [lastValue?_of_mem h hv]
    rfl

end Record

/-! ## Records of a table -/

namespace Table

variable (t : Table)

theorem length_records : t.records.length = t.height := by
  simp [records]

theorem keys_perm_names : ∀ r ∈ t.records, r.keys.Perm t.names := by
  rw [records, List.forall_mem_map]
  intro i _
  have hkeys : (t.columns.map fun c => (c.name, (c.cells.getD i .null).toJson)).map (·.1) =
      t.names := by
    rw [List.map_map]
    rfl
  have hnodup : t.names.Nodup := t.names_nodup
  rw [← hkeys] at hnodup ⊢
  exact Record.keys_ofEntries_perm hnodup

variable {t}

theorem replaceValues_toJson {c : Column} {d : Cell} (hc : c ∈ t.columns) (hname : c.name ≠ "")
    (hd : d.isFinite = true) (replacement : Json) :
    t.replaceValues c.name (some d.toJson) (some replacement) =
      t.mapCells c.name fun e => if e.key = d.key then Cell.ofJson replacement else e := by
  unfold replaceValues
  rw [cells?_of_mem hc hname]
  simp only [Cell.key_ofJson_toJson hd]

end Table

/-- **Records lose nothing.** The records of a table whose numbers are finite are as many as its
rows, and the keys of each are the names of the columns. The value of a column in a row stands for a
cell with the key of the cell there, and for this cell itself unless it is a date. In a column whose
name is not empty, such a value is replaced in just those rows that have the key of its cell, and
nothing else changes. -/
theorem Table.records_keep_cells {t : Table} (h : t.Finite) :
    t.records.length = t.height ∧ (∀ r ∈ t.records, r.keys.Perm t.names) ∧
    ∀ c ∈ t.columns, ∀ (i : Nat) (d : Cell), c.cells[i]? = some d →
      (∃ r v, t.records[i]? = some r ∧ r.get? c.name = some v ∧ (Cell.ofJson v).key = d.key ∧
        ((∀ time, d ≠ .dateTime time) → Cell.ofJson v = d)) ∧
      (c.name ≠ "" → ∀ replacement,
        (Operation.replaceValues c.name (some d.toJson) (some replacement)).apply t =
          t.mapCells c.name fun e => if e.key = d.key then Cell.ofJson replacement else e) := by
  refine ⟨t.length_records, t.keys_perm_names, ?_⟩
  intro c hc i d hd
  have hfinite : d.isFinite = true := h c hc d (List.mem_of_getElem? hd)
  obtain ⟨r, hr, hvalue⟩ := Table.exists_record hc hd
  refine ⟨⟨r, _, hr, hvalue, Cell.key_ofJson_toJson hfinite, fun hdate => ?_⟩,
    fun hname => Table.replaceValues_toJson hc hname hfinite⟩
  rw [Cell.ofJson_toJson hfinite]
  cases d with
  | dateTime time => exact absurd rfl (hdate time)
  | null | number | int | text | bool => rfl

theorem Table.records_keep_cells_mixed :
    ∃ t : Table, t.columns = [⟨"y", [.bool true, .null, .text "", .null]⟩,
        ⟨"x", [.dateTime ⟨⟨2024, 3, 9, by decide⟩, .midnight⟩, .int (-5), .text "2024-03-09",
          .number (-0.0)]⟩] ∧
      t.Finite ∧ t.records.length = 4 ∧
      (∀ r ∈ t.records, r.keys.Perm ["y", "x"]) ∧
      (∃ r v, t.records[3]? = some r ∧ r.get? "x" = some v ∧
        Cell.ofJson v = .number (-0.0)) ∧
      ((Operation.replaceValues "x" (some (.text "2024-03-09")) (some .null)).apply t).columns =
        [⟨"y", [.bool true, .null, .text "", .null]⟩,
          ⟨"x", [.null, .int (-5), .null, .number (-0.0)]⟩] := by
  let t : Table := ⟨[⟨"y", [.bool true, .null, .text "", .null]⟩,
    ⟨"x", [.dateTime ⟨⟨2024, 3, 9, by decide⟩, .midnight⟩, .int (-5), .text "2024-03-09",
      .number (-0.0)]⟩], 4, by decide, by decide⟩
  have hfinite : t.Finite := by
    intro c hc d hd
    fin_cases hc <;> fin_cases hd <;> rfl
  obtain ⟨hlength, hkeys, hcells⟩ := records_keep_cells hfinite
  let c : Column := ⟨"x", [.dateTime ⟨⟨2024, 3, 9, by decide⟩, .midnight⟩, .int (-5),
    .text "2024-03-09", .number (-0.0)]⟩
  have hc : c ∈ t.columns := by decide
  obtain ⟨r, v, hr, hv, -, hsame⟩ := (hcells c hc 3 _ rfl).1
  have hreplace := (hcells c hc 0 _ rfl).2 (by decide) .null
  refine ⟨t, rfl, hfinite, hlength, hkeys, ⟨r, v, hr, hv, hsame (by simp)⟩, ?_⟩
  refine (congrArg Table.columns hreplace).trans ?_
  decide +kernel

/-- In a column with the empty name nothing is replaced, not even by the value of a cell. -/
theorem Table.empty_name_keeps_cells :
    ∃ t : Table, t.columns = [⟨"", [.text "x"]⟩] ∧ t.Finite ∧ t.cell? "" 0 = some (.text "x") ∧
      ((Operation.replaceValues "" (some (Cell.text "x").toJson) (some (.text "y"))).apply t).cell?
        "" 0 ≠ some (Cell.ofJson (.text "y")) := by
  refine ⟨⟨[⟨"", [.text "x"]⟩], 1, by decide, by decide⟩, rfl, ?_, rfl, by decide⟩
  intro c hc d hd
  fin_cases hc
  fin_cases hd
  rfl

end TableCleaner
