import TableCleaner.Proofs.Cell.Key
import TableCleaner.Proofs.Table.KeptRows

/-!
# Removed rows

Rows are compared by the texts of their cells. Where every column holds values of one kind, rows of
the same texts hold the same values, but for the fractions of the seconds of dates. So a removed row
takes nothing with it that does not stand in a kept row too, to the second.
-/

namespace TableCleaner

namespace Table

/-- Besides empty cells every column holds values of one kind, and no undefined number. -/
structure IsTyped (t : Table) : Prop where
  sameKind : ∀ c ∈ t.columns, ∀ a ∈ c.cells, ∀ b ∈ c.cells, a ≠ .null → b ≠ .null → a.SameKind b
  defined : ∀ c ∈ t.columns, ∀ a ∈ c.cells, a.isNaN = false

/-- In every column the cells of two rows stand in a relation. -/
def RowsRelate (t : Table) (related : Cell → Cell → Prop) (i j : Nat) : Prop :=
  ∃ r s, t.row? i = some r ∧ t.row? j = some s ∧ List.Forall₂ related r s

variable {t : Table} {i j : Nat}

theorem row?_eq_some (hi : i < t.height) :
    t.row? i = some (t.columns.map (·.cells.getD i .null)) :=
  mapM_some fun _ hc => BareTable.cell_eq hc hi

theorem rowsRelate_iff {related : Cell → Cell → Prop} (hi : i < t.height) (hj : j < t.height) :
    t.RowsRelate related i j ↔
      ∀ c ∈ t.columns, related (c.cells.getD i .null) (c.cells.getD j .null) := by
  have hrows : List.Forall₂ related (t.columns.map (·.cells.getD i .null))
      (t.columns.map (·.cells.getD j .null)) ↔
        ∀ c ∈ t.columns, related (c.cells.getD i .null) (c.cells.getD j .null) := by
    rw [List.forall₂_map_left_iff, List.forall₂_map_right_iff, List.forall₂_same]
  rw [← hrows, RowsRelate, row?_eq_some hi, row?_eq_some hj]
  simp

theorem rowsAgree_iff_relate (h : t.IsTyped) (hi : i < t.height) (hj : j < t.height) :
    t.RowsAgree [] i j ↔ t.RowsRelate Cell.SameToSecond i j := by
  have hagree : t.RowsAgree [] i j ↔
      ∀ c ∈ t.columns, (c.cells.getD i .null).key = (c.cells.getD j .null).key := by
    unfold RowsAgree comparedNames names
    simp only [List.isEmpty_nil, if_true, List.forall_mem_map]
    refine forall₂_congr fun c hc => ?_
    rw [cell?, cell?, column?_of_mem hc, Option.bind_some, Option.bind_some, BareTable.cell_eq hc hi,
      BareTable.cell_eq hc hj, Option.map_some, Option.map_some, Option.some.injEq]
  rw [hagree, rowsRelate_iff hi hj]
  refine forall₂_congr fun c hc => ?_
  have hci := List.mem_of_getElem? (BareTable.cell_eq hc hi)
  have hcj := List.mem_of_getElem? (BareTable.cell_eq hc hj)
  exact Cell.key_eq_iff (h.sameKind c hc _ hci _ hcj) (h.defined c hc _ hci) (h.defined c hc _ hcj)

end Table

/-- **Removed rows are kept elsewhere.** Take a table in which every column holds values of one kind
besides empty cells, and no undefined number. When rows are compared in all columns, a row is
removed exactly if a kept row before it has equal values in every column, where two dates also count
as equal if they lie in one second and neither is midnight sharp. -/
theorem Operation.removeDuplicateRows_keeps_values {t : Table} (h : t.IsTyped) :
    (removeDuplicateRows []).apply t = t.rowsAt (t.firstRows []) ∧
    ∀ i : Fin t.height, i ∉ t.firstRows [] ↔
      ∃ j ∈ t.firstRows [], j < i ∧ t.RowsRelate Cell.SameToSecond j i := by
  have hrows : (removeDuplicateRows []).apply t = t.rowsAt (t.firstRows []) :=
    Table.removeDuplicateRows_eq_rowsAt fun _ hname => absurd hname List.not_mem_nil
  refine ⟨hrows, fun i => ⟨fun hi => ?_, ?_⟩⟩
  · obtain ⟨j, hj, hle, hagree⟩ : ∃ j ∈ t.firstRows [], j ≤ i ∧ t.RowsAgree [] j i :=
      Table.exists_firstRow i
    have hne : j ≠ i := fun heq => hi (heq ▸ hj)
    exact ⟨j, hj, lt_of_le_of_ne hle hne, (Table.rowsAgree_iff_relate h j.isLt i.isLt).mp hagree⟩
  · rintro ⟨j, -, hlt, hrelate⟩ hi
    exact Table.mem_firstRows.mp hi j hlt
      ((Table.rowsAgree_iff_relate h j.isLt i.isLt).mpr hrelate)

/-- Zeros of both signs are equal numbers, and a leap second is another second than the one before
it. The third row goes, though its date has another fraction than the date of the first. -/
theorem Operation.removeDuplicateRows_keeps_values_leap :
    ∃ t : Table, t.columns = [⟨"x", [.number 0.0, .number 0.0, .number (-0.0)]⟩,
        ⟨"at", [.dateTime ⟨⟨2016, 12, 31, by decide⟩, ⟨23, 59, 59, 250000000, by decide⟩⟩,
          .dateTime ⟨⟨2016, 12, 31, by decide⟩, ⟨23, 59, 59, 1250000000, by decide⟩⟩,
          .dateTime ⟨⟨2016, 12, 31, by decide⟩, ⟨23, 59, 59, 750000000, by decide⟩⟩]⟩] ∧
      t.IsTyped ∧ (t.firstRows []).map Fin.val = [0, 1] ∧
      ((removeDuplicateRows []).apply t).height = 2 ∧
      ∃ i : Fin t.height, i.val = 2 ∧ i ∉ t.firstRows [] ∧
        ∃ j ∈ t.firstRows [], j < i ∧ t.RowsRelate Cell.SameToSecond j i := by
  let t : Table := ⟨[⟨"x", [.number 0.0, .number 0.0, .number (-0.0)]⟩,
    ⟨"at", [.dateTime ⟨⟨2016, 12, 31, by decide⟩, ⟨23, 59, 59, 250000000, by decide⟩⟩,
      .dateTime ⟨⟨2016, 12, 31, by decide⟩, ⟨23, 59, 59, 1250000000, by decide⟩⟩,
      .dateTime ⟨⟨2016, 12, 31, by decide⟩, ⟨23, 59, 59, 750000000, by decide⟩⟩]⟩], 3,
    by decide, by simp⟩
  have htyped : t.IsTyped := by
    constructor
    · intro c hc a ha b hb _ _
      fin_cases hc <;> fin_cases ha <;> fin_cases hb <;> constructor
    · intro c hc a ha
      fin_cases hc <;> fin_cases ha <;> decide +kernel
  have hremoved : (⟨2, by decide⟩ : Fin t.height) ∉ t.firstRows [] := by decide +kernel
  obtain ⟨hrows, hiff⟩ := removeDuplicateRows_keeps_values htyped
  refine ⟨t, rfl, htyped, by decide +kernel, ?_, _, rfl, hremoved,
    (hiff _).mp hremoved⟩
  rw [hrows]
  decide +kernel

/-- The second row is removed, though its date is another one. -/
theorem Operation.removeDuplicateRows_drops_fraction :
    ∃ t : Table, t.columns = [⟨"at",
        [.dateTime ⟨⟨2024, 3, 9, by decide⟩, ⟨8, 30, 0, 250000000, by decide⟩⟩,
          .dateTime ⟨⟨2024, 3, 9, by decide⟩, ⟨8, 30, 0, 750000000, by decide⟩⟩]⟩] ∧
      t.IsTyped ∧ ((removeDuplicateRows []).apply t).height = 1 ∧
      ∃ i : Fin t.height, i ∉ t.firstRows [] ∧
        ∀ j : Fin t.height, j < i → ¬ t.RowsRelate (fun a b => a.same b = true) j i := by
  let t : Table := ⟨[⟨"at",
    [.dateTime ⟨⟨2024, 3, 9, by decide⟩, ⟨8, 30, 0, 250000000, by decide⟩⟩,
      .dateTime ⟨⟨2024, 3, 9, by decide⟩, ⟨8, 30, 0, 750000000, by decide⟩⟩]⟩], 2,
    by decide, by simp⟩
  refine ⟨t, rfl, ?_, by decide +kernel, ⟨1, by decide⟩, by decide +kernel, ?_⟩
  · constructor
    · intro c hc a ha b hb _ _
      fin_cases hc
      fin_cases ha <;> fin_cases hb <;> constructor
    · intro c hc a ha
      fin_cases hc
      fin_cases ha <;> rfl
  · intro j hj
    rw [Table.rowsRelate_iff j.isLt (by decide)]
    revert j
    decide +kernel

end TableCleaner
