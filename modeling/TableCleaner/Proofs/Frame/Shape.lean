import TableCleaner.Proofs.Frame.RoundTrip
import TableCleaner.Proofs.Operation.Change
import TableCleaner.Proofs.Pipeline.Report

/-!
# Shapes of tables that go through a frame

A frame has no height of its own: it has the height of its series. A table keeps its shape as long
as a column is left, and most steps leave one. The rows of a table without columns are lost.
-/

namespace TableCleaner

namespace Table

theorem shape_throughFrame? (t : Table) : ∃ s : Table, t.throughFrame? = .ok s ∧
    s.width = t.width ∧ s.height = if t.width = 0 then 0 else t.height := by
  obtain ⟨s, hs, hcolumns, hheight⟩ := t.exists_throughFrame?
  refine ⟨s, hs, by rw [width, width, hcolumns, List.length_map], ?_⟩
  rw [hheight, hcolumns]
  cases hcons : t.columns with
  | nil => simp [width, hcons, heightOf]
  | cons c rest =>
    have hlen := t.length_cells c (by simp [hcons])
    simpa [width, hcons, heightOf, Column.back] using hlen

/-! ## Steps that leave a column -/

variable {t : Table}

theorem width_mapColumn (column : String) (f : List Cell → Cell → Cell) :
    (t.mapColumn column f).width = t.width := by
  unfold mapColumn
  split
  · exact List.length_map ..
  · rfl

theorem width_renameColumn (h : 0 < t.width) (source target : String) :
    0 < (t.renameColumn source target).width := by
  unfold renameColumn
  split
  · exact h
  · rename_i hrename
    rw [not_or, Bool.not_eq_false] at hrename
    obtain ⟨hne, hsource⟩ := hrename
    -- Only a column under the new name gives way, and that is not the renamed one.
    obtain ⟨c, hc⟩ := Option.isSome_iff_exists.mp hsource
    have hleft : c ∈ (t.dropColumn target).columns := by
      refine List.mem_filter.mpr ⟨List.mem_of_find?_eq_some hc, ?_⟩
      simpa [name_of_column? hc] using hne
    rw [width, List.length_map]
    exact List.length_pos_of_mem hleft

theorem width_setColumn (c : Column) (h : c.cells.length = t.height) :
    0 < (t.setColumn c h).width := by
  unfold setColumn width
  dsimp only
  split
  · rename_i hmem
    obtain ⟨d, hd, -⟩ := List.mem_map.mp hmem
    rw [List.length_map]
    exact List.length_pos_of_mem hd
  · simp

theorem width_derive (h : 0 < t.width) (source target : String) (f : List Cell → List Cell)
    (hf : ∀ cells, (f cells).length = cells.length) : 0 < (t.derive source target f hf).width := by
  unfold derive
  split
  · exact h
  · exact width_setColumn ..

theorem width_removeDuplicateRows (subset : List String) :
    (t.removeDuplicateRows subset).width = t.width := by
  unfold removeDuplicateRows
  split
  · rfl
  · exact List.length_map ..

end Table

/-- The operation takes its column out of the table. -/
def Operation.takesColumn : Operation → Bool
  | dropColumn _ | oneHotEncode _ => true
  | _ => false

theorem Operation.width_apply {t : Table} (h : 0 < t.width) {op : Operation}
    (hop : op.takesColumn = false) : 0 < (op.apply t).width := by
  rw [apply_eq]
  cases op with
  | dropColumn | oneHotEncode => cases hop
  | renameColumn source target =>
    rw [change, Change.apply]
    split
    · exact h
    · exact Table.width_renameColumn h source target
  | changeType | impute | replaceValues | textClean =>
    exact Nat.lt_of_lt_of_eq h (Table.width_mapColumn ..).symm
  | removeDuplicateRows subset =>
    exact Nat.lt_of_lt_of_eq h (Table.width_removeDuplicateRows subset).symm
  | labelEncode column => exact Table.width_derive h _ _ _ Table.length_labelCells
  | scale scaler column => exact Table.width_derive h _ _ _ (Table.length_scaledCells scaler)
  | extractDatePart column part =>
    cases part with
    | none => exact h
    | some part => exact Table.width_derive h _ _ _ (Table.length_datePartCells part)
  | unsupported => exact h

namespace Pipeline

theorem width_run {t : Table} (h : 0 < t.width) {steps : Pipeline}
    (hsteps : ∀ step ∈ steps, step.operation.takesColumn = false) : 0 < (run t steps).width := by
  induction steps generalizing t with
  | nil => exact h
  | cons step steps ih =>
    obtain ⟨hstep, hsteps⟩ := List.forall_mem_cons.mp hsteps
    rw [run_cons]
    exact ih (Operation.width_apply h hstep) hsteps

/-- **Shapes.** Whatever table a pipeline leaves, it comes back from its frame with all its columns,
and with its height exactly if it has columns or no rows. A table with columns has some left unless
a step takes one out. -/
theorem throughFrame_keeps_shape (t : Table) (steps : Pipeline) :
    (∃ s, (run t steps).throughFrame? = .ok s ∧ s.width = (run t steps).width ∧
      (s.height = (run t steps).height ↔ 0 < (run t steps).width ∨ (run t steps).height = 0)) ∧
    (0 < t.width → (∀ step ∈ steps, step.operation.takesColumn = false) →
      0 < (run t steps).width) := by
  obtain ⟨s, hs, hwidth, hheight⟩ := (run t steps).shape_throughFrame?
  refine ⟨⟨s, hs, hwidth, ?_⟩, fun h hsteps => width_run h hsteps⟩
  rw [hheight]
  split
  · rename_i hnone
    simp [hnone, eq_comm]
  · rename_i hsome
    simp [Nat.pos_of_ne_zero hsome]

theorem throughFrame_keeps_shape_renamed :
    ∃ t : Table, t.columns = [⟨"a", [.int 1, .null]⟩, ⟨"b", [.text "x", .text "y"]⟩] ∧
      ∃ steps : Pipeline, steps.map (·.operation) = [.renameColumn "a" "b", .labelEncode "b"] ∧
        0 < t.width ∧ (∀ step ∈ steps, step.operation.takesColumn = false) ∧
        (run t steps).names = ["b", "b_label"] ∧
        ∃ s, (run t steps).throughFrame? = .ok s ∧ s.shape = ⟨2, 2⟩ := by
  let t : Table := ⟨[⟨"a", [.int 1, .null]⟩, ⟨"b", [.text "x", .text "y"]⟩], 2, by decide,
    by decide⟩
  let steps : Pipeline := [⟨.renameColumn "a" "b", .empty⟩, ⟨.labelEncode "b", .empty⟩]
  have hsteps : ∀ step ∈ steps, step.operation.takesColumn = false := by decide
  obtain ⟨⟨s, hs, hwidth, hheight⟩, hcolumns⟩ := throughFrame_keeps_shape t steps
  have hshape : (run t steps).shape = ⟨2, 2⟩ := by decide +kernel
  refine ⟨t, rfl, steps, rfl, by decide, hsteps, by decide +kernel, s, hs, ?_⟩
  rw [← hshape, Table.shape, Table.shape, hwidth, hheight.mpr (.inl (hcolumns (by decide) hsteps))]

/-- Without its only column a table keeps its rows, but not through a frame. -/
theorem throughFrame_without_columns :
    ∃ t : Table, t.columns = [⟨"v", [.int 1, .int 2, .int 3]⟩] ∧
      ∃ s, (runRecords t [.object [("op", .text "drop_column"), ("column", .text "v")]]).shape =
          ⟨3, 0⟩ ∧
        (runRecords t [.object [("op", .text "drop_column"),
          ("column", .text "v")]]).throughFrame? = .ok s ∧ s.shape = ⟨0, 0⟩ := by
  let t : Table := ⟨[⟨"v", [.int 1, .int 2, .int 3]⟩], 3, by decide, by decide⟩
  exact ⟨t, rfl, .empty, by decide +kernel, by decide +kernel, by decide⟩

end Pipeline

end TableCleaner
