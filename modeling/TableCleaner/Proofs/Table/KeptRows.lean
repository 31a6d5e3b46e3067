import TableCleaner.Proofs.Step.Compared

/-!
# Kept rows

The removal of duplicate rows selects whole rows. It keeps a row exactly when no row before it has
the same keys in the compared columns, so every row is represented by a kept one at or before it.
-/

namespace TableCleaner

namespace Table

/-! ## Flags of first occurrences -/

section

variable {α : Type} [BEq α] [LawfulBEq α]

theorem getElem?_firstFlags (seen l : List α) (i : Nat) :
    (firstFlags seen l)[i]? = l[i]?.map fun a => !seen.contains a && !(l.take i).contains a := by
  induction l generalizing seen i with
  | nil => rfl
  | cons a l ih =>
    cases i with
    | zero => simp [firstFlags]
    | succ i =>
      rw [firstFlags, List.getElem?_cons_succ, List.getElem?_cons_succ, ih]
      congr 1
      funext b
      rw [List.take_succ_cons, List.contains_cons, List.contains_cons]
      cases b == a <;> simp

end

theorem pick_map_flags {α : Type} (p : α → Bool) (l : List α) : pick (l.map p) l = l.filter p := by
  induction l with
  | nil => rfl
  | cons a l ih =>
    cases h : p a <;> simp [pick, h, ih]

/-! ## Rows that agree -/

variable {t : Table} {subset : List String} {positions : List Nat}

/-- Two rows have the same keys in the columns that are compared for a list of names. -/
def RowsAgree (t : Table) (subset : List String) (i j : Nat) : Prop :=
  ∀ name ∈ t.comparedNames subset, (t.cell? name i).map Cell.key = (t.cell? name j).map Cell.key

instance (t : Table) (subset : List String) (i j : Nat) : Decidable (t.RowsAgree subset i j) :=
  inferInstanceAs (Decidable (∀ name ∈ t.comparedNames subset,
    (t.cell? name i).map Cell.key = (t.cell? name j).map Cell.key))

theorem RowsAgree.refl (i : Nat) : t.RowsAgree subset i i := fun _ _ => rfl

theorem RowsAgree.trans {i j k : Nat} (h : t.RowsAgree subset i j) (h' : t.RowsAgree subset j k) :
    t.RowsAgree subset i k :=
  fun name hname => (h name hname).trans (h' name hname)

/-- The rows that no row before them agrees with. -/
def firstRows (t : Table) (subset : List String) : List (Fin t.height) :=
  (List.finRange t.height).filter fun i => ∀ j < i, ¬ t.RowsAgree subset j i

theorem mem_firstRows {i : Fin t.height} :
    i ∈ t.firstRows subset ↔ ∀ j < i, ¬ t.RowsAgree subset j i := by
  simp [firstRows]

theorem pairwise_firstRows (t : Table) (subset : List String) :
    (t.firstRows subset).Pairwise (· < ·) :=
  (List.pairwise_lt_finRange t.height).filter _

theorem not_rowsAgree_firstRows (t : Table) (subset : List String) :
    (t.firstRows subset).Pairwise fun i j : Fin _ => ¬ t.RowsAgree subset i j :=
  (t.pairwise_firstRows subset).imp_of_mem fun _ hj hlt => mem_firstRows.mp hj _ hlt

/-- Going back from a row to an earlier one that agrees with it ends at a first row. -/
theorem exists_firstRow (i : Fin t.height) :
    ∃ j ∈ t.firstRows subset, j ≤ i ∧ t.RowsAgree subset j i := by
  obtain ⟨i, hi⟩ := i
  induction i using Nat.strongRecOn with
  | ind i ih =>
    by_cases hfirst : ⟨i, hi⟩ ∈ t.firstRows subset
    · exact ⟨_, hfirst, Nat.le_refl i, .refl _⟩
    · simp only [mem_firstRows, not_forall, not_not] at hfirst
      obtain ⟨j, hlt, hagree⟩ := hfirst
      obtain ⟨k, hk, hle, hagree'⟩ := ih j hlt j.isLt
      exact ⟨k, hk, Nat.le_trans hle (Nat.le_of_lt hlt), hagree'.trans hagree⟩

/-! ## Selected rows -/

theorem keepRows_eq_rowsAt (t : Table) {flags : List Bool} (h : flags.length = t.height) :
    t.keepRows flags h = t.rowsAt (pick flags (List.finRange t.height)) := by
  apply ext
  · apply List.map_congr_left
    intro c hc
    have hcells : c.cells = (List.finRange t.height).map fun i : Fin _ => c.cells.getD i .null := by
      apply List.ext_getElem
      · simp [t.length_cells c hc]
      · intro i hi _
        simp [hi]
    rw [← pick_map, ← hcells]
  · exact (length_pick (by simpa using h)).symm

theorem firstFlags_rowKeys (h : t.comparedPositions? subset = some positions) :
    firstFlags [] (t.rowKeys positions) =
      (List.finRange t.height).map fun i : Fin _ => decide (∀ j < i, ¬ t.RowsAgree subset j i) := by
  apply List.ext_getElem?
  intro i
  rw [getElem?_firstFlags, rowKeys_eq, List.getElem?_map, List.getElem?_map]
  by_cases hi : i < t.height
  · have hfin : (List.finRange t.height)[i]? = some ⟨i, hi⟩ := by simp [hi]
    rw [List.getElem?_range hi, hfin]
    simp only [Option.map_some, List.contains_nil, Bool.not_false, Bool.true_and, Option.some.injEq]
    rw [Bool.eq_iff_iff, Bool.not_eq_true', List.contains_eq_mem, decide_eq_false_iff_not,
      decide_eq_true_iff, ← List.map_take, List.take_range, Nat.min_eq_left (Nat.le_of_lt hi)]
    constructor
    · intro hnot j hj hagree
      refine hnot (List.mem_map.mpr ⟨j, List.mem_range.mpr hj, ?_⟩)
      exact (rowKey_eq_iff h j.isLt hi).mpr hagree
    · intro hfirst hmem
      obtain ⟨j, hj, hkey⟩ := List.mem_map.mp hmem
      have hlt : j < i := List.mem_range.mp hj
      have hheight : j < t.height := Nat.lt_trans hlt hi
      exact hfirst ⟨j, hheight⟩ hlt ((rowKey_eq_iff h hheight hi).mp hkey)
  · simp [hi]

theorem removeDuplicateRows_eq_rowsAt (h : ∀ name ∈ subset, name ∈ t.names) :
    t.removeDuplicateRows subset = t.rowsAt (t.firstRows subset) := by
  obtain ⟨positions, hpositions⟩ := exists_positions h
  unfold removeDuplicateRows
  simp only [hpositions]
  rw [keepRows_eq_rowsAt, firstFlags_rowKeys hpositions, pick_map_flags]
  rfl

end Table

/-- **The first of equal rows stays.** The removal of duplicate rows by names of columns, of which
none stand for all, leaves the table of some whole rows in their order. A row is among them exactly
when no row before it has the same keys in the compared columns. So no two of them have the same
keys, and for every row there is one at or before it that has. -/
theorem Operation.removeDuplicateRows_keeps_first (t : Table) {subset : List String}
    (h : ∀ name ∈ subset, name ∈ t.names) :
    (removeDuplicateRows subset).apply t = t.rowsAt (t.firstRows subset) ∧
    ((removeDuplicateRows subset).apply t).height = (t.firstRows subset).length ∧
    (∀ i, i ∈ t.firstRows subset ↔ ∀ j < i, ¬ t.RowsAgree subset j i) ∧
    (t.firstRows subset).Pairwise (· < ·) ∧
    (t.firstRows subset).Pairwise (fun i j : Fin _ => ¬ t.RowsAgree subset i j) ∧
    ∀ i : Fin t.height, ∃ j ∈ t.firstRows subset, j ≤ i ∧ t.RowsAgree subset j i := by
  have hrows : (removeDuplicateRows subset).apply t = t.rowsAt (t.firstRows subset) :=
    Table.removeDuplicateRows_eq_rowsAt h
  refine ⟨hrows, by rw [hrows]; rfl, fun i => Table.mem_firstRows, t.pairwise_firstRows subset,
    t.not_rowsAgree_firstRows subset, fun i => Table.exists_firstRow i⟩

/-- Without columns all rows agree, and one of them stays. -/
example :
    ((Operation.removeDuplicateRows []).apply (⟨[], 3, .nil, by simp⟩ : Table)).height = 1 := by
  decide

theorem Operation.removeDuplicateRows_keeps_first_repeated :
    ∃ t : Table, t.columns = [⟨"a", [.int 1, .text "1", .null, .text "", .null]⟩,
        ⟨"b", [.text "x", .text "x", .int 2, .int 2, .text "2"]⟩,
        ⟨"c", [.bool true, .bool false, .null, .null, .int 7]⟩] ∧
      (∀ name ∈ ["b", "a", "b"], name ∈ t.names) ∧
      (t.firstRows ["b", "a", "b"]).map Fin.val = [0, 2, 3] ∧
      ((removeDuplicateRows ["b", "a", "b"]).apply t).height = 3 ∧
      ((removeDuplicateRows ["b", "a", "b"]).apply t).columns =
        [⟨"a", [.int 1, .null, .text ""]⟩, ⟨"b", [.text "x", .int 2, .int 2]⟩,
          ⟨"c", [.bool true, .null, .null]⟩] := by
  let t : Table := ⟨[⟨"a", [.int 1, .text "1", .null, .text "", .null]⟩,
    ⟨"b", [.text "x", .text "x", .int 2, .int 2, .text "2"]⟩,
    ⟨"c", [.bool true, .bool false, .null, .null, .int 7]⟩], 5, by decide, by decide⟩
  have hnames : ∀ name ∈ ["b", "a", "b"], name ∈ t.names := by decide
  have hfirst : (t.firstRows ["b", "a", "b"]).map Fin.val = [0, 2, 3] := by decide +kernel
  obtain ⟨hrows, hheight, -⟩ := removeDuplicateRows_keeps_first t hnames
  refine ⟨t, rfl, hnames, hfirst, ?_, ?_⟩
  · rw [hheight, ← List.length_map Fin.val, hfirst]
    rfl
  · rw [hrows]
    decide +kernel

end TableCleaner
