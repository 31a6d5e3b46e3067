import TableCleaner.Proofs.Table.Bare

/-!
# Selected rows

The removal of duplicate rows keeps rows by flags, and the flags come from the keys of the rows.
Selecting rows selects their keys, the keys of the kept rows differ from one another, and rows with
different keys are all kept.
-/

namespace TableCleaner.Table

/-! ## Selected items -/

theorem pick_map {α β : Type} (f : α → β) (flags : List Bool) (l : List α) :
    pick flags (l.map f) = (pick flags l).map f := by
  induction flags generalizing l with
  | nil => simp [pick]
  | cons flag flags ih =>
    cases l with
    | nil => cases flag <;> simp [pick]
    | cons a l => cases flag <;> simp [pick, ih]

theorem getElem?_pick {α : Type} {flags : List Bool} {l : List α} {n row i : Nat}
    (hl : l.length = n) (hrow : (pick flags (List.range n))[row]? = some i) :
    (pick flags l)[row]? = l[i]? := by
  have hcells : l.map some = (List.range n).map (l[·]?) := by
    apply List.ext_getElem
    · simp [hl]
    · intro j hj _
      simp
  have hpicked : (pick flags l).map some = (pick flags (List.range n)).map (l[·]?) := by
    rw [← pick_map, hcells, pick_map]
  have hget := congrArg (·[row]?) hpicked
  simp only [List.getElem?_map, hrow, Option.map_some] at hget
  obtain ⟨a, ha, hi⟩ := Option.map_eq_some_iff.mp hget
  rw [ha, hi]

/-! ## First occurrences -/

section

variable {α : Type} [BEq α] [LawfulBEq α]

theorem firstFlags_of_nodup {seen l : List α} (hl : l.Nodup) (hseen : ∀ a ∈ l, a ∉ seen) :
    ∀ flag ∈ firstFlags seen l, flag = true := by
  induction l generalizing seen with
  | nil => simp [firstFlags]
  | cons a l ih =>
    obtain ⟨ha, hl⟩ := List.nodup_cons.mp hl
    have hrest : ∀ b ∈ l, b ∉ a :: seen := by
      intro b hb hmem
      rcases List.mem_cons.mp hmem with rfl | hmem
      · exact ha hb
      · exact hseen b (List.mem_cons_of_mem a hb) hmem
    rw [firstFlags, List.forall_mem_cons]
    exact ⟨by simpa using hseen a List.mem_cons_self, ih hl hrest⟩

theorem nodup_pick_firstFlags (seen l : List α) :
    (pick (firstFlags seen l) l).Nodup ∧ ∀ a ∈ pick (firstFlags seen l) l, a ∉ seen := by
  induction l generalizing seen with
  | nil => simp [firstFlags, pick]
  | cons a l ih =>
    obtain ⟨hnodup, hseen⟩ := ih (a :: seen)
    by_cases ha : seen.contains a = true
    · simp only [firstFlags, ha, Bool.not_true, pick]
      exact ⟨hnodup, fun b hb hmem => hseen b hb (List.mem_cons_of_mem a hmem)⟩
    · rw [Bool.not_eq_true] at ha
      simp only [firstFlags, ha, Bool.not_false, pick, List.nodup_cons, List.forall_mem_cons]
      refine ⟨⟨fun hmem => hseen a hmem List.mem_cons_self, hnodup⟩, by simpa using ha, ?_⟩
      exact fun b hb hmem => hseen b hb (List.mem_cons_of_mem a hmem)

end

/-! ## Keys of selected rows -/

variable (t : Table)

/-- The key of one row in some columns. -/
def rowKey (positions : List Nat) (row : Nat) : List (Option String) :=
  positions.map fun i => ((t.columns[i]?.bind (·.cells[row]?)).getD .null).key

theorem rowKeys_eq (positions : List Nat) :
    t.rowKeys positions = (List.range t.height).map (t.rowKey positions) := rfl

theorem comparedPositions?_keepRows (flags : List Bool) (h : flags.length = t.height)
    (subset : List String) :
    (t.keepRows flags h).comparedPositions? subset = t.comparedPositions? subset := by
  have hposition : (t.keepRows flags h).position? = t.position? := by
    funext name
    unfold position? keepRows
    rw [List.findIdx?_map]
    rfl
  have hwidth : (t.keepRows flags h).width = t.width := by simp [width, keepRows]
  unfold comparedPositions?
  rw [hposition, hwidth]

theorem rowKeys_keepRows {flags : List Bool} (h : flags.length = t.height) (positions : List Nat) :
    (t.keepRows flags h).rowKeys positions = pick flags (t.rowKeys positions) := by
  have hlen : (pick flags (List.range t.height)).length = flags.count true :=
    length_pick (by simpa using h)
  rw [rowKeys_eq, rowKeys_eq, pick_map]
  apply List.ext_getElem
  · simp [hlen, keepRows]
  · intro row hrow hrow'
    have hlt : row < (pick flags (List.range t.height)).length := by simpa using hrow'
    simp only [List.getElem_map, List.getElem_range]
    -- Both sides read the row of the old table that stands here.
    apply List.map_congr_left
    intro i _
    cases hi : t.columns[i]? with
    | none => simp [keepRows, hi]
    | some c =>
      have hc : c.cells.length = t.height := t.length_cells c (List.mem_of_getElem? hi)
      simp [keepRows, hi, getElem?_pick hc (List.getElem?_eq_getElem hlt)]

/-! ## Duplicate rows -/

variable {subset : List String} {positions : List Nat}

theorem removeDuplicateRows_of_nodup (h : t.comparedPositions? subset = some positions)
    (hnodup : (t.rowKeys positions).Nodup) : t.removeDuplicateRows subset = t := by
  unfold removeDuplicateRows
  rw [h]
  exact BareTable.keepRows_all _ _ (firstFlags_of_nodup hnodup (by simp))

theorem nodup_rowKeys_removeDuplicateRows (h : t.comparedPositions? subset = some positions) :
    ((t.removeDuplicateRows subset).rowKeys positions).Nodup := by
  unfold removeDuplicateRows
  rw [h]
  simp only
  rw [rowKeys_keepRows]
  exact (nodup_pick_firstFlags [] _).1

theorem comparedPositions?_removeDuplicateRows (other : List String) :
    (t.removeDuplicateRows subset).comparedPositions? other = t.comparedPositions? other := by
  unfold removeDuplicateRows
  split
  · rfl
  · exact t.comparedPositions?_keepRows _ _ other

end TableCleaner.Table
