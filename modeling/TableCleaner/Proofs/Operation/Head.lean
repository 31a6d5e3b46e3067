import TableCleaner.Pipeline.Run
import TableCleaner.Proofs.Operation.Writes

/-!
# First rows

A preview applies a step to the first rows, a run to all of them. For an operation that looks down
the column no further than the row it writes, the preview shows the first rows of the run.
Duplicate rows may fall out of the first ones, so there the preview shows fewer of them.
-/

namespace TableCleaner

/-! ## First rows of a changed table -/

namespace Table

variable (t : Table) (n : Nat)

theorem height_head : (t.head n).height = min t.height n :=
  rfl

theorem column?_head (name : String) :
    (t.head n).column? name = (t.column? name).map fun c => { c with cells := c.cells.take n } := by
  unfold column? head
  rw [List.find?_map]
  rfl

theorem cells?_head (name : String) :
    (t.head n).cells? name = (t.cells? name).map (·.take n) := by
  unfold cells?
  split
  · rfl
  · rw [column?_head, Option.map_map, Option.map_map]
    rfl

theorem mapCells_head (name : String) (f : Cell → Cell) :
    (t.head n).mapCells name f = (t.mapCells name f).head n := by
  apply ext
  · unfold mapCells head
    simp only [List.map_map]
    apply List.map_congr_left
    intro c _
    by_cases hc : c.name = name <;> simp [hc, List.map_take]
  · rfl

theorem dropColumn_head (name : String) :
    (t.head n).dropColumn name = (t.dropColumn name).head n := by
  apply ext
  · unfold dropColumn head
    simp only [List.filter_map]
    rfl
  · rfl

theorem renameColumn_head (source target : String) :
    (t.head n).renameColumn source target = (t.renameColumn source target).head n := by
  have hsource : (t.head n).hasColumn source = t.hasColumn source := by
    rw [hasColumn, column?_head, Option.isSome_map, hasColumn]
  unfold renameColumn
  simp only [hsource]
  split
  · rfl
  · apply ext
    · simp only [dropColumn_head]
      simp only [head, List.map_map]
      apply List.map_congr_left
      intro c _
      by_cases hc : c.name = source <;> simp [hc]
    · rfl

theorem length_take_head {α : Type} {l : List α} (h : l.length = t.height) :
    (l.take n).length = (t.head n).height := by
  rw [List.length_take, h, Nat.min_comm]
  rfl

theorem setColumn_head {c : Column} (h : c.cells.length = t.height) :
    (t.head n).setColumn ⟨c.name, c.cells.take n⟩ (t.length_take_head n h) =
      (t.setColumn c h).head n := by
  have hnames : (t.head n).names = t.names := by simp [names, head]
  apply ext
  · unfold setColumn
    simp only [hnames]
    split
    · simp only [head, List.map_map]
      apply List.map_congr_left
      intro d _
      by_cases hd : d.name = c.name <;> simp [hd]
    · simp [head]
  · rfl

theorem mapColumn_head (name : String) {f : List Cell → Cell → Cell}
    (hf : ∀ cells n, f (cells.take n) = f cells) :
    (t.head n).mapColumn name f = (t.mapColumn name f).head n := by
  unfold mapColumn
  rw [cells?_head]
  cases t.cells? name with
  | none => rfl
  | some cells =>
    simp only [Option.map_some, hf]
    exact t.mapCells_head n name (f cells)

theorem derive_head (source target : String) {f : List Cell → List Cell}
    (hlen : ∀ cells, (f cells).length = cells.length)
    (hf : ∀ cells n, f (cells.take n) = (f cells).take n) :
    (t.head n).derive source target f hlen = (t.derive source target f hlen).head n := by
  have hcells := t.cells?_head n source
  unfold derive
  split
  · rename_i hnone
    split
    · rfl
    · simp_all
  · rename_i first hfirst
    split
    · simp_all
    · rename_i cells hsome
      obtain rfl : cells.take n = first := by simpa [hsome, hfirst] using hcells.symm
      simp only [← setColumn_head, hf]

/-! ## Labels -/

theorem prefix_foldl_distinct (seen keys : List String) :
    seen <+: keys.foldl (fun seen k => if seen.contains k then seen else seen ++ [k]) seen := by
  induction keys generalizing seen with
  | nil => exact List.prefix_rfl
  | cons k rest ih =>
    rw [List.foldl_cons]
    split
    · exact ih seen
    · exact (List.prefix_append seen [k]).trans (ih _)

theorem distinct_prefix_append (keys more : List String) :
    distinct keys <+: distinct (keys ++ more) := by
  unfold distinct
  rw [List.foldl_append]
  exact prefix_foldl_distinct _ more

theorem labelCell_of_prefix {keys more : List String} {c : Cell} (hpre : keys <+: more)
    (hc : ∀ k, c.key = some k → k ∈ keys) : labelCell more c = labelCell keys c := by
  obtain ⟨rest, rfl⟩ := hpre
  unfold labelCell
  cases hk : c.key with
  | none => rfl
  | some k =>
    have hsome : (keys.findIdx? (· == k)).isSome := by
      simpa using hc k hk
    obtain ⟨i, hi⟩ := Option.isSome_iff_exists.mp hsome
    simp [List.findIdx?_append, hi]

theorem labelCells_take (cells : List Cell) (n : Nat) :
    labelCells (cells.take n) = (labelCells cells).take n := by
  have hkeys : presentKeys cells = presentKeys (cells.take n) ++ presentKeys (cells.drop n) := by
    unfold presentKeys
    rw [← List.filterMap_append, List.take_append_drop]
  unfold labelCells
  simp only [← List.map_take]
  apply List.map_congr_left
  intro c hc
  symm
  apply labelCell_of_prefix
  · rw [hkeys]
    exact distinct_prefix_append _ _
  · intro k hk
    rw [mem_distinct]
    exact List.mem_filterMap.mpr ⟨c, hc, hk⟩

/-! ## Duplicate rows -/

theorem head_min_height : t.head (min t.height n) = t.head n := by
  apply ext
  · apply List.map_congr_left
    intro c hc
    have htake : c.cells.take (min t.height n) = c.cells.take n := by
      rw [List.take_eq_take_iff, t.length_cells c hc]
      omega
    rw [htake]
  · simp [head]

theorem comparedPositions?_head (subset : List String) :
    (t.head n).comparedPositions? subset = t.comparedPositions? subset := by
  have hposition : (t.head n).position? = t.position? := by
    funext name
    unfold position? head
    rw [List.findIdx?_map]
    rfl
  have hwidth : (t.head n).width = t.width := by simp [width, head]
  unfold comparedPositions?
  rw [hposition, hwidth]

theorem rowKeys_head (positions : List Nat) :
    (t.head n).rowKeys positions = (t.rowKeys positions).take n := by
  unfold rowKeys
  rw [← List.map_take, List.take_range, Nat.min_comm, height_head]
  apply List.map_congr_left
  intro row hrow
  have hlt : row < n := by
    have := List.mem_range.mp hrow
    omega
  apply List.map_congr_left
  intro i _
  cases hi : t.columns[i]? with
  | none => simp [head, hi]
  | some c => simp [head, hi, List.getElem?_take_of_lt hlt]

theorem firstFlags_take {α : Type} [BEq α] (seen l : List α) (n : Nat) :
    firstFlags seen (l.take n) = (firstFlags seen l).take n := by
  induction l generalizing seen n with
  | nil => simp [firstFlags]
  | cons a l ih =>
    cases n with
    | zero => rfl
    | succ n => simp only [List.take_succ_cons, firstFlags, ih]

theorem pick_take {α : Type} (flags : List Bool) (l : List α) (n : Nat) :
    pick (flags.take n) (l.take n) = (pick flags l).take ((flags.take n).count true) := by
  induction flags generalizing l n with
  | nil => simp [pick]
  | cons f flags ih =>
    cases n with
    | zero => simp [pick]
    | succ n =>
      cases l with
      | nil => cases f <;> simp [pick]
      | cons a l => cases f <;> simp [pick, ih]

theorem keepRows_head {flags : List Bool} (h : flags.length = t.height) :
    (t.head n).keepRows (flags.take n) (t.length_take_head n h) =
      (t.keepRows flags h).head ((flags.take n).count true) := by
  apply ext
  · simp [keepRows, head, pick_take]
  · simp only [keepRows, head]
    have := (List.take_sublist n flags).count_le true
    omega

theorem removeDuplicateRows_head (subset : List String) :
    (t.head n).removeDuplicateRows subset =
      (t.removeDuplicateRows subset).head ((t.head n).removeDuplicateRows subset).height := by
  have hpos := t.comparedPositions?_head n subset
  unfold removeDuplicateRows
  rw [hpos]
  cases t.comparedPositions? subset with
  | none => exact (t.head_min_height n).symm
  | some positions =>
    have hflags : firstFlags [] ((t.head n).rowKeys positions) =
        (firstFlags [] (t.rowKeys positions)).take n := by
      rw [rowKeys_head, firstFlags_take]
    simp only [hflags]
    exact t.keepRows_head n _

end Table

/-! ## All operations -/

/-- All rows stay, and what is written in a row depends on the rows down to it only. -/
def Change.WorksDownwards : Change → Prop
  | keep | drop _ | rename _ _ => True
  | map _ f => ∀ cells n, f (cells.take n) = f cells
  | derive _ _ f _ => ∀ cells n, f (cells.take n) = (f cells).take n
  | encode _ | select _ => False

theorem Change.apply_head {ch : Change} (t : Table) (n : Nat) (h : ch.WorksDownwards) :
    ch.apply (t.head n) = (ch.apply t).head n := by
  cases ch with
  | keep => rfl
  | drop column =>
    rw [Change.apply, Change.apply, t.dropColumn_head]
    split <;> rfl
  | rename source target =>
    rw [Change.apply, Change.apply, t.renameColumn_head]
    split <;> rfl
  | map column f => exact t.mapColumn_head n column h
  | derive source target f hlen => exact t.derive_head n source target hlen h
  | encode => exact h.elim
  | select => exact h.elim

namespace Operation

/-- The operations that need no look at the rows below. An imputation needs one unless the value
is given, or the strategy is unknown and nothing is done. -/
def worksDownwards : Operation → Bool
  | dropColumn _ | renameColumn _ _ | changeType _ _ | replaceValues _ _ _ | labelEncode _
  | textClean _ _ | extractDatePart _ _ | unsupported _ => true
  | impute _ none _ | impute _ (some .custom) _ => true
  | impute _ (some .mean) _ | impute _ (some .median) _ | impute _ (some .mode) _ => false
  | removeDuplicateRows _ | oneHotEncode _ | scale _ _ => false

theorem worksDownwards_change {op : Operation} (h : op.worksDownwards = true) :
    op.change.WorksDownwards := by
  cases op with
  | dropColumn | renameColumn | unsupported => exact trivial
  | changeType | replaceValues | textClean => exact fun _ _ => rfl
  | impute column strategy value =>
    intro cells n
    cases strategy with
    | none => rfl
    | some strategy =>
      cases strategy with
      | custom => simp only [fillCell, Option.bind_some, Table.fill?]
      | mean | median | mode => simp [worksDownwards] at h
  | labelEncode => exact Table.labelCells_take
  | extractDatePart column part =>
    cases part with
    | none => exact trivial
    | some part => exact fun _ _ => List.map_take
  | removeDuplicateRows | oneHotEncode | scale => simp [worksDownwards] at h

end Operation

/-- **A preview shows the run.** On the first rows, an operation that works downwards gives the first
rows of what it gives on all of them, and the removal of duplicate rows gives as many of those as
are left. So the preview of a step ends in the first rows of its run. -/
theorem preview_agrees_with_run (t : Table) (n : Nat) :
    (∀ op : Operation, op.worksDownwards = true → op.apply (t.head n) = (op.apply t).head n) ∧
    (∀ subset, (Operation.removeDuplicateRows subset).apply (t.head n) =
      ((Operation.removeDuplicateRows subset).apply t).head
        ((Operation.removeDuplicateRows subset).apply (t.head n)).height) ∧
    ∀ raw : Json, ((Step.ofJson raw).preview t).before = t.head previewRows ∧
      ((Step.ofJson raw).operation.worksDownwards = true →
        ((Step.ofJson raw).preview t).after =
          (Pipeline.run t [Step.ofJson raw]).head previewRows) := by
  have hall : ∀ (k : Nat) (op : Operation), op.worksDownwards = true →
      op.apply (t.head k) = (op.apply t).head k := by
    intro k op hop
    rw [op.apply_eq, op.apply_eq]
    exact Change.apply_head t k (Operation.worksDownwards_change hop)
  refine ⟨hall n, t.removeDuplicateRows_head n, ?_⟩
  intro raw
  -- Nothing depends on how the step was read.
  generalize Step.ofJson raw = step
  exact ⟨rfl, hall previewRows step.operation⟩

theorem preview_agrees_with_run_label :
    ∃ (t : Table) (raw : Json), t.columns = [⟨"x", [.null, .text "a", .bool true, .text "a"]⟩] ∧
      (Step.ofJson raw).operation = .labelEncode "x" ∧
      (Operation.labelEncode "x").worksDownwards = true ∧
      (Operation.labelEncode "x").apply (t.head 2) =
        ((Operation.labelEncode "x").apply t).head 2 ∧
      ((Operation.labelEncode "x").apply (t.head 2)).columns =
        [⟨"x", [.null, .text "a"]⟩, ⟨"x_label", [.int (-1), .int 0]⟩] ∧
      ((Step.ofJson raw).preview t).after =
        (Pipeline.run t [Step.ofJson raw]).head previewRows := by
  refine ⟨⟨[⟨"x", [.null, .text "a", .bool true, .text "a"]⟩], 4, by decide, by decide⟩,
    .object [("op", .text "label_encode"), ("column", .text "x")], rfl, ?_⟩
  obtain ⟨happly, -, hpreview⟩ := preview_agrees_with_run
    ⟨[⟨"x", [.null, .text "a", .bool true, .text "a"]⟩], 4, by decide, by decide⟩ 2
  have hstep : (Step.ofJson (.object [("op", .text "label_encode"),
      ("column", .text "x")])).operation = .labelEncode "x" := by decide +kernel
  refine ⟨hstep, rfl, happly _ rfl, by decide +kernel, ?_⟩
  apply (hpreview _).2
  rw [hstep]
  rfl

end TableCleaner
