import TableCleaner.Proofs.Operation.Change
import TableCleaner.Proofs.Table.Bare

/-!
# What operations leave alone

Every operation has a list of names that it may write. The main statement is about all other
columns: they are still there, in the same order and with the same cells, and the table has no
column besides them and those with a name of the list. Only the removal of duplicate rows takes
cells away, and it takes the same rows from every column.
-/

namespace TableCleaner

/-! ## Written names -/

/-- The names that a change may write. -/
def Change.writes (t : Table) : Change → List String
  | keep | select _ => []
  | drop column | map column _ => [column]
  | rename source target => [source, target]
  | derive _ target _ _ => [target]
  | encode column =>
    column :: (Table.presentKeys ((t.cells? column).getD [])).map fun k => column ++ "_" ++ k

/-- The names that an operation may write. -/
def Operation.writes (t : Table) : Operation → List String
  | dropColumn column | changeType column _ | impute column _ _ | replaceValues column _ _
  | textClean column _ => [column]
  | renameColumn source target => [source, target]
  | labelEncode column => [column ++ "_label"]
  | scale .minMax column => [column ++ "_minmax"]
  | scale .standard column => [column ++ "_std"]
  | scale .robust column => [column ++ "_robust"]
  | extractDatePart column part => (part.map fun p => column ++ "_" ++ p.name).toList
  | oneHotEncode column =>
    column :: (Table.presentKeys ((t.cells? column).getD [])).map fun k => column ++ "_" ++ k
  | removeDuplicateRows _ | unsupported _ => []

theorem Operation.writes_eq (t : Table) (op : Operation) : op.change.writes t = op.writes t := by
  cases op with
  | scale scaler column => cases scaler <;> rfl
  | extractDatePart column part => cases part <;> rfl
  | dropColumn | renameColumn | changeType | removeDuplicateRows | impute | replaceValues
  | oneHotEncode | labelEncode | textClean | unsupported => rfl

/-! ## Columns outside a list of names -/

namespace Table

/-- The columns whose names are not in a list. -/
def outside (t : Table) (names : List String) : List Column :=
  t.columns.filter (·.name ∉ names)

theorem mem_outside {t : Table} {names : List String} {c : Column} :
    c ∈ t.outside names ↔ c ∈ t.columns ∧ c.name ∉ names := by
  simp [outside]

theorem outside_nil (t : Table) : t.outside [] = t.columns := by
  simp [outside]

theorem filter_map_outside {names : List String} {f : Column → Column} {columns : List Column}
    (hin : ∀ c ∈ columns, c.name ∈ names → (f c).name ∈ names)
    (hout : ∀ c ∈ columns, c.name ∉ names → f c = c) :
    (columns.map f).filter (·.name ∉ names) = columns.filter (·.name ∉ names) := by
  induction columns with
  | nil => rfl
  | cons c rest ih =>
    have hrest := ih (fun d hd => hin d (List.mem_cons_of_mem c hd))
      fun d hd => hout d (List.mem_cons_of_mem c hd)
    rw [List.map_cons, List.filter_cons, List.filter_cons, hrest]
    by_cases hc : c.name ∈ names
    · simp [hc, hin c List.mem_cons_self hc]
    · rw [hout c List.mem_cons_self hc]

variable {names : List String} (t : Table)

theorem outside_mapCells {column : String} (h : column ∈ names) (f : Cell → Cell) :
    (t.mapCells column f).outside names = t.outside names := by
  apply filter_map_outside
  · intro c _ hc
    split <;> exact hc
  · intro c _ hc
    rw [if_neg]
    rintro rfl
    exact hc h

theorem outside_dropColumn {column : String} (h : column ∈ names) :
    (t.dropColumn column).outside names = t.outside names := by
  unfold outside dropColumn
  rw [List.filter_filter]
  apply List.filter_congr
  intro c _
  by_cases hc : c.name = column
  · simp [hc, h]
  · simp [hc]

theorem outside_renameColumn {source target : String} (hs : source ∈ names) (ht : target ∈ names) :
    (t.renameColumn source target).outside names = t.outside names := by
  unfold renameColumn
  split
  · rfl
  · rw [← t.outside_dropColumn ht]
    apply filter_map_outside
    · intro c _ hc
      split
      · exact ht
      · exact hc
    · intro c _ hc
      rw [if_neg]
      rintro rfl
      exact hc hs

theorem outside_setColumn {c : Column} (hlen : c.cells.length = t.height) (h : c.name ∈ names) :
    (t.setColumn c hlen).outside names = t.outside names := by
  unfold outside setColumn
  simp only
  split
  · apply filter_map_outside
    · intro d _ hd
      split
      · exact h
      · exact hd
    · intro d _ hd
      rw [if_neg]
      intro he
      exact hd (he ▸ h)
  · simp [h]

theorem outside_derive {source target : String} (h : target ∈ names) (f : List Cell → List Cell)
    (hf : ∀ cells, (f cells).length = cells.length) :
    (t.derive source target f hf).outside names = t.outside names := by
  unfold derive
  split
  · rfl
  · exact t.outside_setColumn _ h

theorem outside_setIndicators {column : String} {keys : List (Option String)}
    (hlen : keys.length = t.height) {categories : List String}
    (h : ∀ k ∈ categories, column ++ "_" ++ k ∈ names) :
    (t.setIndicators column keys hlen categories).outside names = t.outside names := by
  induction categories generalizing t with
  | nil => rfl
  | cons k rest ih =>
    have hfirst := t.outside_setColumn (c := ⟨column ++ "_" ++ k, keys.map fun key =>
      .bool (key == some k)⟩) (by simpa using hlen) (h k List.mem_cons_self)
    rw [← hfirst]
    exact ih (t.setColumn _ _) hlen fun l hl => h l (List.mem_cons_of_mem k hl)

theorem mem_distinct {keys : List String} {k : String} : k ∈ distinct keys ↔ k ∈ keys := by
  have hfold : ∀ seen : List String,
      k ∈ keys.foldl (fun seen k => if seen.contains k then seen else seen ++ [k]) seen ↔
        k ∈ seen ∨ k ∈ keys := by
    induction keys with
    | nil => simp
    | cons a rest ih =>
      intro seen
      rw [List.foldl_cons, ih]
      split
      · rename_i ha
        rw [List.contains_iff_mem] at ha
        grind
      · grind
  simpa [distinct] using hfold []

theorem outside_oneHotEncode {column : String}
    (h : ∀ name ∈ (Change.encode column).writes t, name ∈ names) :
    (t.oneHotEncode column).outside names = t.outside names := by
  unfold oneHotEncode
  split
  · rfl
  · rename_i cells hcells
    rw [← t.outside_dropColumn (h column List.mem_cons_self)]
    apply outside_setIndicators
    intro k hk
    apply h
    rw [mem_distinct] at hk
    simp only [Change.writes, hcells, Option.getD_some]
    exact List.mem_cons_of_mem _ (List.mem_map_of_mem hk)

/-! ## Heights -/

theorem height_renameColumn (source target : String) :
    (t.renameColumn source target).height = t.height := by
  unfold renameColumn
  split <;> rfl

theorem height_derive (source target : String) (f : List Cell → List Cell)
    (hf : ∀ cells, (f cells).length = cells.length) :
    (t.derive source target f hf).height = t.height := by
  unfold derive
  split <;> rfl

theorem height_setIndicators (column : String) (keys : List (Option String))
    (hlen : keys.length = t.height) (categories : List String) :
    (t.setIndicators column keys hlen categories).height = t.height := by
  induction categories generalizing t with
  | nil => rfl
  | cons k rest ih => exact ih (t.setColumn _ _) hlen

theorem height_oneHotEncode (column : String) : (t.oneHotEncode column).height = t.height := by
  unfold oneHotEncode
  split
  · rfl
  · rw [height_setIndicators]
    rfl

/-! ## Selected rows -/

theorem removeDuplicateRows_eq_keepRows (subset : List String) :
    ∃ flags, ∃ h : flags.length = t.height, t.removeDuplicateRows subset = t.keepRows flags h := by
  unfold removeDuplicateRows
  split
  · refine ⟨List.replicate t.height true, by simp, ?_⟩
    rw [BareTable.keepRows_all]
    simp
  · exact ⟨_, by simp [length_firstFlags, rowKeys], rfl⟩

end Table

/-! ## All operations -/

namespace Change

theorem outside_apply (t : Table) (ch : Change) (h : ∀ subset, ch ≠ .select subset) :
    (ch.apply t).height = t.height ∧
      (ch.apply t).outside (ch.writes t) = t.outside (ch.writes t) := by
  cases ch with
  | keep => exact ⟨rfl, rfl⟩
  | drop column =>
    rw [Change.apply]
    split
    · exact ⟨rfl, rfl⟩
    · exact ⟨rfl, t.outside_dropColumn List.mem_cons_self⟩
  | rename source target =>
    rw [Change.apply]
    split
    · exact ⟨rfl, rfl⟩
    · exact ⟨t.height_renameColumn source target,
        t.outside_renameColumn List.mem_cons_self (List.mem_cons_of_mem _ List.mem_cons_self)⟩
  | map column f =>
    rw [Change.apply, Table.mapColumn]
    split
    · exact ⟨rfl, t.outside_mapCells List.mem_cons_self _⟩
    · exact ⟨rfl, rfl⟩
  | derive source target f hf =>
    exact ⟨t.height_derive source target f hf, t.outside_derive List.mem_cons_self f hf⟩
  | encode column =>
    exact ⟨t.height_oneHotEncode column, t.outside_oneHotEncode fun _ hn => hn⟩
  | select subset => exact absurd rfl (h subset)

end Change

def Column.pick (flags : List Bool) (c : Column) : Column :=
  { c with cells := Table.pick flags c.cells }

theorem Column.pick_all {flags : List Bool} {c : Column} (hl : flags.length = c.cells.length)
    (h : ∀ f ∈ flags, f = true) : c.pick flags = c := by
  rw [Column.pick, BareTable.pick_all hl h]

namespace Operation

theorem change_ne_select {op : Operation} (h : ∀ subset, op ≠ .removeDuplicateRows subset)
    (subset : List String) : op.change ≠ .select subset := by
  intro hs
  cases op with
  | removeDuplicateRows names => exact h names rfl
  | extractDatePart column part => cases part <;> cases hs
  | dropColumn | renameColumn | changeType | impute | replaceValues | oneHotEncode | labelEncode
  | scale | textClean | unsupported => cases hs

/-- Every operation keeps rows by flags, in the columns outside the names that it may write. -/
theorem exists_flags (t : Table) (op : Operation) :
    ∃ flags : List Bool, flags.length = t.height ∧
      ((∀ subset, op ≠ .removeDuplicateRows subset) → ∀ f ∈ flags, f = true) ∧
      (op.apply t).height = flags.count true ∧
      (op.apply t).outside (op.writes t) = (t.outside (op.writes t)).map (Column.pick flags) := by
  by_cases h : ∃ subset, op = .removeDuplicateRows subset
  · obtain ⟨subset, rfl⟩ := h
    obtain ⟨flags, hlen, heq⟩ := t.removeDuplicateRows_eq_keepRows subset
    refine ⟨flags, hlen, fun hne => absurd rfl (hne subset), ?_, ?_⟩
    · rw [Operation.apply, heq]
      rfl
    · rw [Operation.apply, heq, Operation.writes, Table.outside_nil, Table.outside_nil]
      rfl
  · have hne : ∀ subset, op.change ≠ .select subset :=
      change_ne_select fun subset hs => h ⟨subset, hs⟩
    obtain ⟨hheight, hout⟩ := Change.outside_apply t op.change hne
    rw [← apply_eq, writes_eq] at hout
    rw [← apply_eq] at hheight
    refine ⟨List.replicate t.height true, by simp, by simp, by simp [hheight], ?_⟩
    have hpick : ∀ c ∈ t.outside (op.writes t),
        c.pick (List.replicate t.height true) = id c := by
      intro c hc
      apply Column.pick_all
      · rw [List.length_replicate, t.length_cells c (Table.mem_outside.mp hc).1]
      · simp
    rw [hout, List.map_congr_left hpick, List.map_id]

/-- **Nothing else changes.** An operation keeps rows by flags, and all rows unless it removes
duplicates. The columns outside the names that it may write are all still there, with exactly the
kept rows and in their order, and every other column of the result has a name of the list. -/
theorem apply_outside (t : Table) (op : Operation) :
    ∃ flags : List Bool, flags.length = t.height ∧
      ((∀ subset, op ≠ .removeDuplicateRows subset) →
        (op.apply t).height = t.height ∧ ∀ c ∈ t.columns, c.pick flags = c) ∧
      (op.apply t).height = flags.count true ∧ (op.apply t).height ≤ t.height ∧
      (∀ c ∈ t.columns, c.name ∉ op.writes t → c.pick flags ∈ (op.apply t).columns) ∧
      (op.apply t).outside (op.writes t) = (t.outside (op.writes t)).map (Column.pick flags) ∧
      ∀ d ∈ (op.apply t).columns,
        d.name ∈ op.writes t ∨ ∃ c ∈ t.columns, c.name ∉ op.writes t ∧ d = c.pick flags := by
  obtain ⟨flags, hlen, hall, hheight, horder⟩ := exists_flags t op
  refine ⟨flags, hlen, ?_, hheight, ?_, ?_, horder, ?_⟩
  · intro hne
    constructor
    · rw [hheight, ← hlen, List.count_eq_length]
      exact fun f hf => (hall hne f hf).symm
    · intro c hc
      exact Column.pick_all (hlen.trans (t.length_cells c hc).symm) (hall hne)
  · rw [hheight, ← hlen]
    exact List.count_le_length
  · intro c hc hn
    have hmem : c.pick flags ∈ (t.outside (op.writes t)).map (Column.pick flags) :=
      List.mem_map_of_mem (Table.mem_outside.mpr ⟨hc, hn⟩)
    rw [← horder] at hmem
    exact (Table.mem_outside.mp hmem).1
  · intro d hd
    by_cases hn : d.name ∈ op.writes t
    · exact .inl hn
    · have hmem : d ∈ (op.apply t).outside (op.writes t) := Table.mem_outside.mpr ⟨hd, hn⟩
      rw [horder] at hmem
      obtain ⟨c, hc, rfl⟩ := List.mem_map.mp hmem
      obtain ⟨hc, hcn⟩ := Table.mem_outside.mp hc
      exact .inr ⟨c, hc, hcn, rfl⟩

end Operation

end TableCleaner
