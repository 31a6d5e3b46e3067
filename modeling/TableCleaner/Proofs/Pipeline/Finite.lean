import TableCleaner.Pipeline.Run
import TableCleaner.Proofs.Frame.RoundTrip
import TableCleaner.Proofs.Operation.Twice
import TableCleaner.Proofs.Json.Record

/-!
# Only finite numbers

Numbers come into a table from texts, from the parameters of steps, from statistics, from scales
and from frames. At each of these places infinity and the undefined number become empty cells, so
no run ever meets them, and no number of a record is lost.
-/

namespace TableCleaner

/-! ## A property of all cells -/

/-- All cells of a table have a property. -/
def Table.All (P : Cell → Prop) (t : Table) : Prop := ∀ c ∈ t.columns, ∀ d ∈ c.cells, P d

/-- The cells that a change makes have a property if those that it finds have it. -/
def Change.Keeps (P : Cell → Prop) : Change → Prop
  | keep | drop _ | rename _ _ | encode _ | select _ => True
  | map _ f => ∀ cells, (∀ d ∈ cells, P d) → ∀ d, P d → P (f cells d)
  | derive _ _ f _ => ∀ cells, (∀ d ∈ cells, P d) → ∀ d ∈ f cells, P d

namespace Table

variable {P : Cell → Prop} {t : Table} {name : String} {cells : List Cell}

theorem All.of_cells? (ht : t.All P) (h : t.cells? name = some cells) : ∀ d ∈ cells, P d := by
  have hname : name ≠ "" := fun hempty => by simp [cells?, hempty] at h
  rw [cells?_eq hname] at h
  obtain ⟨c, hc, rfl⟩ := Option.map_eq_some_iff.mp h
  exact ht c (List.mem_of_find?_eq_some hc)

theorem All.mapCells (ht : t.All P) {f : Cell → Cell} (hf : ∀ d, P d → P (f d)) :
    (t.mapCells name f).All P := by
  intro c hc
  obtain ⟨c, hmem, rfl⟩ := List.mem_map.mp hc
  split
  · rw [List.forall_mem_map]
    exact fun d hd => hf d (ht c hmem d hd)
  · exact ht c hmem

theorem All.dropColumn (ht : t.All P) : (t.dropColumn name).All P :=
  fun c hc => ht c (List.mem_filter.mp hc).1

theorem All.renameColumn (ht : t.All P) (target : String) : (t.renameColumn name target).All P := by
  unfold Table.renameColumn
  split
  · exact ht
  · intro c hc
    obtain ⟨d, hd, rfl⟩ := List.mem_map.mp hc
    split <;> exact ht.dropColumn d hd

theorem All.setColumn (ht : t.All P) {c : Column} (hlen : c.cells.length = t.height)
    (hc : ∀ d ∈ c.cells, P d) : (t.setColumn c hlen).All P := by
  intro d hd
  simp only [Table.setColumn] at hd
  split at hd
  · obtain ⟨e, he, rfl⟩ := List.mem_map.mp hd
    split
    · exact hc
    · exact ht e he
  · rcases List.mem_append.mp hd with hd | hd
    · exact ht d hd
    · rw [List.mem_singleton.mp hd]
      exact hc

theorem All.setIndicators (ht : t.All P) (hbool : ∀ b, P (.bool b)) {keys : List (Option String)}
    (hlen : keys.length = t.height) (categories : List String) :
    (t.setIndicators name keys hlen categories).All P := by
  induction categories generalizing t with
  | nil => exact ht
  | cons k rest ih =>
    apply ih
    apply ht.setColumn
    rw [List.forall_mem_map]
    exact fun key _ => hbool _

theorem All.oneHotEncode (ht : t.All P) (hbool : ∀ b, P (.bool b)) (name : String) :
    (t.oneHotEncode name).All P := by
  unfold Table.oneHotEncode
  split
  · exact ht
  · exact ht.dropColumn.setIndicators hbool _ _

theorem mem_of_mem_pick {α : Type} {flags : List Bool} {l : List α} {a : α}
    (h : a ∈ pick flags l) : a ∈ l := by
  fun_induction pick flags l with
  | case1 flags b rest ih =>
    rcases List.mem_cons.mp h with rfl | h
    · exact List.mem_cons_self
    · exact List.mem_cons_of_mem b (ih h)
  | case2 flags b rest ih => exact List.mem_cons_of_mem b (ih h)
  | case3 => simp at h

theorem All.removeDuplicateRows (ht : t.All P) (subset : List String) :
    (t.removeDuplicateRows subset).All P := by
  unfold Table.removeDuplicateRows
  split
  · exact ht
  · intro c hc d hd
    obtain ⟨e, he, rfl⟩ := List.mem_map.mp hc
    exact ht e he d (mem_of_mem_pick hd)

end Table

theorem Change.all_apply {P : Cell → Prop} {t : Table} {ch : Change} (hbool : ∀ b, P (.bool b))
    (hch : ch.Keeps P) (ht : t.All P) : (ch.apply t).All P := by
  cases ch with
  | keep => exact ht
  | drop column =>
    simp only [apply]
    split
    · exact ht
    · exact ht.dropColumn
  | rename source target =>
    simp only [apply]
    split
    · exact ht
    · exact ht.renameColumn target
  | map column f =>
    simp only [apply, Table.mapColumn]
    split
    · rename_i cells hcells
      exact ht.mapCells (hch cells (ht.of_cells? hcells))
    · exact ht
  | derive source target f hf =>
    change (t.derive source target f hf).All P
    cases hcells : t.cells? source with
    | none =>
      rw [Table.derive_of_none hcells]
      exact ht
    | some cells =>
      rw [Table.derive_of_some hcells]
      exact ht.setColumn _ (hch cells (ht.of_cells? hcells))
  | encode column => exact ht.oneHotEncode hbool column
  | select subset => exact ht.removeDuplicateRows subset

/-! ## Finite cells -/

/-- The cell is no number, or a finite one. -/
def Cell.isFinite : Cell → Bool
  | number x => x.isFinite
  | _ => true

namespace Cell

theorem isFinite_ofFloat (x : Float) : (ofFloat x).isFinite = true := by
  unfold ofFloat
  split
  · assumption
  · rfl

theorem isFinite_ofJson (v : Json) : (ofJson v).isFinite = true := by
  cases v with
  | int i =>
    simp only [ofJson]
    split
    · rfl
    · exact isFinite_ofFloat _
  | float x => exact isFinite_ofFloat x
  | null | bool | text | array | object => rfl

theorem toJson_eq_null_iff {c : Cell} (h : c.isFinite = true) : c.toJson = .null ↔ c = .null := by
  cases c with
  | number x =>
    rw [isFinite] at h
    simp [toJson, h]
  | null | int | text | bool | dateTime => simp [toJson]

end Cell

namespace Table

theorem isFinite_convertCell (type : TargetType) {c : Cell} (h : c.isFinite = true) :
    (convertCell type c).isFinite = true := by
  cases type with
  | numeric =>
    by_cases hint : ∃ i, c = .int i
    · obtain ⟨i, rfl⟩ := hint
      rfl
    · have hint : ∀ i, c ≠ .int i := fun i hi => hint ⟨i, hi⟩
      rw [convertCell_numeric hint]
      cases hx : c.number? with
      | none => rfl
      | some x => exact Cell.isFinite_of_number? hx hint
  | string => cases c <;> rfl
  | boolean => rfl
  | datetime =>
    simp only [convertCell]
    cases c.dateTime? <;> rfl

theorem isFinite_of_fill? {cells : List Cell} {value : Option Json} {strategy : ImputeStrategy}
    {fill : Cell} (hcells : ∀ d ∈ cells, d.isFinite = true)
    (h : fill? cells value strategy = some fill) : fill.isFinite = true := by
  cases strategy with
  | mean | median =>
    obtain ⟨x, -, rfl⟩ := Option.map_eq_some_iff.mp h
    exact Cell.isFinite_ofFloat x
  | mode =>
    obtain ⟨k, -, hfind⟩ := Option.bind_eq_some_iff.mp h
    exact hcells fill (List.mem_of_find?_eq_some hfind)
  | custom =>
    obtain ⟨v, -, rfl⟩ := Option.map_eq_some_iff.mp h
    exact Cell.isFinite_ofJson v

theorem isFinite_scaledCells (scaler : Scaler) (cells : List Cell) :
    ∀ d ∈ scaledCells scaler cells, d.isFinite = true := by
  unfold scaledCells
  split
  · rw [List.forall_mem_map]
    intro c _
    unfold scaledCell
    split
    · exact Cell.isFinite_ofFloat _
    · rfl
  · rw [List.forall_mem_map]
    exact fun _ _ => rfl

theorem isFinite_labelCells (cells : List Cell) :
    ∀ d ∈ labelCells cells, d.isFinite = true := by
  unfold labelCells
  rw [List.forall_mem_map]
  intro c _
  unfold labelCell
  split <;> rfl

theorem isFinite_datePartCell (part : DatePart) (c : Cell) :
    (datePartCell part c).isFinite = true := by
  unfold datePartCell
  split <;> rfl

/-- The table has no infinite and no undefined number. -/
def Finite (t : Table) : Prop := t.All fun c => c.isFinite = true

end Table

theorem Operation.fillCell_eq (strategy : Option ImputeStrategy) (value : Option Json)
    (cells : List Cell) (c : Cell) : fillCell strategy value cells c = c ∨
      ∃ s, Table.fill? cells value s = some (fillCell strategy value cells c) := by
  unfold fillCell
  cases hfill : strategy.bind (Table.fill? cells value) with
  | none => exact .inl rfl
  | some fill =>
    obtain ⟨s, -, hfill⟩ := Option.bind_eq_some_iff.mp hfill
    by_cases hnull : fill.isNull = true
    · exact .inl (by simp [hnull])
    · by_cases hc : c.isNull = true
      · exact .inr ⟨s, by simpa [hnull, hc] using hfill⟩
      · exact .inl (by simp [hnull, hc])

theorem Operation.keeps_finite (op : Operation) :
    op.change.Keeps fun c => c.isFinite = true := by
  cases op with
  | dropColumn | renameColumn | removeDuplicateRows | oneHotEncode | unsupported => exact trivial
  | changeType column toType =>
    intro cells _ c hc
    cases toType with
    | none => exact hc
    | some type => exact Table.isFinite_convertCell type hc
  | impute column strategy value =>
    intro cells hcells c hc
    rcases fillCell_eq strategy value cells c with heq | ⟨s, hfill⟩
    · simpa [change, heq] using hc
    · exact Table.isFinite_of_fill? hcells hfill
  | replaceValues column matching replacement =>
    intro cells _ c hc
    unfold replaceCell
    split
    · simp only
      split
      · exact Cell.isFinite_ofJson _
      · exact hc
    · exact hc
  | labelEncode column => exact fun cells _ => Table.isFinite_labelCells cells
  | scale scaler column => exact fun cells _ => Table.isFinite_scaledCells scaler cells
  | textClean column flags =>
    intro cells _ c _
    cases c <;> rfl
  | extractDatePart column part =>
    cases part with
    | none => exact trivial
    | some part =>
      intro cells _
      rw [List.forall_mem_map]
      exact fun c _ => Table.isFinite_datePartCell part c

theorem Operation.finite_apply {t : Table} (op : Operation) (h : t.Finite) :
    (op.apply t).Finite := by
  rw [apply_eq]
  exact Change.all_apply (fun _ => rfl) op.keeps_finite h

/-! ## Tables of frames -/

namespace Series

theorem isFinite_cellOf {α : Type} {f : α → Cell} (hf : ∀ a, (f a).isFinite = true)
    (v : Option α) : (cellOf f v).isFinite = true := by
  cases v with
  | none => rfl
  | some a => exact hf a

theorem isFinite_of_cells? {s : Series} {cells : List Cell} (h : s.cells? = some cells) :
    ∀ d ∈ cells, d.isFinite = true := by
  cases s with
  | bool vs | text vs =>
    obtain rfl := Option.some.inj h
    rw [List.forall_mem_map]
    exact fun v _ => isFinite_cellOf (fun _ => rfl) v
  | int type vs =>
    obtain rfl := Option.some.inj h
    rw [List.forall_mem_map]
    exact fun v _ => isFinite_cellOf (fun _ => isFinite_cellOf (fun _ => rfl) _) v
  | float32 vs | float64 vs =>
    obtain rfl := Option.some.inj h
    rw [List.forall_mem_map]
    exact fun v _ => isFinite_cellOf (fun _ => Cell.isFinite_ofFloat _) v
  | date vs | dateTime unit vs =>
    obtain rfl := Option.some.inj h
    rw [List.forall_mem_map]
    have hread : ∀ text, (readCell text).isFinite = true := fun _ => isFinite_cellOf (fun _ => rfl) _
    exact fun v _ => isFinite_cellOf (fun _ => isFinite_cellOf hread _) v
  | time vs =>
    obtain rfl := Option.some.inj h
    rw [List.forall_mem_map]
    exact fun v _ => isFinite_cellOf (fun _ => isFinite_cellOf (fun _ => rfl) _) v
  | duration unit vs =>
    simp only [cells?] at h
    split at h
    · obtain rfl := Option.some.inj h
      rw [List.forall_mem_map]
      exact fun _ _ => rfl
    · cases h
  | empty n =>
    obtain rfl := Option.some.inj h
    intro d hd
    rw [List.eq_of_mem_replicate hd]
    rfl

end Series

namespace Frame

theorem exists_cells?_of_columns? {f : Frame} {columns : List Column}
    (h : columns? f = .ok columns) :
    ∀ c ∈ columns, ∃ s ∈ f, s.name = c.name ∧ s.series.cells? = some c.cells := by
  induction f generalizing columns with
  | nil =>
    obtain rfl := Except.ok.inj h
    simp
  | cons s rest ih =>
    rw [columns?] at h
    split at h
    · cases h
    · rename_i cells hcells
      cases hrest : columns? rest with
      | error e =>
        rw [hrest] at h
        cases h
      | ok others =>
        rw [hrest] at h
        obtain rfl := Except.ok.inj h
        simp only [List.forall_mem_cons]
        constructor
        · exact ⟨s, List.mem_cons_self, rfl, hcells⟩
        · intro c hc
          obtain ⟨u, hu, hname, hcells⟩ := ih hrest c hc
          exact ⟨u, List.mem_cons_of_mem s hu, hname, hcells⟩

theorem columns?_of_toTable? {f : Frame} {t : Table} (h : f.toTable? = .ok t) :
    columns? f = .ok t.columns := by
  unfold toTable? at h
  split at h
  · cases h
  · rename_i columns hcolumns
    split at h
    · cases h
    · rename_i s hs
      obtain rfl := Except.ok.inj h
      rw [hcolumns, (Table.ofColumns?_eq_ok_iff.mp hs).1]

theorem finite_of_toTable? {f : Frame} {t : Table} (h : f.toTable? = .ok t) : t.Finite := by
  intro c hc
  obtain ⟨s, -, -, hcells⟩ := exists_cells?_of_columns? (columns?_of_toTable? h) c hc
  exact Series.isFinite_of_cells? hcells

end Frame

/-! ## Records -/

theorem Table.exists_record {t : Table} {c : Column} {d : Cell} {i : Nat} (hc : c ∈ t.columns)
    (hd : c.cells[i]? = some d) :
    ∃ r : Record, t.records[i]? = some r ∧ r.get? c.name = some d.toJson := by
  have hi : i < t.height := by
    rw [← t.length_cells c hc]
    exact (List.getElem?_eq_some_iff.mp hd).1
  refine ⟨_, by simp only [records, List.getElem?_map, List.getElem?_range hi]; rfl, ?_⟩
  rw [Record.get?_ofEntries]
  apply Record.lastValue?_of_mem
  · simpa [Function.comp_def] using t.names_nodup
  · refine List.mem_map.mpr ⟨c, hc, ?_⟩
    rw [List.getD_eq_getElem?_getD, hd]
    rfl

namespace Pipeline

theorem finite_states {t : Table} (steps : Pipeline) (h : t.Finite) :
    ∀ s ∈ t :: states t steps, s.Finite := by
  induction steps generalizing t with
  | nil => simpa [states] using h
  | cons step rest ih =>
    rw [List.forall_mem_cons]
    exact ⟨h, ih (step.operation.finite_apply h)⟩

/-- **Only finite numbers.** A table of a frame has no infinite and no undefined number, and no run
brings one into a table that has none. So in every table of a run the records hold the values of
all cells, and `null` only for empty ones. -/
theorem finite_run :
    (∀ (f : Frame) (t : Table), f.toTable? = .ok t → t.Finite) ∧
    ∀ (t : Table) (steps : Pipeline), t.Finite → ∀ s ∈ t :: states t steps,
      s.Finite ∧ ∀ c ∈ s.columns, ∀ (i : Nat) (d : Cell), c.cells[i]? = some d →
        (d.toJson = .null ↔ d = .null) ∧
        ∃ r : Record, s.records[i]? = some r ∧ r.get? c.name = some d.toJson := by
  refine ⟨fun f t => Frame.finite_of_toTable?, ?_⟩
  intro t steps ht s hs
  have hfinite := finite_states steps ht s hs
  refine ⟨hfinite, fun c hc i d hd => ⟨?_, Table.exists_record hc hd⟩⟩
  exact Cell.toJson_eq_null_iff (hfinite c hc d (List.mem_of_getElem? hd))

/-- A frame holds infinity and an undefined number, its texts are read as numbers, and a scale
overflows. -/
theorem finite_run_overflow : ∃ (f : Frame) (t : Table) (steps : Pipeline),
    f = [⟨"x", .float64 [some (1.0 / 0.0), some (0.0 / 0.0), some 1.5]⟩,
      ⟨"s", .text [some "1e400", some "inf", some "1e308"]⟩,
      ⟨"w", .float64 [some 1e308, some (-1e308), none]⟩] ∧
    f.toTable? = .ok t ∧
    t.columns = [⟨"x", [.null, .null, .number 1.5]⟩,
      ⟨"s", [.text "1e400", .text "inf", .text "1e308"]⟩,
      ⟨"w", [.number 1e308, .number (-1e308), .null]⟩] ∧
    (run t steps).columns = [⟨"x", [.number 1e300, .number 1e300, .number 1.5]⟩,
      ⟨"s", [.null, .null, .number 1e308]⟩,
      ⟨"w", [.number 1e308, .number (-1e308), .null]⟩, ⟨"w_minmax", [.null, .number 0.0, .null]⟩] ∧
    ∀ s ∈ t :: states t steps, s.Finite := by
  let f : Frame := [⟨"x", .float64 [some (1.0 / 0.0), some (0.0 / 0.0), some 1.5]⟩,
    ⟨"s", .text [some "1e400", some "inf", some "1e308"]⟩,
    ⟨"w", .float64 [some 1e308, some (-1e308), none]⟩]
  let t : Table := ⟨[⟨"x", [.null, .null, .number 1.5]⟩,
      ⟨"s", [.text "1e400", .text "inf", .text "1e308"]⟩,
      ⟨"w", [.number 1e308, .number (-1e308), .null]⟩], 3, by decide, by decide⟩
  let steps : Pipeline := [⟨.impute "x" (some .custom) (some (.float 1e300)), .empty⟩,
    ⟨.changeType "s" (some .numeric), .empty⟩, ⟨.scale .minMax "w", .empty⟩]
  have hcolumns : Frame.columns? f = .ok t.columns := by decide +kernel
  have ht : f.toTable? = .ok t :=
    Frame.toTable?_eq_ok hcolumns (Table.ofColumns?_eq_ok_iff.mpr ⟨rfl, rfl⟩)
  refine ⟨f, t, steps, rfl, ht, rfl, by decide +kernel, ?_⟩
  exact fun s hs => (finite_run.2 t steps (finite_run.1 f t ht) s hs).1

end Pipeline

end TableCleaner
