import TableCleaner.Frame.Basic
import TableCleaner.Proofs.Decimal.Whole
import TableCleaner.Proofs.Table.Bare
import TableCleaner.Proofs.Table.Cells

/-!
# Tables that go through a frame

A series has one type, so a column of several kinds of cells comes back as a column of one kind:
integers among other numbers as numbers, any other mixture as texts. The keys say how much of a cell
is kept. A column of one kind comes back as it was, and what comes back is of one kind, so a second
time nothing changes any more.
-/

namespace TableCleaner

/-! ## One cell -/

theorem Cell.isNull_eq (c : Cell) : c.isNull = c.key.isNone := by
  cases c <;> rfl

theorem Cell.key_ofFloat_ofInt {i : Int64} (h : i.toInt.natAbs ≤ 2 ^ 53) :
    (Cell.ofFloat (Decimal.ofInt i.toInt)).key = (Cell.int i).key := by
  obtain ⟨hfinite, hchars⟩ := Decimal.chars_ofInt h
  rw [ofFloat, if_pos hfinite]
  exact congrArg (fun cs => some (String.ofList cs)) hchars

theorem Cell.int64?_toInt (i : Int64) : int64? i.toInt = some i := by
  have hlow := i.le_toInt
  have hhigh := i.toInt_lt
  rw [int64?, if_pos (by omega), Int64.ofInt_toInt]

namespace Series

theorem intCell_toInt (i : Int64) : intCell i.toInt = .int i := by
  rw [intCell, Cell.int64?_toInt]
  rfl

/-! ## One column -/

/-- How a cell of a column comes back from the series of the column. -/
def back (cells : List Cell) (c : Cell) : Cell :=
  let present := cells.filter (!·.isNull)
  if present.all isInt then cellOf intCell (intValue? c)
  else if present.all isNumber then cellOf Cell.ofFloat (floatValue? c)
  else if present.all isBool then cellOf .bool (boolValue? c)
  else cellOf .text c.key

theorem cells?_ofCells (cells : List Cell) :
    (ofCells cells).cells? = some (cells.map (back cells)) := by
  unfold ofCells back
  extract_lets present
  split
  · simp only [cells?, List.map_map]
    rfl
  · split
    · simp only [cells?, List.map_map]
      rfl
    · split <;> simp only [cells?, List.map_map] <;> rfl

/-- The cells are of one kind, but for empty ones. -/
inductive Uniform (cells : List Cell) : Prop
  | ints (h : ∀ c ∈ cells, c = .null ∨ ∃ i, c = .int i)
  | numbers (h : ∀ c ∈ cells, c = .null ∨ ∃ x, c = .number x ∧ x.isFinite = true)
  | bools (h : ∀ c ∈ cells, c = .null ∨ ∃ b, c = .bool b)
  | texts (h : ∀ c ∈ cells, c = .null ∨ ∃ s, c = .text s)

variable {cells : List Cell} {c : Cell}

theorem all_present_iff {p : Cell → Bool} :
    (cells.filter (!·.isNull)).all p = true ↔ ∀ c ∈ cells, c = .null ∨ p c = true := by
  simp only [List.all_eq_true, List.mem_filter, and_imp]
  refine forall₂_congr fun c _ => ?_
  cases c <;> simp [Cell.isNull]

theorem back_null (cells : List Cell) : back cells .null = .null := by
  unfold back
  extract_lets
  split
  · rfl
  · split
    · rfl
    · split <;> rfl

theorem cellOf_cases {α : Type} (f : α → Cell) (v : Option α) :
    cellOf f v = .null ∨ ∃ a, cellOf f v = f a := by
  cases v with
  | none => exact .inl rfl
  | some a => exact .inr ⟨a, rfl⟩

theorem uniform_back (cells : List Cell) : Uniform (cells.map (back cells)) := by
  unfold back
  extract_lets present
  split
  · apply Uniform.ints
    rw [List.forall_mem_map]
    intro c _
    rcases cellOf_cases intCell (intValue? c) with h | ⟨i, h⟩
    · exact .inl h
    · rw [h]
      exact cellOf_cases .int (Cell.int64? i)
  · split
    · apply Uniform.numbers
      rw [List.forall_mem_map]
      intro c _
      rcases cellOf_cases Cell.ofFloat (floatValue? c) with h | ⟨x, h⟩
      · exact .inl h
      · rw [h, Cell.ofFloat]
        split
        · exact .inr ⟨x, rfl, ‹_›⟩
        · exact .inl rfl
    · split
      · apply Uniform.bools
        rw [List.forall_mem_map]
        exact fun c _ => cellOf_cases .bool (boolValue? c)
      · apply Uniform.texts
        rw [List.forall_mem_map]
        exact fun c _ => cellOf_cases .text c.key

theorem not_all_present {p : Cell → Bool} (hc : c ∈ cells) (hnull : c ≠ .null)
    (hp : p c = false) : ¬ (cells.filter (!·.isNull)).all p = true := by
  intro hall
  rcases all_present_iff.mp hall c hc with h | h
  · exact hnull h
  · rw [hp] at h
    cases h

theorem back_of_uniform (h : Uniform cells) (hc : c ∈ cells) : back cells c = c := by
  by_cases hnull : c = .null
  · rw [hnull, back_null]
  -- The cell itself rules out the types before its own.
  unfold back
  cases h with
  | ints h =>
    have hall : ∀ d ∈ cells, d = .null ∨ isInt d = true := by
      intro d hd
      refine (h d hd).imp_right ?_
      rintro ⟨i, rfl⟩
      rfl
    obtain ⟨i, rfl⟩ := (h c hc).resolve_left hnull
    rw [if_pos (all_present_iff.mpr hall)]
    exact intCell_toInt i
  | numbers h =>
    have hall : ∀ d ∈ cells, d = .null ∨ isNumber d = true := by
      intro d hd
      refine (h d hd).imp_right ?_
      rintro ⟨x, rfl, -⟩
      rfl
    obtain ⟨x, rfl, hx⟩ := (h c hc).resolve_left hnull
    rw [if_neg (not_all_present hc hnull rfl), if_pos (all_present_iff.mpr hall)]
    exact if_pos hx
  | bools h =>
    have hall : ∀ d ∈ cells, d = .null ∨ isBool d = true := by
      intro d hd
      refine (h d hd).imp_right ?_
      rintro ⟨b, rfl⟩
      rfl
    obtain ⟨b, rfl⟩ := (h c hc).resolve_left hnull
    rw [if_neg (not_all_present hc hnull rfl), if_neg (not_all_present hc hnull rfl),
      if_pos (all_present_iff.mpr hall)]
    rfl
  | texts h =>
    obtain ⟨s, rfl⟩ := (h c hc).resolve_left hnull
    rw [if_neg (not_all_present hc hnull rfl), if_neg (not_all_present hc hnull rfl),
      if_neg (not_all_present hc hnull rfl)]
    rfl

/-- The column holds no infinite or undefined number, and it is not a column of numbers that has an
integer of more than 53 bits among other numbers. -/
structure Exact (cells : List Cell) : Prop where
  finite : ∀ x, .number x ∈ cells → x.isFinite = true
  narrow : ¬ ((∀ c ∈ cells, c = .null ∨ isNumber c = true) ∧ (∃ x, .number x ∈ cells) ∧
    ∃ i : Int64, .int i ∈ cells ∧ 2 ^ 53 < i.toInt.natAbs)

theorem key_back (h : Exact cells) (hc : c ∈ cells) : (back cells c).key = c.key := by
  by_cases hnull : c = .null
  · rw [hnull, back_null]
  unfold back
  extract_lets present
  split
  · rename_i hints
    have hint := (all_present_iff.mp hints c hc).resolve_left hnull
    cases c with
    | int i => exact congrArg Cell.key (intCell_toInt i)
    | null | number | text | bool | dateTime => cases hint
  rename_i hints
  split
  · rename_i hnumbers
    have hall := all_present_iff.mp hnumbers
    have hnumber := (hall c hc).resolve_left hnull
    cases c with
    | number x => exact congrArg Cell.key (if_pos (h.finite x hc))
    | int i =>
      -- Not all cells are integers, so one of them is a number.
      have hsome : ∃ x, .number x ∈ cells := by
        by_contra hnone
        refine hints (all_present_iff.mpr fun d hd => ?_)
        have hd' := hall d hd
        cases d with
        | null => exact .inl rfl
        | int j => exact .inr rfl
        | number x => exact absurd ⟨x, hd⟩ hnone
        | text | bool | dateTime => simp [isNumber] at hd'
      apply Cell.key_ofFloat_ofInt
      by_contra hwide
      exact h.narrow ⟨hall, hsome, i, hc, Nat.lt_of_not_le hwide⟩
    | null | text | bool | dateTime => cases hnumber
  split
  · rename_i hbools
    have hbool := (all_present_iff.mp hbools c hc).resolve_left hnull
    cases c with
    | bool b => rfl
    | null | number | int | text | dateTime => cases hbool
  · cases c with
    | null => exact absurd rfl hnull
    | number | int | text | bool | dateTime => rfl

end Series

/-! ## Whole tables -/

namespace Column

/-- A column as it comes back. -/
def back (c : Column) : Column := ⟨c.name, c.cells.map (Series.back c.cells)⟩

theorem back_of_uniform {c : Column} (h : Series.Uniform c.cells) : c.back = c := by
  have hcells : ∀ d ∈ c.cells, Series.back c.cells d = id d :=
    fun _ hd => Series.back_of_uniform h hd
  rw [back, List.map_congr_left hcells, List.map_id]

theorem back_back (c : Column) : c.back.back = c.back :=
  back_of_uniform (Series.uniform_back c.cells)

theorem key_back {c : Column} (h : Series.Exact c.cells) (row : Nat) :
    c.back.cells[row]?.map Cell.key = c.cells[row]?.map Cell.key := by
  rw [back, List.getElem?_map, Option.map_map]
  apply Option.map_congr
  intro d hd
  exact Series.key_back h (List.mem_of_getElem? hd)

end Column

/-- The table that comes back from the frame of a table. -/
def Table.throughFrame? (t : Table) : Except FrameError Table := do
  let f ← Frame.ofSeries? (Frame.ofTable t)
  f.toTable?

namespace Frame

theorem ofSeries?_eq_ok {series : List NamedSeries} {height : Nat}
    (hlen : ∀ s ∈ series, s.series.length = height) (hnodup : (series.map (·.name)).Nodup) :
    ofSeries? series = .ok series := by
  have hfirst : ∀ s ∈ series,
      s.series.length = (series.head?.map (·.series.length)).getD 0 := by
    cases series with
    | nil => simp
    | cons first rest => exact fun s hs => (hlen s hs).trans (hlen first List.mem_cons_self).symm
  have hnames : (series.zipIdx).find? (fun p => (series.take p.2).any (·.name == p.1.name)) =
      none := by
    rw [List.find?_eq_none]
    rintro ⟨s, i⟩ hs hany
    obtain ⟨hi, hitem⟩ := List.mem_zipIdx' hs
    obtain ⟨d, hd, hname⟩ := List.any_eq_true.mp hany
    obtain ⟨j, hj, rfl⟩ := List.mem_take_iff_getElem.mp hd
    -- An earlier series has another name.
    have hlt : j < i := (Nat.lt_min.mp hj).1
    have hne := List.pairwise_iff_getElem.mp (List.pairwise_map.mp hnodup) j i (hlt.trans hi) hi hlt
    rw [← hitem] at hne
    exact hne (beq_iff_eq.mp hname)
  unfold ofSeries?
  extract_lets first
  rw [if_neg (by simpa using hfirst), hnames]

theorem length_ofCells (cells : List Cell) : (Series.ofCells cells).length = cells.length := by
  unfold Series.ofCells
  extract_lets present
  split
  · exact List.length_map ..
  · split
    · exact List.length_map ..
    · split <;> exact List.length_map ..

theorem columns?_ofColumns (columns : List Column) :
    columns? (columns.map fun c => ⟨c.name, Series.ofCells c.cells⟩) =
      .ok (columns.map Column.back) := by
  induction columns with
  | nil => rfl
  | cons c rest ih =>
    rw [List.map_cons, columns?, Series.cells?_ofCells]
    simp only [ih]
    rfl

theorem toTable?_eq_ok {f : Frame} {columns : List Column} {t : Table}
    (hcolumns : columns? f = .ok columns) (ht : Table.ofColumns? columns = .ok t) :
    f.toTable? = .ok t := by
  unfold toTable?
  rw [hcolumns]
  simp only [ht]

end Frame

namespace Table

theorem exists_throughFrame? (t : Table) : ∃ s : Table, t.throughFrame? = .ok s ∧
    s.columns = t.columns.map Column.back ∧ s.height = heightOf s.columns := by
  have hframe : Frame.ofSeries? (Frame.ofTable t) = .ok (Frame.ofTable t) := by
    apply Frame.ofSeries?_eq_ok
    · intro s hs
      obtain ⟨c, hc, rfl⟩ := List.mem_map.mp hs
      exact (Frame.length_ofCells c.cells).trans (t.length_cells c hc)
    · simpa [Frame.ofTable, Function.comp_def] using t.names_nodup
  have hcolumns : Frame.columns? (Frame.ofTable t) = .ok (t.columns.map Column.back) :=
    Frame.columns?_ofColumns t.columns
  obtain ⟨s, hs⟩ := (ofColumns?_isOk_iff (t.columns.map Column.back)).mpr <| by
    constructor
    · simp only [List.forall_mem_map, Column.back, List.length_map]
      intro c hc d hd
      rw [t.length_cells c hc, t.length_cells d hd]
    · simpa [Column.back, Function.comp_def] using t.names_nodup
  obtain ⟨hback, hheight⟩ := ofColumns?_eq_ok_iff.mp hs
  refine ⟨s, ?_, hback, by rw [hheight, hback]⟩
  rw [throughFrame?, hframe]
  exact Frame.toTable?_eq_ok hcolumns hs

/-- **There and back.** Every table makes a frame and comes back, and a second time nothing changes.
The names stay, and columns of one kind stay as they are. A table that has columns, and only exact
ones, keeps its height, its empty cells and the keys of all cells. -/
theorem throughFrame_retracts (t : Table) : ∃ s : Table,
    t.throughFrame? = .ok s ∧ s.throughFrame? = .ok s ∧ s.names = t.names ∧
    (∀ c ∈ t.columns, Series.Uniform c.cells → s.column? c.name = some c) ∧
    (t.columns ≠ [] → (∀ c ∈ t.columns, Series.Exact c.cells) → s.height = t.height ∧
      ∀ name row, (s.cell? name row).map Cell.key = (t.cell? name row).map Cell.key ∧
        (s.cell? name row).map Cell.isNull = (t.cell? name row).map Cell.isNull) := by
  obtain ⟨s, hs, hcolumns, hheight⟩ := t.exists_throughFrame?
  have hcolumn : ∀ name, s.column? name = (t.column? name).map Column.back := by
    intro name
    rw [column?, hcolumns]
    exact find?_map_name fun _ _ => rfl
  refine ⟨s, hs, ?_, ?_, ?_, ?_⟩
  · obtain ⟨s', hs', hcolumns', hheight'⟩ := s.exists_throughFrame?
    have hsame : s'.columns = s.columns := by
      rw [hcolumns', hcolumns, List.map_map]
      exact List.map_congr_left fun c _ => c.back_back
    rw [hs', ext hsame (by rw [hheight', hheight, hsame])]
  · rw [names, hcolumns, List.map_map]
    rfl
  · intro c hc huniform
    rw [hcolumn, column?_of_mem hc, Option.map_some, Column.back_of_uniform huniform]
  · intro hne hexact
    constructor
    · obtain ⟨c, rest, hcons⟩ := List.exists_cons_of_ne_nil hne
      have hlen := t.length_cells c (by rw [hcons]; exact List.mem_cons_self)
      rw [hheight, hcolumns, hcons]
      simpa [heightOf, Column.back] using hlen
    · intro name row
      have hkey : (s.cell? name row).map Cell.key = (t.cell? name row).map Cell.key := by
        unfold cell?
        rw [hcolumn]
        cases hc : t.column? name with
        | none => rfl
        | some c => exact Column.key_back (hexact c (List.mem_of_find?_eq_some hc)) row
      have hnull : Cell.isNull = Option.isNone ∘ Cell.key := funext Cell.isNull_eq
      refine ⟨hkey, ?_⟩
      rw [hnull, ← Option.map_map, ← Option.map_map, hkey]

theorem throughFrame_retracts_mixed : ∃ t s : Table,
    t.columns = [⟨"n", [.int 1, .null, .number 0.5]⟩, ⟨"m", [.bool true, .text "a", .null]⟩] ∧
    t.throughFrame? = .ok s ∧
    s.columns = [⟨"n", [.number 1.0, .null, .number 0.5]⟩,
      ⟨"m", [.text "true", .text "a", .null]⟩] ∧
    s.height = t.height ∧
    ∀ name row, (s.cell? name row).map Cell.key = (t.cell? name row).map Cell.key := by
  let t : Table :=
    ⟨[⟨"n", [.int 1, .null, .number 0.5]⟩, ⟨"m", [.bool true, .text "a", .null]⟩], 3, by decide,
      by decide⟩
  have hnumbers : Series.Exact [.int 1, .null, .number 0.5] := by
    constructor
    · intro x hx
      obtain rfl : x = 0.5 := by simpa using hx
      decide +kernel
    · rintro ⟨-, -, i, hi, hwide⟩
      obtain rfl : i = 1 := by simpa using hi
      exact absurd hwide (by decide)
  have htexts : Series.Exact [.bool true, .text "a", .null] := by
    constructor
    · simp
    · rintro ⟨-, ⟨x, hx⟩, -⟩
      simp at hx
  have hexact : ∀ c ∈ t.columns, Series.Exact c.cells := by
    simp [t, hnumbers, htexts]
  obtain ⟨s, hs, -, -, -, hkeys⟩ := throughFrame_retracts t
  obtain ⟨s', hs', hcolumns, -⟩ := t.exists_throughFrame?
  obtain rfl : s = s' := by
    rw [hs] at hs'
    exact Except.ok.inj hs'
  obtain ⟨hheight, hcells⟩ := hkeys (by simp [t]) hexact
  refine ⟨t, s, rfl, hs, ?_, hheight, fun name row => (hcells name row).1⟩
  rw [hcolumns]
  decide +kernel

end Table

end TableCleaner
