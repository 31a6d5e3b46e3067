import TableCleaner.Proofs.Operation.Head
import TableCleaner.Proofs.Operation.Indicators

/-!
# Labels

A label is the place of a key among the distinct keys. Row by row, a key that was met before has its
label again, and a new one has the next number.
-/

namespace TableCleaner

namespace Table

/-- The label as a number. -/
def labelCode (keys : List String) (c : Cell) : Int64 :=
  match c.key.bind fun k => keys.findIdx? (· == k) with
  | some i => Int64.ofNat i
  | none => -1

/-- The labels of a column. -/
def labelCodes (cells : List Cell) : List Int64 :=
  cells.map (labelCode (distinct (presentKeys cells)))

/-- The largest label of some rows, and -1 where there are none. -/
def largestCode (codes : List Int64) : Int := codes.foldl (fun most code => max most code.toInt) (-1)

variable {keys : List String} {cells : List Cell} {c : Cell} {k : String}

/-! ## One label -/

theorem labelCell_eq_code (keys : List String) (c : Cell) :
    labelCell keys c = .int (labelCode keys c) := by
  unfold labelCell labelCode
  cases c.key.bind fun k => keys.findIdx? (· == k) <;> rfl

theorem labelCells_eq_codes (cells : List Cell) :
    labelCells cells = (labelCodes cells).map Cell.int := by
  unfold labelCells labelCodes
  rw [List.map_map]
  exact List.map_congr_left fun c _ => labelCell_eq_code _ c

theorem labelCode_of_none (keys : List String) (h : c.key = none) : labelCode keys c = -1 := by
  simp [labelCode, h]

theorem labelCode_of_some (h : c.key = some k) (hk : k ∈ keys) :
    ∃ i, ∃ hi : i < keys.length, keys[i] = k ∧ labelCode keys c = Int64.ofNat i := by
  obtain ⟨i, hi, hget, hlabel⟩ := labelCell_of_some h hk
  rw [labelCell_eq_code] at hlabel
  exact ⟨i, hi, hget, Cell.int.inj hlabel⟩

theorem labelCode_concat (h : c.key = some k) (hk : k ∉ keys) :
    labelCode (keys ++ [k]) c = Int64.ofNat keys.length := by
  have hnone : keys.findIdx? (· == k) = none :=
    List.findIdx?_eq_none_iff.mpr fun l hl => beq_false_of_ne fun he => hk (he ▸ hl)
  simp [labelCode, h, List.findIdx?_append, hnone]

/-! ## Row after row -/

theorem labelCodes_take (cells : List Cell) (n : Nat) :
    labelCodes (cells.take n) = (labelCodes cells).take n := by
  have h := labelCells_take cells n
  rw [labelCells_eq_codes, labelCells_eq_codes, ← List.map_take] at h
  exact (List.map_inj_right fun _ _ => Cell.int.inj).mp h

theorem labelCodes_concat (cells : List Cell) (c : Cell) :
    labelCodes (cells ++ [c]) =
      labelCodes cells ++ [labelCode (distinct (presentKeys (cells ++ [c]))) c] := by
  have hbefore := labelCodes_take (cells ++ [c]) cells.length
  rw [List.take_left] at hbefore
  rw [hbefore]
  simp [labelCodes]

theorem length_categories_le (cells : List Cell) :
    (distinct (presentKeys cells)).length ≤ cells.length :=
  Nat.le_trans (length_distinct_le _) (List.length_filterMap_le ..)

theorem toInt_ofNat {i n : Nat} (hi : i < n) (hn : n ≤ 0x8000000000000000) :
    (Int64.ofNat i).toInt = i :=
  Int64.toInt_ofNat_of_lt (by omega)

theorem largestCode_labelCodes (h : cells.length ≤ 0x8000000000000000) :
    largestCode (labelCodes cells) + 1 = (distinct (presentKeys cells)).length := by
  induction cells using List.reverseRecOn with
  | nil => rfl
  | append_singleton cells c ih =>
    have hlen : cells.length + 1 ≤ 0x8000000000000000 := by simpa using h
    have hbefore := ih (by omega)
    have hstep : largestCode (labelCodes (cells ++ [c])) = max (largestCode (labelCodes cells))
        (labelCode (distinct (presentKeys (cells ++ [c]))) c).toInt := by
      rw [labelCodes_concat, largestCode, List.foldl_append]
      rfl
    have hkeys := length_categories_le cells
    rw [hstep, presentKeys_concat]
    cases hc : c.key with
    | none =>
      rw [Option.toList_none, List.append_nil, labelCode_of_none _ hc]
      have hminus : (-1 : Int64).toInt = -1 := rfl
      omega
    | some k =>
      rw [Option.toList_some, distinct_concat]
      split
      · rename_i hold
        obtain ⟨i, hi, -, hcode⟩ := labelCode_of_some hc (mem_distinct.mpr hold)
        rw [hcode, toInt_ofNat hi (by omega)]
        omega
      · rename_i hnew
        rw [labelCode_concat hc (mt mem_distinct.mp hnew), List.length_append,
          List.length_singleton, toInt_ofNat (Nat.lt_succ_self _) (by omega)]
        omega

theorem labelCode_of_row {row : Nat} (hrow : cells[row]? = some c) :
    labelCode (distinct (presentKeys cells)) c =
      labelCode (distinct (presentKeys (cells.take row ++ [c]))) c := by
  have htake : cells.take (row + 1) = cells.take row ++ [c] := by
    rw [List.take_add_one, hrow, Option.toList_some]
  have hcodes := labelCodes_take cells (row + 1)
  rw [htake, labelCodes_concat, List.take_add_one, ← labelCodes_take] at hcodes
  have hlast := List.append_cancel_left hcodes
  simpa [labelCodes, hrow] using hlast.symm

theorem toInt_labelCode_of_new {row : Nat} (h : cells.length ≤ 0x8000000000000000)
    (hrow : cells[row]? = some c) (hk : c.key = some k)
    (hnew : ∀ d ∈ cells.take row, d.key ≠ c.key) :
    (labelCode (distinct (presentKeys cells)) c).toInt =
      (distinct (presentKeys (cells.take row))).length := by
  have hmiss : k ∉ presentKeys (cells.take row) := by
    intro hmem
    obtain ⟨d, hd, hdk⟩ := List.mem_filterMap.mp hmem
    exact hnew d hd (hdk.trans hk.symm)
  have hcount := length_categories_le (cells.take row)
  have hlt : row < cells.length := (List.getElem?_eq_some_iff.mp hrow).1
  rw [List.length_take_of_le (Nat.le_of_lt hlt)] at hcount
  rw [labelCode_of_row hrow, presentKeys_concat, hk, Option.toList_some, distinct_concat,
    if_neg hmiss, labelCode_concat hk (mt mem_distinct.mp hmiss)]
  exact toInt_ofNat (Nat.lt_succ_self _) (by omega)

end Table

/-! ## Labelled columns -/

namespace Column

/-- A row of a labelled column, with its cell and its label. -/
def LabelledAt (c : Column) (codes : List Int64) (row : Nat) (cell : Cell) (code : Int64) : Prop :=
  c.cells[row]? = some cell ∧ codes[row]? = some code

/-- What the labels of a column are. The categories are the keys of the cells that are not empty,
each once and in the order in which the rows have them first. -/
structure IsLabelled (c : Column) (categories : List String) (codes : List Int64) : Prop where
  mem_iff : ∀ k, k ∈ categories ↔ ∃ d ∈ c.cells, d.key = some k
  order : categories.Pairwise fun k l => c.firstRow k < c.firstRow l
  length : codes.length = c.cells.length
  null_iff : ∀ row cell code, c.LabelledAt codes row cell code → (code = -1 ↔ cell = .null)
  first : ∀ row cell code, c.LabelledAt codes row cell code → cell ≠ .null →
    (∀ d ∈ c.cells.take row, d = .null) → code = 0
  /-- A row repeats the label of an earlier row with its key, or it has the next number. -/
  next : ∀ row cell code, c.LabelledAt codes row cell code → cell ≠ .null →
    (∃ earlier < row, ∃ d, c.LabelledAt codes earlier d code ∧ d.key = cell.key) ∨
      (∀ d ∈ c.cells.take row, d.key ≠ cell.key) ∧
        code.toInt = Table.largestCode (codes.take row) + 1
  eq_iff : ∀ row cell code other cell' code', c.LabelledAt codes row cell code →
    c.LabelledAt codes other cell' code' → (code = code' ↔ cell.key = cell'.key)
  used : ∀ n : Int, (∃ code ∈ codes, code ≠ -1 ∧ code.toInt = n) ↔ 0 ≤ n ∧ n < categories.length
  decode : ∀ row cell code, c.LabelledAt codes row cell code → cell ≠ .null →
    categories[code.toInt.toNat]? = cell.key

variable {c : Column} {row : Nat} {cell : Cell} {code : Int64} {k : String}

theorem labelledAt_iff : c.LabelledAt (Table.labelCodes c.cells) row cell code ↔
    c.cells[row]? = some cell ∧ code = Table.labelCode c.categories cell := by
  unfold LabelledAt Table.labelCodes
  rw [List.getElem?_map]
  constructor
  · rintro ⟨hcell, hcode⟩
    rw [hcell] at hcode
    exact ⟨hcell, (Option.some.inj hcode).symm⟩
  · rintro ⟨hcell, rfl⟩
    exact ⟨hcell, by rw [hcell]; rfl⟩

theorem mem_categories {cell : Cell} (hcell : cell ∈ c.cells) (hk : cell.key = some k) :
    k ∈ c.categories :=
  Table.mem_distinct.mpr (Table.mem_presentKeys hcell hk)

section

-- As many rows as labels that are not negative.
variable (hrows : c.cells.length ≤ 0x8000000000000000)

include hrows

theorem exists_labelCode (hcell : cell ∈ c.cells) (hnull : cell ≠ .null) :
    ∃ i, ∃ hi : i < c.categories.length,
      cell.key = some c.categories[i] ∧ (Table.labelCode c.categories cell).toInt = i := by
  obtain ⟨k, hk⟩ := Option.ne_none_iff_exists'.mp (mt Cell.key_eq_none_iff.mp hnull)
  obtain ⟨i, hi, hget, hcode⟩ := Table.labelCode_of_some hk (mem_categories hcell hk)
  have hcount := Table.length_categories_le c.cells
  exact ⟨i, hi, by rw [hk, hget], by rw [hcode, Table.toInt_ofNat hi (Nat.le_trans hcount hrows)]⟩

theorem labelCode_eq_neg_one_iff (hcell : cell ∈ c.cells) :
    Table.labelCode c.categories cell = -1 ↔ cell = .null := by
  constructor
  · intro hcode
    by_contra hnull
    obtain ⟨i, -, -, hi⟩ := exists_labelCode hrows hcell hnull
    rw [hcode] at hi
    have hminus : (-1 : Int64).toInt = -1 := rfl
    omega
  · rintro rfl
    exact Table.labelCode_of_none _ rfl

theorem labelCode_eq_iff (hcell : cell ∈ c.cells) {d : Cell} (hd : d ∈ c.cells) :
    Table.labelCode c.categories cell = Table.labelCode c.categories d ↔ cell.key = d.key := by
  have hcount : c.categories.length < UInt64.size := by
    have hle : c.categories.length ≤ c.cells.length := Table.length_categories_le c.cells
    have hsize : 0x8000000000000000 < UInt64.size := by decide
    omega
  rw [← Table.labelCell_eq_iff hcount (fun _ => mem_categories hcell) (fun _ => mem_categories hd),
    Table.labelCell_eq_code, Table.labelCell_eq_code, Cell.int.injEq]

theorem exists_labelled {i : Nat} (hi : i < c.categories.length) :
    ∃ d ∈ c.cells, d ≠ .null ∧ (Table.labelCode c.categories d).toInt = i := by
  obtain ⟨d, hd, hk⟩ := List.mem_filterMap.mp (Table.mem_distinct.mp (List.getElem_mem hi))
  have hnull : d ≠ .null := by
    rintro rfl
    cases hk
  obtain ⟨j, hj, hkey, hcode⟩ := exists_labelCode hrows hd hnull
  have hsame : c.categories[i] = c.categories[j] := Option.some.inj (hk.symm.trans hkey)
  have hij : i = j := (List.getElem_inj (Table.nodup_categories c)).mp hsame
  exact ⟨d, hd, hnull, by rw [hcode, hij]⟩

theorem exists_labelled_iff (n : Int) :
    (∃ code ∈ Table.labelCodes c.cells, code ≠ -1 ∧ code.toInt = n) ↔
      0 ≤ n ∧ n < c.categories.length := by
  constructor
  · rintro ⟨code, hmem, hcode, rfl⟩
    obtain ⟨d, hd, rfl⟩ := List.mem_map.mp hmem
    obtain ⟨i, hi, -, hi'⟩ :=
      exists_labelCode hrows hd (mt (labelCode_eq_neg_one_iff hrows hd).mpr hcode)
    rw [categories] at hi hi' ⊢
    omega
  · rintro ⟨hn, hlt⟩
    obtain ⟨d, hd, hnull, hcode⟩ := exists_labelled hrows (i := n.toNat) (by omega)
    refine ⟨_, List.mem_map_of_mem hd, mt (labelCode_eq_neg_one_iff hrows hd).mp hnull, ?_⟩
    exact hcode.trans (Int.toNat_of_nonneg hn)

theorem toInt_labelCode_next (hcell : c.cells[row]? = some cell) (hnull : cell ≠ .null)
    (hnew : ∀ d ∈ c.cells.take row, d.key ≠ cell.key) :
    (Table.labelCode c.categories cell).toInt =
      Table.largestCode ((Table.labelCodes c.cells).take row) + 1 := by
  obtain ⟨k, hk⟩ := Option.ne_none_iff_exists'.mp (mt Cell.key_eq_none_iff.mp hnull)
  have hlen : (c.cells.take row).length ≤ 0x8000000000000000 :=
    Nat.le_trans (List.length_take_le' ..) hrows
  rw [← Table.labelCodes_take, Table.largestCode_labelCodes hlen]
  exact Table.toInt_labelCode_of_new hrows hcell hk hnew

theorem exists_labelledAt_of_old (hcell : c.cells[row]? = some cell) {d : Cell}
    (hd : d ∈ c.cells.take row) (hkey : d.key = cell.key) : ∃ earlier < row,
      c.LabelledAt (Table.labelCodes c.cells) earlier d (Table.labelCode c.categories cell) := by
  obtain ⟨earlier, hearlier, hget⟩ := List.mem_take_iff_getElem.mp hd
  have hrow : c.cells[earlier]? = some d := by
    rw [← hget]
    exact List.getElem?_eq_getElem _
  refine ⟨earlier, by omega, labelledAt_iff.mpr ⟨hrow, ?_⟩⟩
  exact (labelCode_eq_iff hrows (List.mem_of_getElem? hcell) (List.mem_of_getElem? hrow)).mpr
    hkey.symm

theorem isLabelled_labelCodes : c.IsLabelled c.categories (Table.labelCodes c.cells) where
  mem_iff k := Table.mem_distinct.trans List.mem_filterMap
  order := Table.pairwise_distinct c.cells
  length := List.length_map ..
  null_iff row cell code hat := by
    obtain ⟨hcell, rfl⟩ := labelledAt_iff.mp hat
    exact labelCode_eq_neg_one_iff hrows (List.mem_of_getElem? hcell)
  first row cell code hat hnull hbefore := by
    obtain ⟨hcell, rfl⟩ := labelledAt_iff.mp hat
    obtain ⟨k, hk⟩ := Option.ne_none_iff_exists'.mp (mt Cell.key_eq_none_iff.mp hnull)
    have hempty : Table.presentKeys (c.cells.take row) = [] := by
      apply List.filterMap_eq_nil_iff.mpr
      intro d hd
      rw [hbefore d hd, Cell.key]
    have hcode := Table.toInt_labelCode_of_new hrows hcell hk fun d hd hkey => by
      rw [hbefore d hd] at hkey
      exact hnull (Cell.key_eq_none_iff.mp hkey.symm)
    rw [hempty] at hcode
    exact Int64.toInt_inj.mp hcode
  next row cell code hat hnull := by
    obtain ⟨hcell, rfl⟩ := labelledAt_iff.mp hat
    by_cases hold : ∃ d ∈ c.cells.take row, d.key = cell.key
    · obtain ⟨d, hd, hkey⟩ := hold
      obtain ⟨earlier, hlt, hat'⟩ := exists_labelledAt_of_old hrows hcell hd hkey
      exact .inl ⟨earlier, hlt, d, hat', hkey⟩
    · have hnew : ∀ d ∈ c.cells.take row, d.key ≠ cell.key := fun d hd hkey => hold ⟨d, hd, hkey⟩
      exact .inr ⟨hnew, toInt_labelCode_next hrows hcell hnull hnew⟩
  eq_iff row cell code other cell' code' hat hat' := by
    obtain ⟨hcell, rfl⟩ := labelledAt_iff.mp hat
    obtain ⟨hcell', rfl⟩ := labelledAt_iff.mp hat'
    exact labelCode_eq_iff hrows (List.mem_of_getElem? hcell) (List.mem_of_getElem? hcell')
  used := exists_labelled_iff hrows
  decode row cell code hat hnull := by
    obtain ⟨hcell, rfl⟩ := labelledAt_iff.mp hat
    obtain ⟨i, hi, hkey, hcode⟩ := exists_labelCode hrows (List.mem_of_getElem? hcell) hnull
    rw [hcode, hkey]
    exact List.getElem?_eq_getElem hi

end

end Column

namespace Table

variable {t : Table} {c : Column}

theorem labelEncode_of_mem (hc : c ∈ t.columns) (hname : c.name ≠ "") :
    (t.labelEncode c.name).column? (c.name ++ "_label") =
      some ⟨c.name ++ "_label", (labelCodes c.cells).map .int⟩ := by
  rw [labelEncode, derive_of_some (cells?_of_mem hc hname), ← labelCells_eq_codes]
  exact column?_setColumn_self _

/-- **Labels count the keys.** The column stays, and beside it stands a column of its labels: -1 for
the empty cells, and for every other row the label of its key, the keys being numbered in the order
in which the rows have them first. Memory holds fewer rows than a label can count. -/
theorem labelEncode_isLabelled (hc : c ∈ t.columns) (hname : c.name ≠ "")
    (hrows : t.height < 0x8000000000000000) :
    ∃ codes, (t.labelEncode c.name).column? c.name = some c ∧
      (t.labelEncode c.name).column? (c.name ++ "_label") =
        some ⟨c.name ++ "_label", codes.map .int⟩ ∧
      c.IsLabelled c.categories codes := by
  refine ⟨labelCodes c.cells, ?_, labelEncode_of_mem hc hname, Column.isLabelled_labelCodes ?_⟩
  · have hne : c.name ++ "_label" ≠ c.name := by simp
    rw [labelEncode, derive_of_some (cells?_of_mem hc hname), column?_setColumn_of_ne _ hne.symm,
      column?_of_mem hc]
  · rw [t.length_cells c hc]
    exact Nat.le_of_lt hrows

theorem labelEncode_isLabelled_mixed :
    let c : Column := ⟨"c", [.null, .text "b", .int 1, .text "1", .text "b", .text ""]⟩
    let t : Table := ⟨[c], 6, by decide, by decide⟩
    c ∈ t.columns ∧ c.name ≠ "" ∧ t.height < 0x8000000000000000 ∧
      c.IsLabelled ["b", "1", ""] [-1, 0, 1, 1, 0, 2] := by
  intro c t
  have hname : c.name ≠ "" := by decide
  have hrows : t.height < 0x8000000000000000 := by decide
  have hcategories : c.categories = ["b", "1", ""] := by decide +kernel
  have hlabel : (t.labelEncode "c").column? "c_label" =
      some ⟨"c_label", ([-1, 0, 1, 1, 0, 2] : List Int64).map .int⟩ := by decide +kernel
  obtain ⟨codes, -, hcodes, h⟩ := labelEncode_isLabelled (t := t) (c := c) List.mem_cons_self
    hname hrows
  have hsame : codes.map Cell.int = ([-1, 0, 1, 1, 0, 2] : List Int64).map .int :=
    congrArg Column.cells (Option.some.inj (hcodes.symm.trans hlabel))
  rw [hcategories, (List.map_inj_right fun _ _ => Cell.int.inj).mp hsame] at h
  exact ⟨List.mem_cons_self, hname, hrows, h⟩

end Table

end TableCleaner
