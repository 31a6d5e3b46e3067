import TableCleaner.Proofs.Operation.Writes
import TableCleaner.Proofs.Table.Cells

/-!
# The same value

Cells of different kinds can hold the same value. Labels, indicator columns, duplicate rows and
replaced values each compare cells in a way of their own. All of them come down to the key.
-/

namespace TableCleaner

namespace Table

/-- Both rows hold one cell in a column. -/
def HoldAt (t : Table) (name : String) (i j : Nat) (c : Cell) : Prop :=
  t.cell? name i = some c ∧ t.cell? name j = some c

variable {t : Table} {name : String} {cells : List Cell}

theorem cell?_eq (hname : name ≠ "") (i : Nat) :
    t.cell? name i = (t.cells? name).bind (·[i]?) := by
  rw [cell?, cells?_eq hname, Option.bind_map]
  rfl

theorem mem_presentKeys {c : Cell} {k : String} (hc : c ∈ cells) (hk : c.key = some k) :
    k ∈ presentKeys cells :=
  List.mem_filterMap.mpr ⟨c, hc, hk⟩

/-! ## Labels -/

theorem cell?_labelEncode (h : t.cells? name = some cells) (i : Nat) :
    (t.labelEncode name).cell? (name ++ "_label") i =
      cells[i]?.map (labelCell (distinct (presentKeys cells))) := by
  unfold labelEncode derive
  split
  · simp_all
  · rename_i cells' h'
    obtain rfl : cells = cells' := by simpa [h] using h'
    rw [cell?, column?_setColumn_self, Option.bind_some]
    simp [labelCells]

theorem length_distinct_le (keys : List String) : (distinct keys).length ≤ keys.length := by
  have hfold : ∀ seen : List String,
      (keys.foldl (fun seen k => if seen.contains k then seen else seen ++ [k]) seen).length ≤
        seen.length + keys.length := by
    induction keys with
    | nil => simp
    | cons k rest ih =>
      intro seen
      rw [List.foldl_cons, List.length_cons]
      refine Nat.le_trans (ih _) ?_
      split
      · omega
      · simp only [List.length_append, List.length_singleton]
        omega
  simpa [distinct] using hfold []

theorem labelCell_of_none (keys : List String) {c : Cell} (h : c.key = none) :
    labelCell keys c = .int (-1) := by
  simp [labelCell, h]

theorem labelCell_of_some {keys : List String} {c : Cell} {k : String} (h : c.key = some k)
    (hk : k ∈ keys) :
    ∃ i, ∃ hi : i < keys.length, keys[i] = k ∧ labelCell keys c = .int (Int64.ofNat i) := by
  have hsome : (keys.findIdx? (· == k)).isSome := by simpa using hk
  obtain ⟨i, hfind⟩ := Option.isSome_iff_exists.mp hsome
  obtain ⟨hi, hget, -⟩ := List.findIdx?_eq_some_iff_getElem.mp hfind
  exact ⟨i, hi, by simpa using hget, by simp [labelCell, h, hfind]⟩

theorem toNat_toBitVec_ofNat {i : Nat} (h : i < UInt64.size) : (Int64.ofNat i).toBitVec.toNat = i := by
  simp [Int64.toBitVec_ofNat']
  omega

/-- Codes do not run into one another, and none is that of an empty cell, as long as the keys can
be counted in a word of 64 bits. -/
theorem labelCell_eq_iff {keys : List String} {a b : Cell} (hlen : keys.length < UInt64.size)
    (ha : ∀ k, a.key = some k → k ∈ keys) (hb : ∀ k, b.key = some k → k ∈ keys) :
    labelCell keys a = labelCell keys b ↔ a.key = b.key := by
  constructor
  · intro h
    have hcode : ∀ {i j : Int64}, Cell.int i = .int j → i.toBitVec.toNat = j.toBitVec.toNat := by
      intro i j hij
      rw [Cell.int.inj hij]
    have hnull : (-1 : Int64).toBitVec.toNat = UInt64.size - 1 := rfl
    cases hka : a.key with
    | none =>
      cases hkb : b.key with
      | none => rfl
      | some l =>
        obtain ⟨j, hj, -, hlabel⟩ := labelCell_of_some hkb (hb l hkb)
        rw [labelCell_of_none keys hka, hlabel] at h
        have := hcode h
        rw [hnull, toNat_toBitVec_ofNat (by omega)] at this
        omega
    | some k =>
      obtain ⟨i, hi, hk, hlabel⟩ := labelCell_of_some hka (ha k hka)
      cases hkb : b.key with
      | none =>
        rw [labelCell_of_none keys hkb, hlabel] at h
        have := hcode h
        rw [hnull, toNat_toBitVec_ofNat (by omega)] at this
        omega
      | some l =>
        obtain ⟨j, hj, hl, hlabel'⟩ := labelCell_of_some hkb (hb l hkb)
        rw [hlabel, hlabel'] at h
        have := hcode h
        rw [toNat_toBitVec_ofNat (by omega), toNat_toBitVec_ofNat (by omega)] at this
        subst this
        rw [← hk, hl]
  · intro h
    unfold labelCell
    rw [h]

/-! ## Indicator columns -/

theorem column?_setIndicators {keys : List (Option String)} (t : Table)
    (hlen : keys.length = t.height) {categories : List String} {k : String} :
    (t.setIndicators name keys hlen categories).column? (name ++ "_" ++ k) =
      if k ∈ categories then
        some ⟨name ++ "_" ++ k, keys.map fun key => .bool (key == some k)⟩
      else t.column? (name ++ "_" ++ k) := by
  induction categories generalizing t with
  | nil => rfl
  | cons l rest ih =>
    have hfirst := ih (t.setColumn ⟨name ++ "_" ++ l, keys.map fun key => .bool (key == some l)⟩
      (by simpa using hlen)) hlen
    refine hfirst.trans ?_
    by_cases hrest : k ∈ rest
    · rw [if_pos hrest, if_pos (List.mem_cons_of_mem l hrest)]
    · rw [if_neg hrest]
      by_cases hkl : k = l
      · subst hkl
        rw [if_pos List.mem_cons_self, column?_setColumn_self]
      · have hne : name ++ "_" ++ k ≠ name ++ "_" ++ l := by simpa using hkl
        rw [if_neg (by simp [hkl, hrest]), column?_setColumn_of_ne _ hne]

theorem cell?_oneHotEncode (h : t.cells? name = some cells) {k : String}
    (hk : k ∈ presentKeys cells) (i : Nat) :
    (t.oneHotEncode name).cell? (name ++ "_" ++ k) i =
      cells[i]?.map fun c => .bool (c.key == some k) := by
  unfold oneHotEncode
  split
  · simp_all
  · rename_i cells' h'
    obtain rfl : cells = cells' := by simpa [h] using h'
    rw [cell?, column?_setIndicators, if_pos (mem_distinct.mpr hk), Option.bind_some]
    simp [Function.comp_def]

/-! ## Duplicate rows -/

theorem removeDuplicateRows_of_two_rows {s : Table} {a b : Cell} (hheight : s.height = 2)
    (h : s.column? name = some ⟨name, [a, b]⟩) :
    (s.removeDuplicateRows [name]).height = if a.key = b.key then 1 else 2 := by
  obtain ⟨p, hp, hcolumn⟩ := exists_position? h
  have hpositions : s.comparedPositions? [name] = some [p] := by
    simp [comparedPositions?, hp]
  have hkeys : s.rowKeys [p] = [[a.key], [b.key]] := by
    simp [rowKeys, hheight, hcolumn, List.range_succ]
  unfold removeDuplicateRows
  rw [hpositions]
  simp only [keepRows, hkeys, firstFlags]
  by_cases hab : a.key = b.key
  · simp [hab]
  · simp [hab, Ne.symm hab]

theorem height_removeDuplicateRows_rowsAt {i j : Fin t.height} {a b : Cell}
    (ha : t.cell? name i = some a) (hb : t.cell? name j = some b) :
    ((t.rowsAt [i, j]).removeDuplicateRows [name]).height = if a.key = b.key then 1 else 2 := by
  obtain ⟨c, hc, hca⟩ := Option.bind_eq_some_iff.mp ha
  have hcb : c.cells[(j : Nat)]? = some b := by simpa [cell?, hc] using hb
  apply removeDuplicateRows_of_two_rows
  · rfl
  · rw [column?_rowsAt, hc, Option.map_some]
    simp [List.getD_eq_getElem?_getD, hca, hcb, name_of_column? hc]

/-! ## Replaced values -/

theorem cell?_replaceValues (h : t.cells? name = some cells) (m r : Json) (i : Nat) :
    (t.replaceValues name (some m) (some r)).cell? name i =
      cells[i]?.map fun c => if c.key = (Cell.ofJson m).key then Cell.ofJson r else c := by
  unfold replaceValues
  rw [h]
  simp only
  have hcolumn : (t.column? name).map (·.cells) = some cells := by
    rw [← cells?_eq (by rintro rfl; simp [cells?] at h)]
    exact h
  obtain ⟨c, hc, rfl⟩ := Option.map_eq_some_iff.mp hcolumn
  simp [cell?, column?_mapCells, hc]

theorem exists_key_ofJson (key : Option String) : ∃ m, (Cell.ofJson m).key = key := by
  cases key with
  | none => exact ⟨.null, rfl⟩
  | some k => exact ⟨.text k, rfl⟩

theorem exists_ofJson_ne (c : Cell) : ∃ r, Cell.ofJson r ≠ c := by
  by_cases hc : c = .null
  · exact ⟨.bool true, by simp [hc, Cell.ofJson]⟩
  · exact ⟨.null, fun h => hc h.symm⟩

end Table

theorem Cell.key_eq_none_iff {c : Cell} : c.key = none ↔ c = .null := by
  cases c <;> simp [key]

/-! ## All comparisons -/

section

variable {t : Table} {name : String} {cells : List Cell} {i j : Nat} {a b : Cell}

theorem labels_agree_iff (h : t.cells? name = some cells) (hrows : t.height < UInt64.size)
    (ha : cells[i]? = some a) (hb : cells[j]? = some b) :
    (∃ code, (t.labelEncode name).HoldAt (name ++ "_label") i j (.int code)) ↔
      a.key = b.key := by
  have hmem : ∀ {c : Cell} {row : Nat}, cells[row]? = some c →
      ∀ k, c.key = some k → k ∈ Table.distinct (Table.presentKeys cells) := by
    intro c row hc k hk
    rw [Table.mem_distinct]
    exact Table.mem_presentKeys (List.mem_of_getElem? hc) hk
  have hcount : (Table.distinct (Table.presentKeys cells)).length < UInt64.size := by
    have hdistinct := Table.length_distinct_le (Table.presentKeys cells)
    have hpresent : (Table.presentKeys cells).length ≤ cells.length := List.length_filterMap_le ..
    have hcells := Table.length_of_cells? h
    omega
  rw [← Table.labelCell_eq_iff hcount (hmem ha) (hmem hb)]
  simp only [Table.HoldAt, Table.cell?_labelEncode h, ha, hb, Option.map_some, Option.some.injEq]
  constructor
  · rintro ⟨code, hcode, hcode'⟩
    rw [hcode, hcode']
  · intro hlabel
    obtain ⟨code, hcode⟩ : ∃ code,
        Table.labelCell (Table.distinct (Table.presentKeys cells)) a = .int code := by
      unfold Table.labelCell
      split <;> exact ⟨_, rfl⟩
    exact ⟨code, hcode, by rw [← hlabel, hcode]⟩

theorem indicators_agree_iff (h : t.cells? name = some cells)
    (ha : cells[i]? = some a) (hb : cells[j]? = some b) :
    (∀ k ∈ Table.presentKeys cells, ∃ flag,
      (t.oneHotEncode name).HoldAt (name ++ "_" ++ k) i j (.bool flag)) ↔ a.key = b.key := by
  constructor
  · intro hall
    have hflags : ∀ k ∈ Table.presentKeys cells, (a.key == some k) = (b.key == some k) := by
      intro k hk
      obtain ⟨flag, hflag, hflag'⟩ := hall k hk
      rw [Table.cell?_oneHotEncode h hk, ha, Option.map_some, Option.some.injEq,
        Cell.bool.injEq] at hflag
      rw [Table.cell?_oneHotEncode h hk, hb, Option.map_some, Option.some.injEq,
        Cell.bool.injEq] at hflag'
      rw [hflag, hflag']
    cases hka : a.key with
    | some k =>
      have hk := hflags k (Table.mem_presentKeys (List.mem_of_getElem? ha) hka)
      rw [hka, beq_self_eq_true] at hk
      exact (eq_of_beq hk.symm).symm
    | none =>
      cases hkb : b.key with
      | none => rfl
      | some l =>
        have hl := hflags l (Table.mem_presentKeys (List.mem_of_getElem? hb) hkb)
        simp [hka, hkb] at hl
  · intro hkey k hk
    refine ⟨a.key == some k, ?_, ?_⟩
    · rw [Table.cell?_oneHotEncode h hk, ha, Option.map_some]
    · rw [Table.cell?_oneHotEncode h hk, hb, Option.map_some, hkey]

theorem replacements_agree_iff (h : t.cells? name = some cells)
    (ha : cells[i]? = some a) (hb : cells[j]? = some b) :
    (∀ m : Json,
      (∀ r, (t.replaceValues name (some m) (some r)).HoldAt name i j (.ofJson r)) ∨
      ∀ r, (t.replaceValues name (some m) (some r)).cell? name i = some a ∧
        (t.replaceValues name (some m) (some r)).cell? name j = some b) ↔ a.key = b.key := by
  simp only [Table.HoldAt, Table.cell?_replaceValues h, ha, hb, Option.map_some,
    Option.some.injEq]
  constructor
  · intro hall
    -- The literal with the key of the first cell replaces that cell, so it replaces both.
    obtain ⟨m, hm⟩ := Table.exists_key_ofJson a.key
    rcases hall m with hboth | hneither
    · obtain ⟨r, hr⟩ := Table.exists_ofJson_ne b
      by_cases hkey : a.key = b.key
      · exact hkey
      · have hkept := (hboth r).2
        rw [hm, if_neg (Ne.symm hkey)] at hkept
        exact absurd hkept.symm hr
    · obtain ⟨r, hr⟩ := Table.exists_ofJson_ne a
      have htaken := (hneither r).1
      rw [hm, if_pos rfl] at htaken
      exact absurd htaken hr
  · intro hkey m
    by_cases hm : a.key = (Cell.ofJson m).key
    · exact .inl fun r => ⟨if_pos hm, if_pos (hkey ▸ hm)⟩
    · exact .inr fun r => ⟨if_neg hm, if_neg (hkey ▸ hm)⟩

end

/-- **One notion of the same value.** For two rows and a column, these say the same: the keys are
equal; the labels are the same; the indicator columns agree; as a table of their own the rows are
duplicates; every replacement takes both cells or neither. The labels tell keys apart as long as a
word of 64 bits counts the rows. An empty cell has the value of empty cells only. -/
theorem same_value_iff (t : Table) {name : String} (hname : name ≠ "") {i j : Fin t.height}
    {a b : Cell} (ha : t.cell? name i = some a) (hb : t.cell? name j = some b) :
    (t.height < UInt64.size →
      ((∃ code, ((Operation.labelEncode name).apply t).HoldAt (name ++ "_label") i j (.int code)) ↔
        a.key = b.key)) ∧
    ((∀ k ∈ Table.presentKeys ((t.cells? name).getD []), ∃ flag,
      ((Operation.oneHotEncode name).apply t).HoldAt (name ++ "_" ++ k) i j (.bool flag)) ↔
        a.key = b.key) ∧
    (((Operation.removeDuplicateRows [name]).apply (t.rowsAt [i, j])).height = 1 ↔
      a.key = b.key) ∧
    ((∀ m : Json,
      (∀ r, ((Operation.replaceValues name (some m) (some r)).apply t).HoldAt name i j
        (.ofJson r)) ∨
      ∀ r, ((Operation.replaceValues name (some m) (some r)).apply t).cell? name i = some a ∧
        ((Operation.replaceValues name (some m) (some r)).apply t).cell? name j = some b) ↔
          a.key = b.key) ∧
    (a = .null → (a.key = b.key ↔ b = .null)) ∧
    Cell.null.key ≠ (Cell.text "").key := by
  have hi := ha
  have hj := hb
  rw [Table.cell?_eq hname] at hi hj
  obtain ⟨cells, hcells, hi⟩ := Option.bind_eq_some_iff.mp hi
  have hj : cells[(j : Nat)]? = some b := by simpa [hcells] using hj
  refine ⟨fun hrows => labels_agree_iff hcells hrows hi hj, ?_, ?_,
    replacements_agree_iff hcells hi hj, ?_, by simp [Cell.key]⟩
  · rw [hcells]
    exact indicators_agree_iff hcells hi hj
  · have hheight := Table.height_removeDuplicateRows_rowsAt ha hb
    simp only [Operation.apply, hheight]
    split <;> simp_all
  · rintro rfl
    rw [← Cell.key_eq_none_iff]
    exact eq_comm

theorem same_value_iff_one :
    ∃ t : Table, t.columns = [⟨"x", [.int 1, .text "1", .text "", .null]⟩] ∧
      "x" ≠ "" ∧ t.cell? "x" 0 = some (.int 1) ∧ t.cell? "x" 1 = some (.text "1") ∧
      t.height < UInt64.size ∧
      (∃ code, ((Operation.labelEncode "x").apply t).HoldAt "x_label" 0 1 (.int code)) ∧
      ∀ k ∈ Table.presentKeys ((t.cells? "x").getD []), ∃ flag,
        ((Operation.oneHotEncode "x").apply t).HoldAt ("x" ++ "_" ++ k) 0 1 (.bool flag) := by
  refine ⟨⟨[⟨"x", [.int 1, .text "1", .text "", .null]⟩], 4, by decide, by decide⟩, rfl,
    by decide, rfl, rfl, by decide, ?_⟩
  have hkey : (Cell.int 1).key = (Cell.text "1").key := by decide +kernel
  obtain ⟨hlabel, hflags, -⟩ := same_value_iff
    ⟨[⟨"x", [.int 1, .text "1", .text "", .null]⟩], 4, by decide, by decide⟩
    (i := ⟨0, by decide⟩) (j := ⟨1, by decide⟩) (show "x" ≠ "" by decide) rfl rfl
  exact ⟨(hlabel (by decide)).mpr hkey, hflags.mpr hkey⟩

end TableCleaner
