import Mathlib.Data.List.Induction
import TableCleaner.Proofs.Operation.Commute
import TableCleaner.Proofs.Operation.SameValue

/-!
# Indicator columns

Encoding takes a column away and sets one column of truth values for each key of its cells. The new
columns are set one after another into a table that already has the earlier ones, but their names
differ, so none gives way to another; only a column that stood there before does.
-/

namespace TableCleaner

namespace Column

/-- The column of truth values for a key. -/
def indicator (c : Column) (k : String) : Column :=
  ⟨c.name ++ "_" ++ k, (c.cells.map Cell.key).map fun key => .bool (key == some k)⟩

/-- The keys of the cells that are not empty, each where it is met first. -/
def categories (c : Column) : List String := Table.distinct (Table.presentKeys c.cells)

/-- The first row with a key. -/
def firstRow (c : Column) (k : String) : Nat := c.cells.findIdx (·.key == some k)

/-- What stands in the place of another column once the indicator columns of some keys are set. -/
def replacement (c : Column) (keys : List String) (d : Column) : Column :=
  match keys.find? fun k => d.name = (c.indicator k).name with
  | some k => c.indicator k
  | none => d

variable {c d : Column} {k l : String} {keys : List String}

theorem name_indicator_inj : (c.indicator k).name = (c.indicator l).name ↔ k = l := by
  simp [indicator]

theorem name_indicator_ne (c : Column) (k : String) : (c.indicator k).name ≠ c.name := by
  simp [indicator, String.append_assoc]

theorem getElem?_indicator (c : Column) (k : String) (i : Nat) :
    (c.indicator k).cells[i]? = c.cells[i]?.map fun d => .bool (d.key == some k) := by
  simp [indicator, Function.comp_def]

theorem replacement_of_notMem (h : ∀ k ∈ keys, d.name ≠ (c.indicator k).name) :
    c.replacement keys d = d := by
  have hnone : (keys.find? fun k => d.name = (c.indicator k).name) = none := by
    rw [List.find?_eq_none]
    intro k hk
    simpa using h k hk
  rw [replacement, hnone]

theorem replacement_cons (c : Column) (k : String) (keys : List String) (d : Column) :
    c.replacement (k :: keys) d =
      if d.name = (c.indicator k).name then c.indicator k else c.replacement keys d := by
  unfold replacement
  rw [List.find?_cons]
  by_cases h : d.name = (c.indicator k).name
  · simp [h]
  · simp [h]

/-- No other key has the name of an indicator, so it stays once it is set. -/
theorem replacement_indicator (hk : k ∉ keys) :
    c.replacement keys (c.indicator k) = c.indicator k := by
  apply replacement_of_notMem
  intro l hl hname
  exact hk (name_indicator_inj.mp hname ▸ hl)

theorem filter_indicator_fresh (hk : k ∉ keys) (names : List String) :
    (keys.filter fun l => (c.indicator l).name ∉ names ++ [(c.indicator k).name]) =
      keys.filter fun l => (c.indicator l).name ∉ names := by
  apply List.filter_congr
  intro l hl
  have hne : (c.indicator l).name ≠ (c.indicator k).name := fun hname =>
    hk (name_indicator_inj.mp hname ▸ hl)
  simp [hne]

end Column

namespace Table

variable {t : Table} {c : Column}

/-! ## Keys in the order of the rows -/

theorem distinct_concat (keys : List String) (k : String) :
    distinct (keys ++ [k]) = if k ∈ keys then distinct keys else distinct keys ++ [k] := by
  have hfold : distinct (keys ++ [k]) =
      if (distinct keys).contains k then distinct keys else distinct keys ++ [k] := by
    rw [distinct, List.foldl_append]
    rfl
  simpa [mem_distinct] using hfold

theorem presentKeys_concat (cells : List Cell) (a : Cell) :
    presentKeys (cells ++ [a]) = presentKeys cells ++ a.key.toList := by
  cases h : a.key <;> simp [presentKeys, h]

theorem findIdx_key_lt {cells : List Cell} {k : String} (hk : k ∈ presentKeys cells) :
    cells.findIdx (·.key == some k) < cells.length := by
  obtain ⟨d, hd, hkey⟩ := List.mem_filterMap.mp hk
  exact List.findIdx_lt_length.mpr ⟨d, hd, by simp [hkey]⟩

theorem findIdx_key_append {cells : List Cell} {k : String} (hk : k ∈ presentKeys cells)
    (more : List Cell) :
    (cells ++ more).findIdx (·.key == some k) = cells.findIdx (·.key == some k) := by
  rw [List.findIdx_append, if_pos (findIdx_key_lt hk)]

theorem findIdx_key_concat {cells : List Cell} {a : Cell} {k : String} (hk : k ∉ presentKeys cells)
    (ha : a.key = some k) : (cells ++ [a]).findIdx (·.key == some k) = cells.length := by
  have hmiss : ¬cells.findIdx (·.key == some k) < cells.length := by
    rw [List.findIdx_lt_length]
    rintro ⟨d, hd, hkey⟩
    exact hk (mem_presentKeys hd (by simpa using hkey))
  rw [List.findIdx_append, if_neg hmiss]
  simp [ha]

theorem pairwise_distinct (cells : List Cell) :
    (distinct (presentKeys cells)).Pairwise fun k l =>
      cells.findIdx (·.key == some k) < cells.findIdx (·.key == some l) := by
  induction cells using List.reverseRecOn with
  | nil => exact List.Pairwise.nil
  | append_singleton cells a ih =>
    have hold : (distinct (presentKeys cells)).Pairwise fun k l =>
        (cells ++ [a]).findIdx (·.key == some k) < (cells ++ [a]).findIdx (·.key == some l) := by
      refine ih.imp_of_mem fun hk hl hless => ?_
      rwa [findIdx_key_append (mem_distinct.mp hk), findIdx_key_append (mem_distinct.mp hl)]
    rw [presentKeys_concat]
    cases ha : a.key with
    | none => rwa [Option.toList_none, List.append_nil]
    | some k =>
      rw [Option.toList_some, distinct_concat]
      split
      · exact hold
      · rename_i hnew
        refine List.pairwise_append.mpr ⟨hold, List.pairwise_singleton _ _, fun l hl m hm => ?_⟩
        rw [List.mem_singleton.mp hm, findIdx_key_append (mem_distinct.mp hl),
          findIdx_key_concat hnew ha]
        exact findIdx_key_lt (mem_distinct.mp hl)

theorem nodup_distinct (cells : List Cell) : (distinct (presentKeys cells)).Nodup :=
  (pairwise_distinct cells).imp fun hless he => by
    rw [he] at hless
    exact Nat.lt_irrefl _ hless

theorem nodup_categories (c : Column) : c.categories.Nodup := nodup_distinct c.cells

/-! ## One column after another -/

theorem names_setColumn (h : c.cells.length = t.height) :
    (t.setColumn c h).names = if c.name ∈ t.names then t.names else t.names ++ [c.name] := by
  unfold setColumn names
  dsimp only
  split
  · rw [List.map_map]
    exact List.map_congr_left fun d _ => by simp only [Function.comp]; split <;> simp_all
  · rw [List.map_append, List.map_singleton]

theorem columns_setIndicators {keys : List String} (c : Column) (t : Table)
    (hlen : (c.cells.map Cell.key).length = t.height) (hnodup : keys.Nodup) :
    (t.setIndicators c.name (c.cells.map Cell.key) hlen keys).columns =
      t.columns.map (c.replacement keys) ++
        (keys.filter fun k => (c.indicator k).name ∉ t.names).map c.indicator := by
  induction keys generalizing t with
  | nil =>
    have hsame : t.columns.map (c.replacement []) = t.columns := List.map_id _
    simp [setIndicators, hsame]
  | cons k keys ih =>
    obtain ⟨hk, hkeys⟩ := List.nodup_cons.mp hnodup
    have hcell : (c.indicator k).cells.length = t.height := by simpa [Column.indicator] using hlen
    have hstays := Column.replacement_indicator (c := c) hk
    refine (ih (t.setColumn (c.indicator k) hcell) hlen hkeys).trans ?_
    rw [names_setColumn hcell]
    by_cases hmem : (c.indicator k).name ∈ t.names
    · have hset : (t.setColumn (c.indicator k) hcell).columns =
          t.columns.map fun d => if d.name = (c.indicator k).name then c.indicator k else d :=
        if_pos hmem
      rw [if_pos hmem, hset, List.map_map, List.filter_cons_of_neg (by simpa using hmem)]
      congr 1
      apply List.map_congr_left
      intro d _
      rw [Function.comp_apply, Column.replacement_cons]
      split
      · exact hstays
      · rfl
    · have hset : (t.setColumn (c.indicator k) hcell).columns = t.columns ++ [c.indicator k] :=
        if_neg hmem
      have hmap : t.columns.map (c.replacement (k :: keys)) = t.columns.map (c.replacement keys) := by
        apply List.map_congr_left
        intro d hd
        rw [Column.replacement_cons, if_neg]
        intro hname
        exact hmem (hname ▸ List.mem_map_of_mem hd)
      rw [if_neg hmem, hset, Column.filter_indicator_fresh hk, hmap,
        List.filter_cons_of_pos (by simpa using hmem), List.map_append, List.map_singleton, hstays,
        List.map_cons, List.append_assoc, List.singleton_append]

/-! ## Columns by name -/

theorem filter_name_of_mem (h : c ∈ t.columns) : t.columns.filter (·.name = c.name) = [c] := by
  have hnames := t.names_nodup
  generalize t.columns = columns at h hnames
  induction columns with
  | nil => cases h
  | cons d rest ih =>
    obtain ⟨hd, hrest⟩ := List.nodup_cons.mp hnames
    rcases List.mem_cons.mp h with rfl | h
    · have hnone : rest.filter (·.name = c.name) = [] := by
        rw [List.filter_eq_nil_iff]
        intro d hmem hname
        exact hd (List.mem_map.mpr ⟨d, hmem, by simpa using hname⟩)
      simp [hnone]
    · have hne : d.name ≠ c.name := fun hname => hd (List.mem_map.mpr ⟨c, h, hname.symm⟩)
      rw [List.filter_cons_of_neg (by simpa using hne), ih h hrest]

theorem width_dropColumn (h : c ∈ t.columns) : (t.dropColumn c.name).width + 1 = t.width := by
  have hone := congrArg List.length (filter_name_of_mem h)
  have hsum := List.length_eq_countP_add_countP (l := t.columns) fun d => decide (d.name = c.name)
  simp only [List.countP_eq_length_filter, decide_eq_true_eq, List.length_singleton] at hone hsum
  simp only [width, dropColumn, ne_eq]
  omega

theorem length_filter_indicator {keys : List String} (c : Column) (t : Table)
    (hnodup : keys.Nodup) :
    (keys.filter fun k => (c.indicator k).name ∈ t.names).length =
      (t.columns.filter fun d => d.name ∈ keys.map fun k => (c.indicator k).name).length := by
  have hleft : ((keys.filter fun k => (c.indicator k).name ∈ t.names).map
      fun k => (c.indicator k).name).Nodup :=
    List.Pairwise.map _ (fun _ _ hne hname => hne (Column.name_indicator_inj.mp hname))
      (hnodup.filter _)
  have hright : ((t.columns.filter fun d =>
      d.name ∈ keys.map fun k => (c.indicator k).name).map (·.name)).Nodup :=
    t.names_nodup.sublist (List.filter_sublist.map _)
  have hperm := (List.perm_ext_iff_of_nodup hleft hright).mpr fun name => by
    simp only [List.mem_map, List.mem_filter, decide_eq_true_eq, names]
    constructor
    · rintro ⟨k, ⟨hk, d, hd, hname⟩, rfl⟩
      exact ⟨d, ⟨hd, k, hk, hname.symm⟩, hname⟩
    · rintro ⟨d, ⟨hd, k, hk, hname⟩, rfl⟩
      exact ⟨k, ⟨hk, d, hd, hname.symm⟩, hname⟩
  simpa using hperm.length_eq

/-! ## Encoded columns -/

/-- What encoding a column of a table gives. The categories are the keys of the cells that are not
empty, each once and in the order in which the rows have them first. -/
structure IsOneHot (t : Table) (c : Column) (categories : List String) (r : Table) : Prop where
  mem_iff : ∀ k, k ∈ categories ↔ ∃ d ∈ c.cells, d.key = some k
  order : categories.Pairwise fun k l => c.firstRow k < c.firstRow l
  /-- The column is gone. Columns with the name of an indicator gave way to it in their places, all
  others are as before, and the rest of the indicators follow in their order. -/
  columns : r.columns = (t.columns.filter (·.name ≠ c.name)).map (c.replacement categories) ++
    (categories.filter fun k => (c.indicator k).name ∉ t.names).map c.indicator
  gone : c.name ∉ r.names
  single : ∀ k ∈ categories, r.columns.filter (·.name = (c.indicator k).name) = [c.indicator k]
  /-- An empty cell is false in all indicators, and any other true in exactly one. -/
  row_null : ∀ row : Nat, c.cells[row]? = some Cell.null →
    ∀ k ∈ categories, (c.indicator k).cells[row]? = some (Cell.bool false)
  row_one : ∀ (row : Nat) (cell : Cell), c.cells[row]? = some cell → cell ≠ Cell.null →
    ∃ k ∈ categories, cell.key = some k ∧ (c.indicator k).cells[row]? = some (Cell.bool true) ∧
      ∀ l ∈ categories, l ≠ k → (c.indicator l).cells[row]? = some (Cell.bool false)
  width : r.width + 1 + (t.columns.filter fun d =>
    d.name ∈ categories.map fun k => (c.indicator k).name).length = t.width + categories.length
  height : r.height = t.height

theorem column?_oneHotEncode_indicator (hc : c ∈ t.columns) (hname : c.name ≠ "") {k : String}
    (hk : k ∈ c.categories) :
    (t.oneHotEncode c.name).column? (c.indicator k).name = some (c.indicator k) := by
  rw [oneHotEncode_of_some (cells?_of_mem hc hname)]
  exact (column?_setIndicators _ _).trans (if_pos hk)

theorem columns_oneHotEncode (hc : c ∈ t.columns) (hname : c.name ≠ "") :
    (t.oneHotEncode c.name).columns =
      (t.columns.filter (·.name ≠ c.name)).map (c.replacement c.categories) ++
        (c.categories.filter fun k => (c.indicator k).name ∉ t.names).map c.indicator := by
  -- The names of the indicators are not that of the column, so it makes no difference that it is gone.
  have hnames : ∀ k, (c.indicator k).name ∈ (t.dropColumn c.name).names ↔
      (c.indicator k).name ∈ t.names := by
    intro k
    have hne := c.name_indicator_ne k
    simp only [names, dropColumn, List.mem_map, List.mem_filter, decide_eq_true_eq]
    constructor
    · rintro ⟨d, ⟨hd, -⟩, heq⟩
      exact ⟨d, hd, heq⟩
    · rintro ⟨d, hd, heq⟩
      exact ⟨d, ⟨hd, heq ▸ hne⟩, heq⟩
  rw [oneHotEncode_of_some (cells?_of_mem hc hname)]
  refine (columns_setIndicators c _ _ (nodup_categories c)).trans ?_
  simp only [hnames]
  rfl

theorem oneHotEncode_isOneHot (hc : c ∈ t.columns) (hname : c.name ≠ "") :
    IsOneHot t c c.categories (t.oneHotEncode c.name) where
  mem_iff k := mem_distinct.trans List.mem_filterMap
  order := pairwise_distinct c.cells
  columns := columns_oneHotEncode hc hname
  gone := by
    have hnone := t.cells?_oneHotEncode c.name
    rw [cells?_eq hname, Option.map_eq_none_iff] at hnone
    rw [← column?_isSome_iff, hnone]
    exact Bool.false_ne_true
  single k hk := filter_name_of_mem
    (List.mem_of_find?_eq_some (column?_oneHotEncode_indicator hc hname hk))
  row_null row hrow k _ := by
    rw [Column.getElem?_indicator, hrow]
    rfl
  row_one row cell hrow hcell := by
    obtain ⟨k, hkey⟩ := Option.ne_none_iff_exists'.mp (mt Cell.key_eq_none_iff.mp hcell)
    have hmem : cell ∈ c.cells := List.mem_of_getElem? hrow
    refine ⟨k, mem_distinct.mpr (mem_presentKeys hmem hkey), hkey, ?_, fun l _ hne => ?_⟩
    · simp [Column.getElem?_indicator, hrow, hkey]
    · simp [Column.getElem?_indicator, hrow, hkey, hne.symm]
  width := by
    have hgone := width_dropColumn hc
    have hcategories := List.length_eq_countP_add_countP (l := c.categories)
      fun k => decide ((c.indicator k).name ∈ t.names)
    rw [← length_filter_indicator c t (nodup_categories c), width, columns_oneHotEncode hc hname]
    simp only [List.countP_eq_length_filter, decide_eq_true_eq] at hcategories
    simp only [width, dropColumn, List.length_append, List.length_map] at hgone ⊢
    omega
  height := height_oneHotEncode t c.name

theorem oneHotEncode_isOneHot_in_place :
    let c : Column := ⟨"c", [.text "b", .null, .text "a", .text "b"]⟩
    let d : Column := ⟨"c_a", [.null, .null, .null, .null]⟩
    let t : Table := ⟨[c, d], 4, by decide, by decide⟩
    IsOneHot t c ["b", "a"] (t.oneHotEncode "c") ∧
      (t.oneHotEncode "c").columns = [c.indicator "a", c.indicator "b"] := by
  intro c d t
  have hcategories : c.categories = ["b", "a"] := by decide
  have hencoded := oneHotEncode_isOneHot (t := t) (c := c) List.mem_cons_self (by decide)
  rw [hcategories] at hencoded
  exact ⟨hencoded, hencoded.columns.trans (by decide)⟩

end Table

end TableCleaner
