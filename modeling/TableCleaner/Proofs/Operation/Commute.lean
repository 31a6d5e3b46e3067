import TableCleaner.Proofs.Operation.Twice
import TableCleaner.Proofs.Operation.Writes
import TableCleaner.Proofs.Step.Idle

/-!
# Independent operations commute

An operation on one column does not see the other columns, and it finds its own by name and not by
place. So a change of cells can be carried out before or after any operation that keeps away from
its column. Two computed columns can be set in either order as well, but they come to stand in the
order in which they are set.
-/

namespace TableCleaner

namespace Column

/-- What a change of cells does to one column. -/
def mapCells (name : String) (f : Cell → Cell) (c : Column) : Column :=
  if c.name = name then { c with cells := c.cells.map f } else c

variable {name : String} {f : Cell → Cell} {c : Column}

@[simp] theorem name_mapCells : (c.mapCells name f).name = c.name := by
  unfold mapCells
  split <;> rfl

theorem mapCells_of_ne (h : c.name ≠ name) : c.mapCells name f = c := if_neg h

end Column

namespace Table

variable {t : Table} {name : String} (f : Cell → Cell)

/-! ## A change of cells beside other changes -/

theorem columns_mapCells : (t.mapCells name f).columns = t.columns.map (Column.mapCells name f) :=
  rfl

theorem names_mapCells : (t.mapCells name f).names = t.names := by
  simp [names, columns_mapCells, Function.comp_def]

theorem column?_mapCells_of_ne {other : String} (h : other ≠ name) :
    (t.mapCells name f).column? other = t.column? other := by
  rw [column?, columns_mapCells, find?_map_name fun _ _ => Column.name_mapCells, ← column?]
  cases hc : t.column? other with
  | none => rfl
  | some c => rw [Option.map_some, Column.mapCells_of_ne (by rwa [name_of_column? hc])]

theorem cells?_mapCells_of_ne {other : String} (h : other ≠ name) :
    (t.mapCells name f).cells? other = t.cells? other := by
  unfold cells?
  rw [column?_mapCells_of_ne f h]

theorem mapCells_mapCells_of_ne {other : String} (g : Cell → Cell) (h : other ≠ name) :
    (t.mapCells name f).mapCells other g = (t.mapCells other g).mapCells name f := by
  apply ext
  · simp only [columns_mapCells, List.map_map]
    apply List.map_congr_left
    intro c _
    simp only [Function.comp_apply]
    by_cases hc : c.name = name
    · have hother : c.name ≠ other := by
        rw [hc]
        exact h.symm
      rw [Column.mapCells_of_ne hother]
      exact Column.mapCells_of_ne (by simpa using hother)
    · rw [Column.mapCells_of_ne hc]
      exact (Column.mapCells_of_ne (by simpa using hc)).symm
  · rfl

theorem dropColumn_mapCells (other : String) :
    (t.mapCells name f).dropColumn other = (t.dropColumn other).mapCells name f := by
  apply ext
  · simp [dropColumn, columns_mapCells, List.filter_map, Function.comp_def]
  · rfl

theorem renameColumn_mapCells {source target : String} (hs : source ≠ name) (ht : target ≠ name) :
    (t.mapCells name f).renameColumn source target =
      (t.renameColumn source target).mapCells name f := by
  have hthere : (t.mapCells name f).hasColumn source = t.hasColumn source := by
    rw [hasColumn, column?_mapCells_of_ne f hs, hasColumn]
  unfold renameColumn
  rw [hthere]
  split
  · rfl
  · apply ext
    · simp only [dropColumn_mapCells, columns_mapCells, List.map_map]
      apply List.map_congr_left
      intro c _
      simp only [Function.comp_apply, Column.name_mapCells]
      split
      · rename_i hc
        subst hc
        rw [Column.mapCells_of_ne hs, Column.mapCells_of_ne (c := { c with name := target }) ht]
      · rfl
    · rfl

theorem setColumn_mapCells {c : Column} (hlen : c.cells.length = t.height) (h : c.name ≠ name) :
    (t.mapCells name f).setColumn c hlen = (t.setColumn c hlen).mapCells name f := by
  apply ext
  · simp only [setColumn, names_mapCells, columns_mapCells]
    split
    · simp only [List.map_map]
      apply List.map_congr_left
      intro d _
      simp only [Function.comp_apply, Column.name_mapCells]
      split
      · rw [Column.mapCells_of_ne h]
      · rfl
    · rw [List.map_append, List.map_singleton, Column.mapCells_of_ne h]
  · rfl

theorem derive_mapCells {source target : String} {g : List Cell → List Cell}
    (hg : ∀ cells, (g cells).length = cells.length) (hs : source ≠ name) (ht : target ≠ name) :
    (t.mapCells name f).derive source target g hg = (t.derive source target g hg).mapCells name f := by
  have hcells := cells?_mapCells_of_ne (t := t) f hs
  cases h : t.cells? source with
  | none => rw [derive_of_none h, derive_of_none (hcells.trans h)]
  | some cells =>
    rw [derive_of_some h, derive_of_some (hcells.trans h)]
    exact setColumn_mapCells f _ ht

theorem setIndicators_mapCells {column : String} {keys : List (Option String)}
    (hlen : keys.length = t.height) {categories : List String}
    (h : ∀ k ∈ categories, column ++ "_" ++ k ≠ name) :
    (t.mapCells name f).setIndicators column keys hlen categories =
      (t.setIndicators column keys hlen categories).mapCells name f := by
  induction categories generalizing t with
  | nil => rfl
  | cons k rest ih =>
    let c : Column := ⟨column ++ "_" ++ k, keys.map fun key => .bool (key == some k)⟩
    have hc : c.cells.length = t.height := by simpa [c] using hlen
    have hset : (t.mapCells name f).setColumn c hc = (t.setColumn c hc).mapCells name f :=
      setColumn_mapCells f hc (h k List.mem_cons_self)
    calc ((t.mapCells name f).setColumn c hc).setIndicators column keys hlen rest
      _ = ((t.setColumn c hc).mapCells name f).setIndicators column keys hlen rest := by
        simp only [hset]
      _ = ((t.setColumn c hc).setIndicators column keys hlen rest).mapCells name f :=
        ih (t := t.setColumn c hc) hlen fun l hl => h l (List.mem_cons_of_mem k hl)

theorem oneHotEncode_of_some {cells : List Cell} (h : t.cells? name = some cells) :
    t.oneHotEncode name =
      (t.dropColumn name).setIndicators name (cells.map Cell.key)
        (by simpa [dropColumn] using length_of_cells? h) (distinct (presentKeys cells)) := by
  unfold oneHotEncode
  split
  · simp_all
  · rename_i cells' h'
    obtain rfl : cells = cells' := by simpa [h] using h'
    rfl

theorem oneHotEncode_mapCells {column : String}
    (h : name ∉ (Change.encode column).writes t) :
    (t.mapCells name f).oneHotEncode column = (t.oneHotEncode column).mapCells name f := by
  obtain ⟨hcolumn, hkeys⟩ := not_or.mp (mt List.mem_cons.mpr h)
  have hsame := cells?_mapCells_of_ne (t := t) f (Ne.symm hcolumn)
  cases hcells : t.cells? column with
  | none => rw [oneHotEncode_of_none hcells, oneHotEncode_of_none (hsame.trans hcells)]
  | some cells =>
    rw [oneHotEncode_of_some hcells, oneHotEncode_of_some (hsame.trans hcells)]
    simp only [dropColumn_mapCells]
    apply setIndicators_mapCells
    rintro k hk rfl
    rw [hcells] at hkeys
    exact hkeys (List.mem_map_of_mem (mem_distinct.mp hk))

end Table

namespace Change

variable {t : Table} {name : String} {ch : Change}

theorem apply_mapCells (f : Cell → Cell) (hselect : ∀ subset, ch ≠ .select subset)
    (hsource : ch.source? ≠ some name) (hwrites : name ∉ ch.writes t) :
    ch.apply (t.mapCells name f) = (ch.apply t).mapCells name f := by
  cases ch with
  | keep => rfl
  | drop column =>
    simp only [apply]
    split
    · rfl
    · exact Table.dropColumn_mapCells f column
  | rename source target =>
    simp only [writes, List.mem_cons, not_or] at hwrites
    simp only [apply]
    split
    · rfl
    · exact Table.renameColumn_mapCells f (Ne.symm hwrites.1) (Ne.symm hwrites.2.1)
  | map column g =>
    have hne : column ≠ name := fun he => hsource (congrArg some he)
    simp only [apply, Table.mapColumn, Table.cells?_mapCells_of_ne f hne]
    split
    · exact Table.mapCells_mapCells_of_ne f _ hne
    · rfl
  | derive source target g hg =>
    have hs : source ≠ name := fun he => hsource (congrArg some he)
    have ht : target ≠ name := fun he => hwrites (List.mem_singleton.mpr he.symm)
    exact Table.derive_mapCells f hg hs ht
  | encode column => exact Table.oneHotEncode_mapCells f hwrites
  | select subset => exact absurd rfl (hselect subset)

theorem column?_apply (hselect : ∀ subset, ch ≠ .select subset) (hwrites : name ∉ ch.writes t) :
    (ch.apply t).column? name = t.column? name := by
  have hfind : ∀ s : Table, s.column? name = (s.outside (ch.writes t)).find? (·.name == name) := by
    intro s
    rw [Table.outside, List.find?_filter, Table.column?]
    congr
    ext c
    by_cases hc : c.name = name <;> simp [hc, hwrites]
  rw [hfind, hfind, (outside_apply t ch hselect).2]

theorem cells?_apply (hselect : ∀ subset, ch ≠ .select subset) (hwrites : name ∉ ch.writes t) :
    (ch.apply t).cells? name = t.cells? name := by
  unfold Table.cells?
  rw [column?_apply hselect hwrites]

theorem apply_mapColumn (f : List Cell → Cell → Cell) (hselect : ∀ subset, ch ≠ .select subset)
    (hsource : ch.source? ≠ some name) (hwrites : name ∉ ch.writes t) :
    ch.apply (t.mapColumn name f) = (ch.apply t).mapColumn name f := by
  unfold Table.mapColumn
  rw [cells?_apply hselect hwrites]
  cases t.cells? name with
  | none => rfl
  | some cells => exact apply_mapCells (f cells) hselect hsource hwrites

end Change

/-! ## Tables with the same columns -/

namespace Table

variable {s t : Table}

theorem columns_perm (h : ∀ name, s.column? name = t.column? name) :
    s.columns.Perm t.columns := by
  have hmem : ∀ u : Table, ∀ c, c ∈ u.columns ↔ u.column? c.name = some c :=
    fun u c => ⟨column?_of_mem, List.mem_of_find?_eq_some⟩
  have hnodup : ∀ u : Table, u.columns.Nodup := fun u =>
    List.Pairwise.of_map _ (fun _ _ h he => h (congrArg _ he)) u.names_nodup
  apply (List.perm_ext_iff_of_nodup (hnodup s) (hnodup t)).mpr
  intro c
  rw [hmem, hmem, h]

theorem column?_setColumn {c : Column} (hlen : c.cells.length = t.height) (name : String) :
    (t.setColumn c hlen).column? name = if name = c.name then some c else t.column? name := by
  split
  · rename_i h
    rw [h, column?_setColumn_self]
  · exact column?_setColumn_of_ne hlen ‹_›

theorem column?_derive {source target : String} {f : List Cell → List Cell}
    (hf : ∀ cells, (f cells).length = cells.length) (name : String) :
    (t.derive source target f hf).column? name =
      if name = target then ((t.cells? source).map fun cells => ⟨target, f cells⟩).or (t.column? name)
      else t.column? name := by
  cases h : t.cells? source with
  | none => simp [derive_of_none h]
  | some cells =>
    rw [derive_of_some h, column?_setColumn]
    simp

theorem column?_derive_comm {source source' target target' : String} {f g : List Cell → List Cell}
    (hf : ∀ cells, (f cells).length = cells.length) (hg : ∀ cells, (g cells).length = cells.length)
    (htarget : target ≠ target') (h : source' ≠ target) (h' : source ≠ target') (name : String) :
    ((t.derive source target f hf).derive source' target' g hg).column? name =
      ((t.derive source' target' g hg).derive source target f hf).column? name := by
  have hcells : (t.derive source target f hf).cells? source' = t.cells? source' := by
    unfold cells?
    rw [column?_derive, if_neg h]
  have hcells' : (t.derive source' target' g hg).cells? source = t.cells? source := by
    unfold cells?
    rw [column?_derive, if_neg h']
  simp only [column?_derive, hcells, hcells']
  by_cases hname : name = target
  · simp [hname, htarget]
  · simp [hname]

end Table

namespace Operation

/-- The operation changes the cells of one column, one by one. -/
def isInPlace : Operation → Bool
  | changeType .. | impute .. | replaceValues .. | textClean .. => true
  | _ => false

/-- The operation computes a new column from another. -/
def isDeriving : Operation → Bool
  | labelEncode _ | scale .. | extractDatePart .. => true
  | _ => false

variable {f g : Operation}

theorem change_of_isInPlace {name : String} (h : f.isInPlace = true) (hname : f.column? = some name) :
    ∃ F, f.change = .map name F := by
  cases f with
  | changeType | impute | replaceValues | textClean =>
    obtain rfl := Option.some.inj hname
    exact ⟨_, rfl⟩
  | _ => cases h

theorem change_of_isDeriving (t : Table) (h : f.isDeriving = true) :
    f.change = .keep ∨ ∃ source target F hF, f.change = .derive source target F hF ∧
      f.column? = some source ∧ target ∈ f.writes t := by
  rw [← writes_eq]
  cases f with
  | labelEncode | scale =>
    exact .inr ⟨_, _, _, _, rfl, rfl, List.mem_singleton_self _⟩
  | extractDatePart column part =>
    cases part with
    | none => exact .inl rfl
    | some part => exact .inr ⟨_, _, _, _, rfl, rfl, List.mem_singleton_self _⟩
  | _ => cases h

theorem source?_change {name : String} (h : g.change.source? = some name) :
    g.column? = some name := by
  cases g with
  | extractDatePart column part =>
    cases part with
    | none => cases h
    | some part => exact h
  | _ => exact h

/-- **Independent operations commute.** An operation on the cells of a column can be carried out
before or after any operation that neither reads nor writes this column, unless that one takes rows
away. Two operations that compute new columns, neither of them from the other's, give the same
columns in either order, though not in the same places. -/
theorem apply_comm (t : Table) (f g : Operation) :
    (∀ name, f.isInPlace = true → f.column? = some name →
      (∀ subset, g ≠ .removeDuplicateRows subset) → g.column? ≠ some name →
      name ∉ g.writes t → g.apply (f.apply t) = f.apply (g.apply t)) ∧
    (f.isDeriving = true → g.isDeriving = true →
      (∀ name ∈ f.writes t, name ∉ g.writes t ∧ g.column? ≠ some name) →
      (∀ name ∈ g.writes t, f.column? ≠ some name) →
      (g.apply (f.apply t)).columns.Perm (f.apply (g.apply t)).columns ∧
        (g.apply (f.apply t)).height = (f.apply (g.apply t)).height) := by
  simp only [apply_eq]
  constructor
  · intro name hf hname hg hreads hwrites
    obtain ⟨F, hF⟩ := change_of_isInPlace hf hname
    rw [hF]
    rw [← writes_eq] at hwrites
    exact Change.apply_mapColumn F (change_ne_select hg) (fun h => hreads (source?_change h)) hwrites
  · intro hf hg hfg hgf
    rcases change_of_isDeriving t hf with hkeep | ⟨source, target, F, hF, hfc, hsource, htarget⟩
    · rw [hkeep]
      exact ⟨.refl _, rfl⟩
    rcases change_of_isDeriving t hg with hkeep | ⟨source', target', G, hG, hgc, hsource', htarget'⟩
    · rw [hkeep]
      exact ⟨.refl _, rfl⟩
    obtain ⟨hdisjoint, hreads⟩ := hfg target htarget
    have hne : target ≠ target' := by
      rintro rfl
      exact hdisjoint htarget'
    have hs' : source' ≠ target := fun h => hreads (hsource'.trans (congrArg some h))
    have hs : source ≠ target' := fun h => hgf target' htarget' (hsource.trans (congrArg some h))
    rw [hfc, hgc]
    refine ⟨Table.columns_perm (Table.column?_derive_comm hF hG hne hs' hs), ?_⟩
    simp only [Change.apply, Table.height_derive]

theorem apply_comm_encode :
    ∃ t : Table, t.names = ["x", "y", "x_1"] ∧
      (oneHotEncode "x").writes t = ["x", "x_1", "x_a"] ∧
      (oneHotEncode "x").apply ((impute "y" (some .mode) none).apply t) =
        (impute "y" (some .mode) none).apply ((oneHotEncode "x").apply t) ∧
      ((oneHotEncode "x").apply ((impute "y" (some .mode) none).apply t)).columns =
        [⟨"y", [.text "b", .text "b", .text "b"]⟩, ⟨"x_1", [.bool true, .bool false, .bool false]⟩,
          ⟨"x_a", [.bool false, .bool false, .bool true]⟩] ∧
      ((labelEncode "y").apply ((labelEncode "x").apply t)).names =
        ["x", "y", "x_1", "x_label", "y_label"] ∧
      ((labelEncode "x").apply ((labelEncode "y").apply t)).names =
        ["x", "y", "x_1", "y_label", "x_label"] ∧
      ((labelEncode "y").apply ((labelEncode "x").apply t)).columns.Perm
        ((labelEncode "x").apply ((labelEncode "y").apply t)).columns := by
  let t : Table := ⟨[⟨"x", [.int 1, .null, .text "a"]⟩, ⟨"y", [.null, .text "b", .null]⟩,
    ⟨"x_1", [.null, .null, .int 7]⟩], 3, by decide, by decide⟩
  have hwrites : (oneHotEncode "x").writes t = ["x", "x_1", "x_a"] := by decide +kernel
  have hsame : (oneHotEncode "x").apply ((impute "y" (some .mode) none).apply t) =
      (impute "y" (some .mode) none).apply ((oneHotEncode "x").apply t) :=
    (apply_comm t _ _).1 "y" rfl rfl (by simp) (by decide) (by simp [hwrites])
  have hperm := ((apply_comm t (labelEncode "x") (labelEncode "y")).2 rfl rfl (by decide)
    (by decide)).1
  exact ⟨t, by decide, hwrites, hsame, by decide +kernel, by decide +kernel, by decide +kernel,
    hperm⟩

end Operation

end TableCleaner
