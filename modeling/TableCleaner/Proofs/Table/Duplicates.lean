import Mathlib.Data.List.Nodup
import TableCleaner.Proofs.Table.Cells
import TableCleaner.Proofs.Table.Rows

/-!
# Coarser and finer passes

Two lists of names can be compared: one pass over the rows looks at fewer columns than another, and
so takes more rows for equal. The rows that the coarser pass keeps are the first of their kind, and
the finer pass never takes the first away. So the coarser pass has the last word, whichever of the
two comes first.
-/

namespace TableCleaner

namespace Table

/-! ## Items picked twice -/

section

variable {α β γ : Type} [BEq α] [LawfulBEq α] [BEq β] [LawfulBEq β]

theorem firstFlags_congr {seen seen' : List α} (h : ∀ a, a ∈ seen ↔ a ∈ seen') (l : List α) :
    firstFlags seen l = firstFlags seen' l := by
  induction l generalizing seen seen' with
  | nil => rfl
  | cons a l ih =>
    have hcontains : seen.contains a = seen'.contains a := by
      rw [Bool.eq_iff_iff, List.contains_iff_mem, List.contains_iff_mem, h]
    have hmore : ∀ b, b ∈ a :: seen ↔ b ∈ a :: seen' := by
      intro b
      rw [List.mem_cons, List.mem_cons, h]
    rw [firstFlags, firstFlags, hcontains, ih hmore]

/-- The first items by a coarser key are among the first by a finer one. So they can be picked from
those. The keys that the second pass has not seen are those of items that the first one left out,
for which it has seen an item with the same finer key. -/
theorem pick_pick_firstFlags (f : β → α) {seen : List β} {coarse : List α} {keys : List β}
    {l : List γ} (hseen : ∀ b ∈ seen, f b ∈ coarse) (hl : l.length = keys.length) :
    pick (firstFlags coarse (pick (firstFlags seen keys) (keys.map f)))
        (pick (firstFlags seen keys) l) =
      pick (firstFlags coarse (keys.map f)) l := by
  induction keys generalizing seen coarse l with
  | nil =>
    obtain rfl := List.eq_nil_of_length_eq_zero hl
    rfl
  | cons b keys ih =>
    cases l with
    | nil => simp at hl
    | cons c l =>
      have hl : l.length = keys.length := by simpa using hl
      by_cases hb : seen.contains b = true
      · -- Both passes have seen the key of this item.
        have hmem : f b ∈ coarse := hseen b (List.contains_iff_mem.mp hb)
        have hsame : ∀ a, a ∈ f b :: coarse ↔ a ∈ coarse := by
          intro a
          rw [List.mem_cons, or_iff_right_of_imp]
          rintro rfl
          exact hmem
        have hkept : ∀ d ∈ b :: seen, f d ∈ coarse := by
          intro d hd
          rcases List.mem_cons.mp hd with rfl | hd
          · exact hmem
          · exact hseen d hd
        simp only [List.map_cons, firstFlags, hb, Bool.not_true, pick,
          List.contains_iff_mem.mpr hmem, firstFlags_congr hsame]
        exact ih hkept hl
      · rw [Bool.not_eq_true] at hb
        have hkept : ∀ d ∈ b :: seen, f d ∈ f b :: coarse := by
          intro d hd
          rcases List.mem_cons.mp hd with rfl | hd
          · exact List.mem_cons_self
          · exact List.mem_cons_of_mem _ (hseen d hd)
        simp only [List.map_cons, firstFlags, hb, Bool.not_false, pick]
        cases coarse.contains (f b) with
        | true =>
          simp only [Bool.not_true, pick]
          exact ih hkept hl
        | false =>
          simp only [Bool.not_false, pick, List.cons.injEq, true_and]
          exact ih hkept hl

end

/-! ## Rows kept twice -/

variable {t : Table}

theorem keepRows_keepRows {flags again both : List Bool} (h : flags.length = t.height)
    (hagain : again.length = (t.keepRows flags h).height) (hboth : both.length = t.height)
    (hpick : ∀ {γ : Type} (l : List γ), l.length = t.height →
      pick again (pick flags l) = pick both l) :
    (t.keepRows flags h).keepRows again hagain = t.keepRows both hboth := by
  apply ext
  · simp only [keepRows, List.map_map]
    apply List.map_congr_left
    intro c hc
    simp [hpick c.cells (t.length_cells c hc)]
  · have hrows := congrArg List.length (hpick (List.range t.height) (by simp))
    rw [length_pick, length_pick] at hrows
    · exact hrows
    · simpa using hboth
    · rw [length_pick (by simpa using h)]
      exact hagain

/-! ## Compared columns -/

theorem mem_of_mapM {α β : Type} {f : α → Option β} {l : List α} {r : List β}
    (h : l.mapM f = some r) {a : α} {b : β} (ha : a ∈ l) (hb : f a = some b) : b ∈ r := by
  induction l generalizing r with
  | nil => simp at ha
  | cons c l ih =>
    rw [List.mapM_cons] at h
    obtain ⟨d, hd, h⟩ := Option.bind_eq_some_iff.mp h
    obtain ⟨r', hr', h⟩ := Option.bind_eq_some_iff.mp h
    cases h
    rcases List.mem_cons.mp ha with rfl | ha
    · rw [hd] at hb
      exact Option.some.inj hb ▸ List.mem_cons_self
    · exact List.mem_cons_of_mem d (ih hr' ha)

/-- The names of the columns that are compared for a list of names; the empty list stands for all
columns. -/
def comparedNames (t : Table) (subset : List String) : List String :=
  if subset.isEmpty then t.names else subset

variable {subset finer : List String} {positions : List Nat}

theorem position?_eq_some_iff {name : String} {i : Nat} :
    t.position? name = some i ↔ ∃ c, t.columns[i]? = some c ∧ c.name = name := by
  constructor
  · intro h
    obtain ⟨hi, hname, -⟩ := List.findIdx?_eq_some_iff_getElem.mp h
    exact ⟨t.columns[i], List.getElem?_eq_getElem hi, by simpa using hname⟩
  · rintro ⟨c, hc, rfl⟩
    obtain ⟨p, hp, hcolumn⟩ := exists_position? (column?_of_mem (List.mem_of_getElem? hc))
    -- No other place has a column of this name.
    have hnames : t.names[p]? = t.names[i]? := by simp [names, hcolumn, hc]
    have hlt : p < t.names.length := by
      simpa [names] using (List.getElem?_eq_some_iff.mp hcolumn).1
    rw [hp, (List.getElem?_inj hlt t.names_nodup).mp hnames]

theorem mem_positions_iff (h : t.comparedPositions? subset = some positions) {i : Nat} :
    i ∈ positions ↔ ∃ name ∈ t.comparedNames subset, t.position? name = some i := by
  unfold comparedPositions? at h
  unfold comparedNames
  split at h
  · rename_i hempty
    obtain rfl := Option.some.inj h
    rw [if_pos hempty, List.mem_range]
    constructor
    · intro hi
      exact ⟨t.columns[i].name, List.mem_map_of_mem (List.getElem_mem hi),
        position?_eq_some_iff.mpr ⟨_, List.getElem?_eq_getElem hi, rfl⟩⟩
    · rintro ⟨name, -, hname⟩
      obtain ⟨c, hc, -⟩ := position?_eq_some_iff.mp hname
      exact (List.getElem?_eq_some_iff.mp hc).1
  · rename_i hempty
    rw [if_neg hempty]
    constructor
    · exact exists_of_mem_mapM h i
    · rintro ⟨name, hname, hi⟩
      exact mem_of_mapM h hname hi

theorem exists_positions (h : ∀ name ∈ subset, name ∈ t.names) :
    ∃ positions, t.comparedPositions? subset = some positions := by
  unfold comparedPositions?
  split
  · exact ⟨_, rfl⟩
  · refine ⟨_, mapM_some (g := fun name => (t.position? name).getD 0) fun name hname => ?_⟩
    obtain ⟨c, hc⟩ := Option.isSome_iff_exists.mp (column?_isSome_iff.mpr (h name hname))
    obtain ⟨p, hp, -⟩ := exists_position? hc
    rw [hp]
    rfl

theorem exists_rowKeys_eq_map (t : Table) {more : List Nat} (h : positions ⊆ more) :
    ∃ f, t.rowKeys positions = (t.rowKeys more).map f := by
  refine ⟨fun key => positions.map fun i => key[more.idxOf i]?.join, ?_⟩
  rw [rowKeys_eq, rowKeys_eq, List.map_map]
  apply List.map_congr_left
  intro row _
  apply List.map_congr_left
  intro i hi
  have hlt := List.idxOf_lt_length_of_mem (h hi)
  rw [rowKey, List.getElem?_map, List.getElem?_eq_getElem hlt, List.getElem_idxOf hlt]
  rfl

/-! ## Two passes -/

section

variable (hsubset : ∀ name ∈ subset, name ∈ t.names) (hfiner : ∀ name ∈ finer, name ∈ t.names)
  (h : t.comparedNames subset ⊆ t.comparedNames finer)

include hsubset hfiner h

theorem exists_compared : ∃ positions more, t.comparedPositions? subset = some positions ∧
    t.comparedPositions? finer = some more ∧ positions ⊆ more := by
  obtain ⟨positions, hpositions⟩ := exists_positions hsubset
  obtain ⟨more, hmore⟩ := exists_positions hfiner
  refine ⟨positions, more, hpositions, hmore, fun i hi => ?_⟩
  obtain ⟨name, hname, hi⟩ := (mem_positions_iff hpositions).mp hi
  exact (mem_positions_iff hmore).mpr ⟨name, h hname, hi⟩

theorem removeDuplicateRows_after_finer :
    (t.removeDuplicateRows finer).removeDuplicateRows subset = t.removeDuplicateRows subset := by
  obtain ⟨positions, more, hpositions, hmore, hsub⟩ := exists_compared hsubset hfiner h
  obtain ⟨f, hkeys⟩ := t.exists_rowKeys_eq_map hsub
  have hafter : (t.removeDuplicateRows finer).comparedPositions? subset = some positions :=
    (t.comparedPositions?_removeDuplicateRows subset).trans hpositions
  unfold removeDuplicateRows at hafter ⊢
  simp only [hmore, hpositions] at hafter ⊢
  simp only [hafter]
  apply keepRows_keepRows
  intro γ l hl
  rw [rowKeys_keepRows, hkeys]
  exact pick_pick_firstFlags f (by simp) (by simpa [rowKeys] using hl)

/-- After a coarser pass a finer one finds nothing to do: rows that differ in some columns differ
in more of them. -/
theorem removeDuplicateRows_finer_after :
    (t.removeDuplicateRows subset).removeDuplicateRows finer = t.removeDuplicateRows subset := by
  obtain ⟨positions, more, hpositions, hmore, hsub⟩ := exists_compared hsubset hfiner h
  obtain ⟨f, hkeys⟩ := (t.removeDuplicateRows subset).exists_rowKeys_eq_map hsub
  have hnodup := t.nodup_rowKeys_removeDuplicateRows hpositions
  rw [hkeys] at hnodup
  exact removeDuplicateRows_of_nodup _ ((t.comparedPositions?_removeDuplicateRows finer).trans hmore)
    (List.Nodup.of_map f hnodup)

end

theorem mem_comparedNames_congr {other : List String} (h : ∀ name, name ∈ other ↔ name ∈ subset)
    (name : String) : name ∈ t.comparedNames other ↔ name ∈ t.comparedNames subset := by
  have hempty : other.isEmpty = subset.isEmpty := by
    rw [Bool.eq_iff_iff, List.isEmpty_iff, List.isEmpty_iff, List.eq_nil_iff_forall_not_mem,
      List.eq_nil_iff_forall_not_mem]
    exact forall_congr' fun name => not_congr (h name)
  unfold comparedNames
  rw [hempty]
  split
  · rfl
  · exact h name

theorem removeDuplicateRows_congr {other : List String} (hsubset : ∀ name ∈ subset, name ∈ t.names)
    (h : ∀ name, name ∈ t.comparedNames other ↔ name ∈ t.comparedNames subset) :
    t.removeDuplicateRows other = t.removeDuplicateRows subset := by
  have hother : ∀ name ∈ other, name ∈ t.names := by
    intro name hname
    have hmem : name ∈ t.comparedNames other := by
      cases other with
      | nil => simp at hname
      | cons => exact hname
    have hmem := (h name).mp hmem
    unfold comparedNames at hmem
    split at hmem
    · exact hmem
    · exact hsubset name hmem
  calc
    t.removeDuplicateRows other = (t.removeDuplicateRows subset).removeDuplicateRows other :=
      (removeDuplicateRows_after_finer hother hsubset fun name => (h name).mp).symm
    _ = t.removeDuplicateRows subset :=
      removeDuplicateRows_finer_after hsubset hother fun name => (h name).mpr

end Table

/-- **The coarser pass has the last word.** Take two lists of names of columns, the columns of one
among those of the other, where the empty list stands for all columns. Removing the duplicate rows
by both lists, in either order, is removing them by the coarser one alone. The order of the names in
a list and their repetitions do not matter. -/
theorem Operation.removeDuplicateRows_absorbs (t : Table) {subset finer : List String}
    (hsubset : ∀ name ∈ subset, name ∈ t.names) (hfiner : ∀ name ∈ finer, name ∈ t.names)
    (h : t.comparedNames subset ⊆ t.comparedNames finer) :
    (removeDuplicateRows subset).apply ((removeDuplicateRows finer).apply t) =
      (removeDuplicateRows subset).apply t ∧
    (removeDuplicateRows finer).apply ((removeDuplicateRows subset).apply t) =
      (removeDuplicateRows subset).apply t ∧
    ∀ other, (∀ name, name ∈ other ↔ name ∈ subset) →
      (removeDuplicateRows other).apply t = (removeDuplicateRows subset).apply t := by
  refine ⟨Table.removeDuplicateRows_after_finer hsubset hfiner h,
    Table.removeDuplicateRows_finer_after hsubset hfiner h, fun other hother => ?_⟩
  exact Table.removeDuplicateRows_congr hsubset (Table.mem_comparedNames_congr hother)

/-- The second pass finds the fourth row gone, which is a duplicate by either list, and takes the
third, which is one by the coarser list alone. An integer and a text of one value are equal. -/
theorem Operation.removeDuplicateRows_absorbs_whole_rows :
    ∃ t : Table, t.columns = [⟨"a", [.int 1, .null, .text "1", .int 1]⟩,
        ⟨"b", [.text "x", .text "x", .text "y", .text "x"]⟩] ∧
      (∀ name ∈ ["a"], name ∈ t.names) ∧ (∀ name ∈ ([] : List String), name ∈ t.names) ∧
      t.comparedNames ["a"] ⊆ t.comparedNames [] ∧
      (∀ name, name ∈ ["a", "a"] ↔ name ∈ ["a"]) ∧
      ((removeDuplicateRows []).apply t).columns = [⟨"a", [.int 1, .null, .text "1"]⟩,
        ⟨"b", [.text "x", .text "x", .text "y"]⟩] ∧
      ((removeDuplicateRows ["a"]).apply t).columns = [⟨"a", [.int 1, .null]⟩,
        ⟨"b", [.text "x", .text "x"]⟩] ∧
      (removeDuplicateRows ["a"]).apply ((removeDuplicateRows []).apply t) =
        (removeDuplicateRows ["a"]).apply t ∧
      (removeDuplicateRows []).apply ((removeDuplicateRows ["a"]).apply t) =
        (removeDuplicateRows ["a"]).apply t ∧
      (removeDuplicateRows ["a", "a"]).apply t = (removeDuplicateRows ["a"]).apply t := by
  let t : Table := ⟨[⟨"a", [.int 1, .null, .text "1", .int 1]⟩,
    ⟨"b", [.text "x", .text "x", .text "y", .text "x"]⟩], 4, by decide, by decide⟩
  have hsubset : ∀ name ∈ ["a"], name ∈ t.names := by decide
  have hfiner : t.comparedNames ["a"] ⊆ t.comparedNames [] := by decide
  have hother : ∀ name, name ∈ ["a", "a"] ↔ name ∈ ["a"] := by simp
  obtain ⟨hafter, hbefore, hrepeated⟩ := removeDuplicateRows_absorbs t hsubset (by simp) hfiner
  exact ⟨t, rfl, hsubset, by simp, hfiner, hother, by decide +kernel, by decide +kernel, hafter,
    hbefore, hrepeated _ hother⟩

end TableCleaner
