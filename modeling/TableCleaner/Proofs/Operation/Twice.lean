import TableCleaner.Proofs.Operation.Change
import TableCleaner.Proofs.Table.Cells
import TableCleaner.Proofs.Table.Rows

/-!
# Repeated operations

Carried out twice, an operation does what it does once, each in its own way: a dropped column is
gone, a filled column has no empty cell, a converted cell converts to itself, kept rows differ, and
a derived column is computed again from a column that it did not touch. The cleaning of texts is
the exception: where marks are taken out, blanks can come to an end of the text.
-/

namespace TableCleaner

namespace Table

variable {t : Table} {name : String} {cells : List Cell}

/-! ## Changed columns -/

theorem cells?_mapCells (t : Table) (name : String) (f : Cell → Cell) :
    (t.mapCells name f).cells? name = (t.cells? name).map (·.map f) := by
  unfold cells?
  split
  · rfl
  · rw [column?_mapCells, Option.map_map, Option.map_map]
    rfl

theorem mapCells_mapCells (t : Table) (name : String) (f g : Cell → Cell) :
    (t.mapCells name f).mapCells name g = t.mapCells name (g ∘ f) := by
  apply ext
  · unfold mapCells
    simp only [List.map_map]
    apply List.map_congr_left
    intro c _
    by_cases hc : c.name = name <;> simp [hc]
  · rfl

theorem mapCells_congr {f g : Cell → Cell} (h : t.cells? name = some cells)
    (hfg : ∀ c ∈ cells, f c = g c) : t.mapCells name f = t.mapCells name g := by
  apply ext
  · apply List.map_congr_left
    intro c hc
    split
    · rename_i hname
      have hcells : cells = c.cells := by
        have hne : name ≠ "" := by
          rintro rfl
          simp [cells?] at h
        subst hname
        rw [cells?_of_mem hc hne] at h
        exact (Option.some.inj h).symm
      subst hcells
      rw [List.map_congr_left hfg]
    · rfl
  · rfl

theorem mapColumn_twice {f : List Cell → Cell → Cell}
    (h : ∀ cells, ∀ c ∈ cells, f (cells.map (f cells)) (f cells c) = f cells c) :
    (t.mapColumn name f).mapColumn name f = t.mapColumn name f := by
  cases hcells : t.cells? name with
  | none => simp [mapColumn, hcells]
  | some cells =>
    simp only [mapColumn, hcells, cells?_mapCells, Option.map_some, mapCells_mapCells]
    exact mapCells_congr hcells (h cells)

theorem dropColumn_twice (t : Table) (name : String) :
    (t.dropColumn name).dropColumn name = t.dropColumn name := by
  apply ext
  · simp [dropColumn]
  · rfl

theorem renameColumn_twice (t : Table) (source target : String) :
    (t.renameColumn source target).renameColumn source target = t.renameColumn source target := by
  by_cases h : source = target ∨ t.hasColumn source = false
  · simp only [renameColumn, if_pos h]
  · -- No column has the old name any more.
    have hgone : (t.renameColumn source target).hasColumn source = false := by
      rw [hasColumn, Option.isSome_eq_false_iff, Option.isNone_iff_eq_none, column?,
        List.find?_eq_none, renameColumn, if_neg h]
      intro c hc
      obtain ⟨d, -, rfl⟩ := List.mem_map.mp hc
      have hne : source ≠ target := fun he => h (.inl he)
      split <;> simp_all [Ne.symm hne]
    generalize t.renameColumn source target = s at hgone ⊢
    rw [renameColumn, if_pos (.inr hgone)]

/-! ## Derived columns -/

theorem derive_of_none {target : String} {f : List Cell → List Cell}
    {hf : ∀ cells, (f cells).length = cells.length} (h : t.cells? name = none) :
    t.derive name target f hf = t := by
  unfold derive
  split
  · rfl
  · simp_all

theorem derive_of_some {target : String} {f : List Cell → List Cell}
    {hf : ∀ cells, (f cells).length = cells.length} (h : t.cells? name = some cells) :
    t.derive name target f hf =
      t.setColumn ⟨target, f cells⟩ ((hf cells).trans (length_of_cells? h)) := by
  unfold derive
  split
  · simp_all
  · rename_i cells' h'
    obtain rfl : cells = cells' := by simpa [h] using h'
    rfl

theorem setColumn_of_column? {c : Column} (hlen : c.cells.length = t.height)
    (h : t.column? c.name = some c) : t.setColumn c hlen = t := by
  have hmem : c.name ∈ t.names := column?_isSome_iff.mp (by rw [h]; rfl)
  apply ext
  · simp only [setColumn, if_pos hmem]
    have hsame : ∀ d ∈ t.columns, (if d.name = c.name then c else d) = id d := by
      intro d hd
      split
      · rename_i hname
        rw [← hname, column?_of_mem hd] at h
        exact (Option.some.inj h).symm
      · rfl
    exact (List.map_congr_left hsame).trans (List.map_id _)
  · rfl

theorem derive_twice (t : Table) {target : String} {f : List Cell → List Cell}
    (hf : ∀ cells, (f cells).length = cells.length) (h : target ≠ name) :
    (t.derive name target f hf).derive name target f hf = t.derive name target f hf := by
  cases hcells : t.cells? name with
  | none => rw [derive_of_none hcells, derive_of_none hcells]
  | some cells =>
    have hlen : (f cells).length = t.height := (hf cells).trans (length_of_cells? hcells)
    have hsource : (t.setColumn ⟨target, f cells⟩ hlen).cells? name = some cells := by
      rw [cells?, column?_setColumn_of_ne _ h.symm]
      exact hcells
    rw [derive_of_some hcells, derive_of_some hsource]
    exact setColumn_of_column? _ (column?_setColumn_self _)

/-! ## Indicator columns -/

theorem oneHotEncode_of_none (h : t.cells? name = none) : t.oneHotEncode name = t := by
  unfold oneHotEncode
  split
  · rfl
  · simp_all

theorem column?_setIndicators_self {keys : List (Option String)} (t : Table)
    (hlen : keys.length = t.height) (categories : List String) :
    (t.setIndicators name keys hlen categories).column? name = t.column? name := by
  induction categories generalizing t with
  | nil => rfl
  | cons k rest ih =>
    have hne : name ++ "_" ++ k ≠ name := by simp [String.append_assoc]
    exact (ih (t.setColumn _ _) hlen).trans (column?_setColumn_of_ne _ hne.symm)

theorem cells?_oneHotEncode (t : Table) (name : String) :
    (t.oneHotEncode name).cells? name = none := by
  cases hcells : t.cells? name with
  | none => rw [oneHotEncode_of_none hcells, hcells]
  | some cells =>
    unfold oneHotEncode
    split
    · simp_all
    · have hgone : (t.dropColumn name).column? name = none := by
        rw [column?, List.find?_eq_none]
        intro c hc
        simpa [dropColumn] using (List.mem_filter.mp hc).2
      unfold cells?
      rw [column?_setIndicators_self, hgone]
      split <;> rfl

theorem oneHotEncode_twice (t : Table) (name : String) :
    (t.oneHotEncode name).oneHotEncode name = t.oneHotEncode name :=
  oneHotEncode_of_none (t.cells?_oneHotEncode name)

/-! ## Duplicate rows -/

theorem removeDuplicateRows_twice (t : Table) (subset : List String) :
    (t.removeDuplicateRows subset).removeDuplicateRows subset = t.removeDuplicateRows subset := by
  have hsame : (t.removeDuplicateRows subset).comparedPositions? subset =
      t.comparedPositions? subset :=
    t.comparedPositions?_removeDuplicateRows subset
  cases hpos : t.comparedPositions? subset with
  | none =>
    have hkept : t.removeDuplicateRows subset = t := by
      unfold removeDuplicateRows
      rw [hpos]
    rw [hkept, hkept]
  | some positions =>
    exact removeDuplicateRows_of_nodup _ (hsame.trans hpos)
      (t.nodup_rowKeys_removeDuplicateRows hpos)

end Table

/-! ## Changed cells -/

/-- A numeric reading is finite, but for that of an integer, which is not looked at here. -/
theorem Cell.isFinite_of_number? {c : Cell} {x : Float} (h : c.number? = some x)
    (hint : ∀ i, c ≠ .int i) : x.isFinite = true := by
  cases c with
  | null | dateTime t => simp [number?] at h
  | int i => exact absurd rfl (hint i)
  | number y =>
    rw [number?] at h
    split at h
    · obtain rfl := Option.some.inj h
      assumption
    · simp at h
  | bool b =>
    obtain rfl := Option.some.inj h
    cases b <;> rfl
  | text s =>
    rw [number?, numberOfChars?, Option.filter_eq_some_iff] at h
    exact h.2

namespace Table

theorem convertCell_numeric {c : Cell} (hint : ∀ i, c ≠ .int i) :
    convertCell .numeric c = (c.number?.map Cell.number).getD .null := by
  cases c with
  | int i => exact absurd rfl (hint i)
  | null | number | text | bool | dateTime => rfl

theorem convertCell_boolean (b : Bool) : convertCell .boolean (.bool b) = .bool b := by
  cases b <;> decide +kernel

theorem convertCell_twice (type : TargetType) (c : Cell) :
    convertCell type (convertCell type c) = convertCell type c := by
  cases type with
  | numeric =>
    by_cases hint : ∃ i, c = .int i
    · obtain ⟨i, rfl⟩ := hint
      rfl
    · have hint : ∀ i, c ≠ .int i := fun i hi => hint ⟨i, hi⟩
      rw [convertCell_numeric hint]
      cases hx : c.number? with
      | none => rfl
      | some x =>
        rw [Option.map_some, Option.getD_some, convertCell_numeric (by simp), Cell.number?,
          if_pos (Cell.isFinite_of_number? hx hint)]
        rfl
  | string => cases c <;> rfl
  | boolean =>
    obtain ⟨b, hb⟩ : ∃ b, convertCell .boolean c = .bool b := ⟨_, rfl⟩
    rw [hb, convertCell_boolean]
  | datetime =>
    simp only [convertCell]
    cases c.dateTime? <;> rfl

end Table

namespace Operation

theorem fillCell_cases (strategy : Option ImputeStrategy) (value : Option Json)
    (cells : List Cell) :
    fillCell strategy value cells = id ∨ ∃ fill : Cell, fill.isNull = false ∧
      fillCell strategy value cells = fun c => if c.isNull then fill else c := by
  unfold fillCell
  cases strategy.bind (Table.fill? cells value) with
  | none => exact .inl rfl
  | some fill =>
    cases hfill : fill.isNull with
    | true => exact .inl (by simp [hfill])
    | false => exact .inr ⟨fill, hfill, by simp [hfill]⟩

theorem fillCell_of_not_null (strategy : Option ImputeStrategy) (value : Option Json)
    (cells : List Cell) {c : Cell} (h : c.isNull = false) :
    fillCell strategy value cells c = c := by
  rcases fillCell_cases strategy value cells with heq | ⟨fill, -, heq⟩
  · rw [heq]
    rfl
  · simp [heq, h]

theorem fillCell_twice (strategy : Option ImputeStrategy) (value : Option Json)
    (cells : List Cell) (c : Cell) :
    fillCell strategy value (cells.map (fillCell strategy value cells))
        (fillCell strategy value cells c) = fillCell strategy value cells c := by
  rcases fillCell_cases strategy value cells with heq | ⟨fill, hfill, heq⟩
  · rw [heq, List.map_id, heq]
    rfl
  · -- No cell is empty any more, so it does not matter what the second value is.
    apply fillCell_of_not_null
    rw [heq]
    by_cases hc : c.isNull = true <;> simp [hc, hfill]

theorem replaceCell_twice (matching replacement : Option Json) (c : Cell) :
    replaceCell matching replacement (replaceCell matching replacement c) =
      replaceCell matching replacement c := by
  match matching, replacement with
  | none, _ => rfl
  | some _, none => rfl
  | some m, some r =>
    simp only [replaceCell]
    by_cases hc : c.key = (Cell.ofJson m).key <;> simp [hc]

end Operation

/-! ## All operations -/

/-- A second application finds nothing to do: a changed cell is what the changed column makes of
it, and a derived column is not the one that it is computed from. -/
def Change.Settles : Change → Prop
  | keep | drop _ | rename _ _ | encode _ | select _ => True
  | map _ f => ∀ cells, ∀ c ∈ cells, f (cells.map (f cells)) (f cells c) = f cells c
  | derive source target _ _ => target ≠ source

theorem Change.apply_of_settles {ch : Change} (t : Table) (h : ch.Settles) :
    ch.apply (ch.apply t) = ch.apply t := by
  cases ch with
  | keep => rfl
  | drop column =>
    simp only [apply]
    split
    · rfl
    · exact t.dropColumn_twice column
  | rename source target =>
    simp only [apply]
    split
    · rfl
    · exact t.renameColumn_twice source target
  | map column f => exact Table.mapColumn_twice h
  | derive source target f hf => exact t.derive_twice hf h
  | encode column => exact t.oneHotEncode_twice column
  | select subset => exact t.removeDuplicateRows_twice subset

theorem Operation.settles_change {op : Operation} (h : op.kind? ≠ some .textClean) :
    op.change.Settles := by
  cases op with
  | dropColumn | renameColumn | removeDuplicateRows | oneHotEncode | unsupported => exact trivial
  | changeType column toType =>
    intro cells c _
    cases toType with
    | none => rfl
    | some type => exact Table.convertCell_twice type c
  | impute column strategy value => exact fun cells c _ => fillCell_twice strategy value cells c
  | replaceValues column matching replacement =>
    exact fun _ c _ => replaceCell_twice matching replacement c
  | labelEncode column =>
    change column ++ "_label" ≠ column
    simp
  | scale scaler column =>
    change column ++ scaler.suffix ≠ column
    cases scaler <;> simp [Scaler.suffix]
  | textClean => exact absurd rfl h
  | extractDatePart column part =>
    cases part with
    | none => exact trivial
    | some part =>
      change column ++ "_" ++ part.name ≠ column
      simp [String.append_assoc]

/-- **Twice is once.** Every operation but the cleaning of texts, carried out on its own result,
leaves it as it is. -/
theorem Operation.apply_twice (t : Table) {op : Operation} (h : op.kind? ≠ some .textClean) :
    op.apply (op.apply t) = op.apply t := by
  rw [op.apply_eq, op.apply_eq]
  exact op.change.apply_of_settles t (settles_change h)

theorem Operation.apply_twice_collision :
    ∃ t : Table, t.columns = [⟨"x", [.int 1, .null, .text "a"]⟩, ⟨"x_1", [.null, .null, .int 7]⟩] ∧
      (oneHotEncode "x").kind? ≠ some .textClean ∧
      ((oneHotEncode "x").apply t).columns =
        [⟨"x_1", [.bool true, .bool false, .bool false]⟩,
          ⟨"x_a", [.bool false, .bool false, .bool true]⟩] ∧
      (oneHotEncode "x").apply ((oneHotEncode "x").apply t) = (oneHotEncode "x").apply t := by
  refine ⟨⟨[⟨"x", [.int 1, .null, .text "a"]⟩, ⟨"x_1", [.null, .null, .int 7]⟩], 3, by decide,
    by decide⟩, rfl, by decide, by decide +kernel, ?_⟩
  exact apply_twice _ (by decide)

end TableCleaner
