import TableCleaner.Proofs.Operation.Indicators

/-!
# The most frequent value

The keys of a column are counted row by row. The counts can be looked through in any order: no two
keys are met first in one row, so the largest count is the same in every order.
-/

namespace TableCleaner

/-- How often a key was met, and the row in which it was met first. -/
structure Tally where
  key : String
  count : Nat
  first : Nat
deriving DecidableEq, Repr

namespace Tally

def again (t : Tally) : Tally := { t with count := t.count + 1 }

/-- Counts a key in a row. -/
def note (row : Nat) (k : String) : List Tally → List Tally
  | [] => [⟨k, 1, row⟩]
  | t :: rest => if t.key = k then t.again :: rest else t :: note row k rest

/-- Counts the cell of a row. An empty one has no key. -/
def noteCell (tallies : List Tally) (c : Cell) (row : Nat) : List Tally :=
  match c.key with
  | some k => note row k tallies
  | none => tallies

/-- The counted keys of a column. -/
def ofCells (cells : List Cell) : List Tally :=
  cells.zipIdx.foldl (fun tallies (c, row) => noteCell tallies c row) []

/-- A higher count is larger, and of two equal counts the one that was met first. -/
def compare (a b : Tally) : Ordering :=
  (Ord.compare a.count b.count).then (Ord.compare b.first a.first)

def larger (a b : Tally) : Tally := if a.compare b = .gt then a else b

/-- The largest count of a list. -/
def largest? : List Tally → Option Tally
  | [] => none
  | t :: rest => some (rest.foldl larger t)

/-! ## Counting row by row -/

variable {cells : List Cell} {keys : List String} {c : Cell} {k l : String} {row : Nat}

/-- The count of one key in a column. -/
def ofKey (cells : List Cell) (k : String) : Tally :=
  ⟨k, cells.countP (·.key == some k), cells.findIdx (·.key == some k)⟩

theorem note_of_notMem {f : String → Tally} (hf : ∀ l, (f l).key = l) (hk : k ∉ keys) :
    note row k (keys.map f) = keys.map f ++ [⟨k, 1, row⟩] := by
  induction keys with
  | nil => rfl
  | cons l keys ih =>
    have hlk : (f l).key ≠ k := by
      rw [hf]
      rintro rfl
      exact hk List.mem_cons_self
    rw [List.map_cons, note, if_neg hlk, ih fun hmem => hk (List.mem_cons_of_mem l hmem),
      List.cons_append]

theorem note_of_mem {f : String → Tally} (hf : ∀ l, (f l).key = l) (hnodup : keys.Nodup)
    (hk : k ∈ keys) :
    note row k (keys.map f) = keys.map fun l => if l = k then (f l).again else f l := by
  induction keys with
  | nil => cases hk
  | cons l keys ih =>
    obtain ⟨hl, hnodup⟩ := List.nodup_cons.mp hnodup
    rw [List.map_cons, List.map_cons, note, hf]
    by_cases hlk : l = k
    · have hrest : keys.map (fun m => if m = k then (f m).again else f m) = keys.map f := by
        apply List.map_congr_left
        intro m hm
        apply if_neg
        rintro rfl
        exact hl (hlk ▸ hm)
      rw [if_pos hlk, if_pos hlk, hrest]
    · rw [if_neg hlk, if_neg hlk, ih hnodup ((List.mem_cons.mp hk).resolve_left (Ne.symm hlk))]

theorem ofKey_concat_of_ne (hk : k ∈ Table.presentKeys cells) (hc : c.key ≠ some k) :
    ofKey (cells ++ [c]) k = ofKey cells k := by
  unfold ofKey
  rw [Table.findIdx_key_append hk, List.countP_append]
  simp [hc]

theorem ofKey_concat_self (hk : k ∈ Table.presentKeys cells) (hc : c.key = some k) :
    ofKey (cells ++ [c]) k = (ofKey cells k).again := by
  unfold ofKey again
  rw [Table.findIdx_key_append hk, List.countP_append]
  simp [hc]

theorem ofKey_concat_new (hk : k ∉ Table.presentKeys cells) (hc : c.key = some k) :
    ofKey (cells ++ [c]) k = ⟨k, 1, cells.length⟩ := by
  have hzero : cells.countP (·.key == some k) = 0 := by
    rw [← List.count_filterMap]
    exact List.count_eq_zero.mpr hk
  unfold ofKey
  rw [Table.findIdx_key_concat hk hc, List.countP_append, hzero]
  simp [hc]

theorem noteCell_of_none {tallies : List Tally} (hc : c.key = none) :
    noteCell tallies c row = tallies := by
  simp [noteCell, hc]

theorem noteCell_of_some {tallies : List Tally} (hc : c.key = some k) :
    noteCell tallies c row = note row k tallies := by
  simp [noteCell, hc]

theorem ofCells_concat (cells : List Cell) (c : Cell) :
    ofCells (cells ++ [c]) = noteCell (ofCells cells) c cells.length := by
  simp [ofCells, List.zipIdx_append]

theorem ofCells_eq (cells : List Cell) :
    ofCells cells = (Table.distinct (Table.presentKeys cells)).map (ofKey cells) := by
  induction cells using List.reverseRecOn with
  | nil => rfl
  | append_singleton cells c ih =>
    rw [ofCells_concat, ih, Table.presentKeys_concat]
    cases hc : c.key with
    | none =>
      rw [noteCell_of_none hc, Option.toList_none, List.append_nil]
      apply List.map_congr_left
      intro l hl
      exact (ofKey_concat_of_ne (Table.mem_distinct.mp hl) (by simp [hc])).symm
    | some k =>
      rw [noteCell_of_some hc, Option.toList_some, Table.distinct_concat]
      by_cases hold : k ∈ Table.presentKeys cells
      · rw [if_pos hold,
          note_of_mem (fun _ => rfl) (Table.nodup_distinct cells) (Table.mem_distinct.mpr hold)]
        apply List.map_congr_left
        intro l hl
        have hl := Table.mem_distinct.mp hl
        by_cases hlk : l = k
        · rw [if_pos hlk, ofKey_concat_self hl (by rw [hc, hlk])]
        · rw [if_neg hlk, ofKey_concat_of_ne hl (by simpa [hc] using Ne.symm hlk)]
      · rw [if_neg hold, note_of_notMem (fun _ => rfl) (mt Table.mem_distinct.mp hold),
          List.map_append, List.map_singleton, ofKey_concat_new hold hc]
        congr 1
        apply List.map_congr_left
        intro l hl
        have hl := Table.mem_distinct.mp hl
        refine (ofKey_concat_of_ne hl ?_).symm
        rw [hc]
        rintro ⟨⟩
        exact hold hl

/-! ## The largest count -/

/-- Counted more often, or as often and met earlier. -/
def Outranks (t u : Tally) : Prop :=
  u.count < t.count ∨ u.count = t.count ∧ t.first < u.first

variable {t u v : Tally} {tallies order : List Tally}

theorem compare_eq_gt_iff : t.compare u = .gt ↔ t.Outranks u := by
  unfold compare Outranks
  rw [Ordering.then_eq_gt, Nat.compare_eq_gt, Nat.compare_eq_eq, Nat.compare_eq_gt, eq_comm]

theorem Outranks.trans (h : t.Outranks u) (h' : u.Outranks v) : t.Outranks v := by
  unfold Outranks at *
  omega

theorem Outranks.not_symm (h : t.Outranks u) : ¬u.Outranks t := by
  unfold Outranks at *
  omega

theorem outranks_of_not (hfirst : t.first ≠ u.first) (h : ¬t.Outranks u) : u.Outranks t := by
  unfold Outranks at *
  omega

/-- A count that outranks all others of a list. -/
def IsTop (tallies : List Tally) (t : Tally) : Prop :=
  t ∈ tallies ∧ ∀ u ∈ tallies, u ≠ t → t.Outranks u

theorem IsTop.eq (h : IsTop tallies t) (h' : IsTop tallies u) : t = u := by
  by_contra hne
  exact (h.2 u h'.1 (Ne.symm hne)).not_symm (h'.2 t h.1 hne)

theorem IsTop.perm (h : IsTop tallies t) (hperm : order.Perm tallies) : IsTop order t :=
  ⟨hperm.mem_iff.mpr h.1, fun u hu => h.2 u (hperm.mem_iff.mp hu)⟩

theorem IsTop.cons (h : IsTop tallies t) (hu : u ∈ tallies) (hv : u.Outranks v) :
    IsTop (v :: tallies) t := by
  refine ⟨List.mem_cons_of_mem v h.1, fun w hw hne => ?_⟩
  rcases List.mem_cons.mp hw with rfl | hw
  · by_cases hut : u = t
    · exact hut ▸ hv
    · exact (h.2 u hu hut).trans hv
  · exact h.2 w hw hne

theorem isTop_foldl_larger (h : (t :: tallies).Pairwise (·.first ≠ ·.first)) :
    IsTop (t :: tallies) (tallies.foldl larger t) := by
  induction tallies generalizing t with
  | nil => exact ⟨List.mem_singleton_self t, by simp⟩
  | cons u rest ih =>
    obtain ⟨ht, hurest⟩ := List.pairwise_cons.mp h
    have htrest : (t :: rest).Pairwise (·.first ≠ ·.first) :=
      h.sublist ((List.sublist_cons_self u rest).cons_cons t)
    rw [List.foldl_cons, larger]
    split
    · rename_i hgt
      exact ((ih htrest).cons List.mem_cons_self (compare_eq_gt_iff.mp hgt)).perm
        (List.Perm.swap u t rest)
    · rename_i hgt
      have hout : u.Outranks t :=
        outranks_of_not (ht u List.mem_cons_self) (mt compare_eq_gt_iff.mpr hgt)
      exact (ih hurest).cons List.mem_cons_self hout

theorem isTop_largest? (h : order.Pairwise (·.first ≠ ·.first)) (ht : largest? order = some t) :
    IsTop order t := by
  cases order with
  | nil => cases ht
  | cons u rest =>
    obtain rfl := Option.some.inj ht
    exact isTop_foldl_larger h

theorem largest?_eq_none_iff : largest? order = none ↔ order = [] := by
  cases order <;> simp [largest?]

theorem pairwise_first (cells : List Cell) : (ofCells cells).Pairwise (·.first ≠ ·.first) := by
  rw [ofCells_eq, List.pairwise_map]
  exact (Table.pairwise_distinct cells).imp Nat.ne_of_lt

theorem largest?_of_perm (hperm : order.Perm (ofCells cells)) :
    largest? order = largest? (ofCells cells) := by
  have hfirst : order.Pairwise (·.first ≠ ·.first) :=
    (hperm.pairwise_iff Ne.symm).mpr (pairwise_first cells)
  cases ht : largest? (ofCells cells) with
  | none =>
    rw [largest?_eq_none_iff] at ht ⊢
    rwa [ht, List.perm_nil] at hperm
  | some t =>
    cases hu : largest? order with
    | none =>
      rw [largest?_eq_none_iff] at hu
      rw [hu, List.nil_perm] at hperm
      rw [hperm] at ht
      cases ht
    | some u =>
      have htop := (isTop_largest? (pairwise_first cells) ht).perm hperm
      rw [(isTop_largest? hfirst hu).eq htop]

/-! ## The most frequent key -/

theorem larger_ofKey (hfirst : cells.findIdx (·.key == some k) < cells.findIdx (·.key == some l)) :
    larger (ofKey cells k) (ofKey cells l) =
      ofKey cells (if (ofKey cells k).count < (ofKey cells l).count then l else k) := by
  have hgt : (ofKey cells k).compare (ofKey cells l) = .gt ↔
      ¬(ofKey cells k).count < (ofKey cells l).count := by
    rw [compare_eq_gt_iff, Outranks]
    have hfirst' : (ofKey cells k).first < (ofKey cells l).first := hfirst
    omega
  unfold larger
  by_cases hlt : (ofKey cells k).count < (ofKey cells l).count
  · rw [if_neg (mt hgt.mp (not_not_intro hlt)), if_pos hlt]
  · rw [if_pos (hgt.mpr hlt), if_neg hlt]

/-- What looking at one more key makes of the most frequent one. -/
def moreFrequent (keys : List String) (best : Option String) (k : String) : Option String :=
  match best with
  | none => some k
  | some b => if keys.count b < keys.count k then some k else some b

theorem foldl_moreFrequent (h : (k :: keys).Pairwise fun l m =>
    cells.findIdx (·.key == some l) < cells.findIdx (·.key == some m)) :
    keys.foldl (moreFrequent (Table.presentKeys cells)) (some k) =
      some ((keys.map (ofKey cells)).foldl larger (ofKey cells k)).key := by
  induction keys generalizing k with
  | nil => rfl
  | cons l keys ih =>
    obtain ⟨hk, hl⟩ := List.pairwise_cons.mp h
    have hkeys := h.sublist ((List.sublist_cons_self l keys).cons_cons k)
    have hcount : ∀ m, (Table.presentKeys cells).count m = (ofKey cells m).count := fun _ =>
      List.count_filterMap
    rw [List.map_cons, List.foldl_cons, List.foldl_cons, larger_ofKey (hk l List.mem_cons_self),
      moreFrequent, hcount, hcount]
    split
    · exact ih hl
    · exact ih hkeys

theorem mostFrequent?_eq (cells : List Cell) :
    Table.mostFrequent? (Table.presentKeys cells) = (largest? (ofCells cells)).map Tally.key := by
  have hfold : Table.mostFrequent? (Table.presentKeys cells) =
      (Table.distinct (Table.presentKeys cells)).foldl
        (moreFrequent (Table.presentKeys cells)) none := rfl
  have hpairwise := Table.pairwise_distinct cells
  rw [hfold, ofCells_eq]
  cases hkeys : Table.distinct (Table.presentKeys cells) with
  | nil => rfl
  | cons k keys =>
    rw [hkeys] at hpairwise
    exact foldl_moreFrequent hpairwise

/-- The cell that a look through the counts finds. -/
def modeOf? (order : List Tally) (cells : List Cell) : Option Cell :=
  (largest? order).bind fun t => cells[t.first]?

theorem mem_ofCells_iff : t ∈ ofCells cells ↔
    t.key ∈ Table.presentKeys cells ∧ t = ofKey cells t.key := by
  rw [ofCells_eq, List.mem_map]
  constructor
  · rintro ⟨k, hk, rfl⟩
    exact ⟨Table.mem_distinct.mp hk, rfl⟩
  · rintro ⟨hk, ht⟩
    exact ⟨t.key, Table.mem_distinct.mpr hk, ht.symm⟩

theorem ofCells_eq_nil_iff : ofCells cells = [] ↔ ∀ e ∈ cells, e = .null := by
  rw [List.eq_nil_iff_forall_not_mem]
  constructor
  · intro hnone e he
    by_contra hnull
    obtain ⟨k, hk⟩ := Option.ne_none_iff_exists'.mp (mt Cell.key_eq_none_iff.mp hnull)
    exact hnone (ofKey cells k) (mem_ofCells_iff.mpr ⟨Table.mem_presentKeys he hk, rfl⟩)
  · intro hall t ht
    obtain ⟨e, he, hk⟩ := List.mem_filterMap.mp (mem_ofCells_iff.mp ht).1
    rw [hall e he] at hk
    cases hk

theorem getElem?_first (h : t ∈ ofCells cells) :
    cells[t.first]? = cells.find? (·.key == some t.key) := by
  obtain ⟨-, ht⟩ := mem_ofCells_iff.mp h
  rw [List.find?_eq_getElem?_findIdx, ht]
  rfl

theorem isTop_of_largest? (ht : largest? (ofCells cells) = some t) : IsTop (ofCells cells) t :=
  isTop_largest? (pairwise_first cells) ht

theorem modeOf?_eq (hperm : order.Perm (ofCells cells)) : modeOf? order cells = Table.mode? cells := by
  rw [modeOf?, largest?_of_perm hperm, Table.mode?, mostFrequent?_eq, Option.bind_map]
  cases ht : largest? (ofCells cells) with
  | none => rfl
  | some t => exact getElem?_first (isTop_of_largest? ht).1

end Tally

/-! ## The most frequent value -/

/-- The first cell with the key that most cells have. Of several such keys it is the one that is met
first. -/
structure IsMode (cells : List Cell) (d : Cell) : Prop where
  notNull : d ≠ .null
  first : cells.find? (·.key == d.key) = some d
  most : ∀ e ∈ cells, e ≠ .null → cells.countP (·.key == e.key) ≤ cells.countP (·.key == d.key)
  earliest : ∀ e ∈ cells, e ≠ .null → e.key ≠ d.key →
    cells.countP (·.key == e.key) = cells.countP (·.key == d.key) →
    cells.findIdx (·.key == d.key) < cells.findIdx (·.key == e.key)

variable {cells : List Cell} {d : Cell}

theorem exists_largest? (h : Table.mode? cells = some d) :
    ∃ t, Tally.IsTop (Tally.ofCells cells) t ∧ cells.find? (·.key == some t.key) = some d := by
  rw [← Tally.modeOf?_eq (List.Perm.refl _), Tally.modeOf?] at h
  obtain ⟨t, ht, hd⟩ := Option.bind_eq_some_iff.mp h
  have htop := Tally.isTop_of_largest? ht
  exact ⟨t, htop, (Tally.getElem?_first htop.1).symm.trans hd⟩

theorem isMode_of_mode? (h : Table.mode? cells = some d) : IsMode cells d := by
  obtain ⟨t, ⟨ht, htop⟩, hd⟩ := exists_largest? h
  have hkey : d.key = some t.key := by simpa using List.find?_some hd
  obtain ⟨-, ht⟩ := Tally.mem_ofCells_iff.mp ht
  -- Another key of the column has a count of its own, which the top outranks.
  have hout : ∀ e ∈ cells, e ≠ .null → e.key ≠ d.key →
      ∃ l, e.key = some l ∧ t.Outranks (Tally.ofKey cells l) := by
    intro e he hnull hne
    obtain ⟨l, hl⟩ := Option.ne_none_iff_exists'.mp (mt Cell.key_eq_none_iff.mp hnull)
    refine ⟨l, hl, htop _ (Tally.mem_ofCells_iff.mpr ⟨Table.mem_presentKeys he hl, rfl⟩) ?_⟩
    rintro rfl
    exact hne (hl.trans hkey.symm)
  constructor
  case notNull =>
    rintro rfl
    cases hkey
  case first => rwa [hkey]
  case most =>
    intro e he hnull
    by_cases hsame : e.key = d.key
    · exact Nat.le_of_eq (by rw [hsame])
    · obtain ⟨l, hl, hrank⟩ := hout e he hnull hsame
      rw [ht] at hrank
      rw [hl, hkey]
      rcases hrank with hless | ⟨heq, -⟩
      · exact Nat.le_of_lt hless
      · exact Nat.le_of_eq heq
  case earliest =>
    intro e he hnull hne hcount
    obtain ⟨l, hl, hrank⟩ := hout e he hnull hne
    rw [ht] at hrank
    rw [hl, hkey] at hcount ⊢
    rcases hrank with hless | ⟨-, hfirst⟩
    · exact absurd hcount (Nat.ne_of_lt hless)
    · exact hfirst

theorem mode?_eq_none_iff : Table.mode? cells = none ↔ ∀ e ∈ cells, e = .null := by
  rw [← Tally.ofCells_eq_nil_iff, ← Tally.modeOf?_eq (List.Perm.refl _), Tally.modeOf?,
    ← Tally.largest?_eq_none_iff]
  cases ht : Tally.largest? (Tally.ofCells cells) with
  | none => simp
  | some t =>
    have hmem := (Tally.isTop_of_largest? ht).1
    obtain ⟨f, hf, hkey⟩ := List.mem_filterMap.mp (Tally.mem_ofCells_iff.mp hmem).1
    rw [Option.bind_some, Tally.getElem?_first hmem, List.find?_eq_none]
    simp only [reduceCtorEq, iff_false, not_forall]
    exact ⟨f, hf, by simp [hkey]⟩

end TableCleaner
