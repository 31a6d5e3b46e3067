import TableCleaner.Json.Record

/-!
# What records hold

A record is known by the values at its keys: every operation on records is described here by what
`get?` gives afterwards, and two records that give the same values are equal.
-/

namespace TableCleaner.Record

/-! ## Entries and values -/

theorem eq_of_mem {r : Record} {a b : String × Json} (ha : a ∈ r.entries) (hb : b ∈ r.entries)
    (h : a.1 = b.1) : a = b := by
  have apart := r.ascending
  unfold KeysAscend at apart
  generalize r.entries = l at ha hb apart
  induction l with
  | nil => simp at ha
  | cons e l ih =>
    obtain ⟨he, hl⟩ := List.pairwise_cons.1 apart
    rcases List.mem_cons.1 ha with rfl | ha' <;> rcases List.mem_cons.1 hb with rfl | hb'
    · rfl
    · have hlt : a.1 < b.1 := he b hb'
      rw [h] at hlt
      exact absurd hlt (String.lt_irrefl _)
    · have hlt : b.1 < a.1 := he a ha'
      rw [h] at hlt
      exact absurd hlt (String.lt_irrefl _)
    · exact ih ha' hb' hl

theorem get?_eq_some_iff {r : Record} {key : String} {v : Json} :
    r.get? key = some v ↔ (key, v) ∈ r.entries := by
  unfold get?
  constructor
  · intro h
    obtain ⟨e, he, rfl⟩ := Option.map_eq_some_iff.1 h
    have hkey : e.1 = key := by simpa using List.find?_some he
    rw [← hkey]
    exact List.mem_of_find?_eq_some he
  · intro h
    have found : (r.entries.find? (·.1 == key)).isSome := by
      rw [List.find?_isSome]
      exact ⟨_, h, by simp⟩
    obtain ⟨e, he⟩ := Option.isSome_iff_exists.1 found
    have hkey : e.1 = key := by simpa using List.find?_some he
    rw [he, eq_of_mem (List.mem_of_find?_eq_some he) h hkey]
    rfl

theorem contains_eq (r : Record) (key : String) : r.contains key = (r.get? key).isSome := by
  unfold contains get?
  rw [Option.isSome_map, Bool.eq_iff_iff, List.any_eq_true, List.find?_isSome]

theorem ext_get? {r s : Record} (h : ∀ key, r.get? key = s.get? key) : r = s := by
  have same : ∀ e, e ∈ r.entries ↔ e ∈ s.entries := by
    rintro ⟨key, v⟩
    rw [← get?_eq_some_iff, ← get?_eq_some_iff, h]
  have nodup : ∀ t : Record, t.entries.Nodup := by
    intro t
    refine List.Pairwise.imp ?_ t.ascending
    rintro a _ hlt rfl
    exact String.lt_irrefl a.1 hlt
  apply Record.ext
  refine List.Perm.eq_of_pairwise ?_ r.ascending s.ascending
    ((List.perm_ext_iff_of_nodup (nodup r) (nodup s)).2 same)
  intro a b _ _ hab hba
  exact absurd (String.lt_trans hab hba) (String.lt_irrefl _)

/-! ## Values after a change -/

theorem mem_put_self (key : String) (v : Json) (l : List (String × Json)) :
    (key, v) ∈ put key v l := by
  induction l with
  | nil => simp [put]
  | cons e l ih =>
    unfold put
    split
    · simp
    · split
      · exact List.mem_cons_of_mem _ ih
      · simp

theorem mem_put_of_ne {key : String} {v : Json} {l : List (String × Json)} {e : String × Json}
    (he : e ∈ l) (hne : e.1 ≠ key) : e ∈ put key v l := by
  induction l with
  | nil => simp at he
  | cons a l ih =>
    unfold put
    split
    · exact List.mem_cons_of_mem _ he
    · rename_i hle
      split
      · rcases List.mem_cons.1 he with rfl | he
        · simp
        · exact List.mem_cons_of_mem _ (ih he)
      · rename_i hge
        have : a.1 = key := String.le_antisymm (String.not_lt.1 hle) (String.not_lt.1 hge)
        rcases List.mem_cons.1 he with rfl | he
        · exact absurd this hne
        · exact List.mem_cons_of_mem _ he

theorem get?_insert (r : Record) (key k : String) (v : Json) :
    (r.insert key v).get? k = if k = key then some v else r.get? k := by
  split
  · rename_i hk
    rw [hk, get?_eq_some_iff]
    exact mem_put_self ..
  · rename_i hk
    apply Option.ext
    intro w
    rw [get?_eq_some_iff, get?_eq_some_iff]
    constructor
    · intro h
      rcases mem_put h with h | h
      · exact absurd (congrArg Prod.fst h) hk
      · exact h
    · exact fun h => mem_put_of_ne h hk

theorem get?_without (r : Record) (keys : List String) (k : String) :
    (r.without keys).get? k = if k ∈ keys then none else r.get? k := by
  apply Option.ext
  intro v
  rw [get?_eq_some_iff]
  simp only [without, List.mem_filter, Bool.not_eq_true', List.contains_eq_mem,
    decide_eq_false_iff_not]
  split
  · simp [*]
  · simp [*, get?_eq_some_iff]

/-- The value that a list of entries gives a key: the last of two equal keys counts. -/
def lastValue? (entries : List (String × Json)) (k : String) : Option Json :=
  (entries.reverse.find? (·.1 == k)).map (·.2)

@[simp] theorem lastValue?_nil (k : String) : lastValue? [] k = none := rfl

@[simp] theorem lastValue?_append (l m : List (String × Json)) (k : String) :
    lastValue? (l ++ m) k = (lastValue? m k).or (lastValue? l k) := by
  unfold lastValue?
  rw [List.reverse_append, List.find?_append, Option.map_or]

@[simp] theorem lastValue?_single (key : String) (v : Json) (k : String) :
    lastValue? [(key, v)] k = if k = key then some v else none := by
  unfold lastValue?
  by_cases hk : k = key
  · simp [hk]
  · simp [hk, Ne.symm hk]

theorem lastValue?_cons (e : String × Json) (l : List (String × Json)) (k : String) :
    lastValue? (e :: l) k = (lastValue? l k).or (if k = e.1 then some e.2 else none) := by
  rw [← List.singleton_append, lastValue?_append, lastValue?_single]

theorem lastValue?_of_not_mem {l : List (String × Json)} {k : String} (h : k ∉ l.map (·.1)) :
    lastValue? l k = none := by
  induction l with
  | nil => rfl
  | cons e l ih =>
    simp only [List.map_cons, List.mem_cons, not_or] at h
    rw [lastValue?_cons, ih h.2, if_neg h.1]
    rfl

theorem lastValue?_of_mem {l : List (String × Json)} {k : String} {v : Json}
    (hl : (l.map (·.1)).Nodup) (h : (k, v) ∈ l) : lastValue? l k = some v := by
  induction l with
  | nil => simp at h
  | cons e l ih =>
    obtain ⟨he, hl⟩ := List.nodup_cons.mp hl
    rw [lastValue?_cons]
    rcases List.mem_cons.mp h with rfl | h
    · rw [lastValue?_of_not_mem he, if_pos rfl]
      rfl
    · rw [ih hl h]
      rfl

@[simp] theorem get?_ofEntries (l : List (String × Json)) (k : String) :
    (ofEntries l).get? k = lastValue? l k := by
  unfold ofEntries lastValue?
  rw [List.foldl_eq_foldr_reverse]
  induction l.reverse with
  | nil => rfl
  | cons e l ih =>
    rw [List.foldr_cons, get?_insert, ih, List.find?_cons]
    by_cases hk : e.1 = k
    · simp [hk]
    · have hk' : (e.1 == k) = false := by simpa using hk
      rw [if_neg (Ne.symm hk), hk']

theorem get?_foldl_default (l : List (String × Json)) (r : Record) (k : String) :
    (l.foldl (fun s e => if s.contains e.1 then s else s.insert e.1 e.2) r).get? k =
      (r.get? k).or ((l.find? (·.1 == k)).map (·.2)) := by
  induction l generalizing r with
  | nil => simp
  | cons e l ih =>
    rw [List.foldl_cons, ih, List.find?_cons, contains_eq]
    by_cases hk : e.1 = k
    · subst hk
      cases h : r.get? e.1 <;> simp [h, get?_insert]
    · have hk' : (e.1 == k) = false := by simpa using hk
      rw [hk']
      split
      · rfl
      · rw [get?_insert, if_neg (Ne.symm hk)]

theorem get?_withDefaults (r other : Record) (k : String) :
    (r.withDefaults other).get? k = (r.get? k).or (other.get? k) :=
  get?_foldl_default ..

/-! ## Records as JSON values -/

theorem ofEntries_entries (r : Record) : ofEntries r.entries = r := by
  apply ext_get?
  intro k
  rw [get?_ofEntries]
  unfold lastValue?
  cases hfound : r.entries.reverse.find? (·.1 == k) with
  | none =>
    have absent := List.find?_eq_none.1 hfound
    symm
    rw [Option.map_none, Option.eq_none_iff_forall_ne_some]
    intro v hv
    exact absent (k, v) (List.mem_reverse.2 (get?_eq_some_iff.1 hv)) (by simp)
  | some e =>
    have he := List.mem_reverse.1 (List.mem_of_find?_eq_some hfound)
    have hkey : e.1 = k := by simpa using List.find?_some hfound
    symm
    rw [Option.map_some, get?_eq_some_iff, ← hkey]
    exact he

@[simp] theorem record?_toJson (r : Record) : r.toJson.record? = some r :=
  congrArg some (ofEntries_entries r)

end TableCleaner.Record
