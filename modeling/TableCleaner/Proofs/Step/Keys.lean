import TableCleaner.Pipeline.Run
import TableCleaner.Proofs.Step.RoundTrip

/-!
# Keys that a step depends on

A record may hold any keys. Reading looks at its kind, and then only at the groups of names of that
kind; in each group it stops at the first value that counts. So records that agree there are the
same step, but for the extra keys, which are exactly the keys that were not looked at.
-/

namespace TableCleaner

/-! ## Groups of a record -/

namespace Record

def kind? (r : Record) : Option Kind := ((r.get? "op").bind Json.text?).bind Kind.ofName?

/-- The groups of names that count in a record. -/
def groups (r : Record) : List (List String) := (r.kind?.map Kind.groups).getD []

theorem mem_groups_iff {r : Record} {group : List String} :
    group ∈ r.groups ↔ ∃ kind, r.kind? = some kind ∧ group ∈ kind.groups := by
  unfold groups
  cases r.kind? with
  | none => simp
  | some kind => simp

theorem exists_op {r : Record} {kind : Kind} (h : r.kind? = some kind) :
    ∃ op, r.get? "op" = some (.text op) ∧ Kind.ofName? op = some kind := by
  obtain ⟨op, hop, hkind⟩ := Option.bind_eq_some_iff.mp h
  obtain ⟨v, hv, htext⟩ := Option.bind_eq_some_iff.mp hop
  cases v with
  | text s =>
    obtain rfl : s = op := Option.some.inj htext
    exact ⟨s, hv, hkind⟩
  | null | bool | int | float | array | object => cases htext

/-- The key is missing, or its value is an explicit `null`. -/
def Lacks (r : Record) (key : String) : Prop := r.get? key = none ∨ r.get? key = some .null

theorem Lacks.filter_eq {r : Record} {key : String} (h : r.Lacks key) :
    (r.get? key).filter (!·.isNull) = none := by
  rcases h with h | h <;> rw [h] <;> rfl

theorem exists_filter_eq {r : Record} {key : String} (h : ¬ r.Lacks key) :
    ∃ v, (r.get? key).filter (!·.isNull) = some v := by
  obtain ⟨hnone, hnull⟩ := not_or.mp h
  rw [filter_not_null hnull]
  exact Option.ne_none_iff_exists'.mp hnone

end Record

namespace Kind

theorem groups_apart (kind : Kind) : ∀ g ∈ kind.groups, ∀ h ∈ kind.groups, ∀ key ∈ g, key ∈ h →
    g = h := by
  cases kind with
  | scale s =>
    change ∀ g ∈ dropColumn.groups, ∀ h ∈ dropColumn.groups, ∀ key ∈ g, key ∈ h → g = h
    decide
  | _ => decide

theorem exists_read_ne (kind : Kind) : ∀ g ∈ kind.groups, ∀ key ∈ g,
    ∃ v ∈ [Json.text "numeric", .text "mean", .text "year"],
      kind.read (Record.ofEntries [(key, v)]) ≠ kind.read .empty := by
  cases kind with
  | scale s => cases s <;> decide +kernel
  | _ => decide +kernel

end Kind

/-! ## Values that count -/

namespace Record

variable {r s : Record}

theorem first?_append (r : Record) (g h : List String) :
    r.first? (g ++ h) = (r.first? g).or (r.first? h) := by
  induction g with
  | nil => rfl
  | cons key g ih => rw [List.cons_append, first?_cons, first?_cons, ih, Option.or_assoc]

theorem first?_congr_filter {group : List String}
    (h : ∀ key ∈ group, (r.get? key).filter (!·.isNull) = (s.get? key).filter (!·.isNull)) :
    r.first? group = s.first? group := by
  induction group with
  | nil => rfl
  | cons key group ih =>
    rw [first?_cons, first?_cons, h key List.mem_cons_self,
      ih fun k hk => h k (List.mem_cons_of_mem _ hk)]

/-- Two records that agree down to a name with a value, but for names that both lack. -/
structure AgreeDownTo (r s : Record) (higher : List String) (key : String) : Prop where
  higher : ∀ k ∈ higher, s.get? k = r.get? k ∨ (r.Lacks k ∧ s.Lacks k)
  here : s.get? key = r.get? key
  counts : ¬ r.Lacks key

theorem AgreeDownTo.first?_eq {higher : List String} {key : String}
    (h : r.AgreeDownTo s higher key) (lower : List String) :
    ∃ v, r.first? (higher ++ key :: lower) = some v ∧
      s.first? (higher ++ key :: lower) = some v := by
  obtain ⟨v, hv⟩ := exists_filter_eq h.counts
  have hhigher : s.first? higher = r.first? higher := by
    apply first?_congr_filter
    intro k hk
    rcases h.higher k hk with hsame | ⟨hr, hs⟩
    · rw [hsame]
    · rw [hr.filter_eq, hs.filter_eq]
  refine ⟨(r.first? higher).getD v, ?_, ?_⟩
  · rw [first?_append, first?_cons, hv]
    cases r.first? higher <;> rfl
  · rw [first?_append, first?_cons, h.here, hv, hhigher]
    cases r.first? higher <;> rfl

theorem AgreeDownTo.literal?_eq {higher : List String} {key : String}
    (h : r.AgreeDownTo s higher key) (lower : List String) :
    r.literal? (higher ++ key :: lower) = s.literal? (higher ++ key :: lower) := by
  obtain ⟨v, hr, hs⟩ := h.first?_eq lower
  unfold literal?
  rw [hr, hs]
  rfl

end Record

/-! ## Steps of agreeing records -/

namespace Step

theorem ofRecord_eq (r : Record) :
    ofRecord r =
      ⟨(r.kind?.map (·.read r)).getD (.unsupported (((r.get? "op").bind Json.text?).getD "")),
        r.without ("op" :: r.groups.flatten)⟩ := by
  unfold ofRecord Record.groups Record.kind?
  cases (r.get? "op").bind Json.text? with
  | none => rfl
  | some op =>
    simp only [Option.getD_some, Option.bind_some]
    cases Kind.ofName? op <;> rfl

theorem ofJson_of_record? {v : Json} {r : Record} (h : v.record? = some r) :
    ofJson v = ofRecord r := by
  rw [ofJson, h, Option.getD_some]

theorem mem_extra_iff (r : Record) (e : String × Json) :
    e ∈ (ofRecord r).extra.entries ↔
      e ∈ r.entries ∧ e.1 ≠ "op" ∧ ∀ group ∈ r.groups, e.1 ∉ group := by
  rw [ofRecord_eq, Record.without, List.mem_filter]
  simp [List.mem_flatten]

theorem get?_extra (r : Record) (key : String) :
    (ofRecord r).extra.get? key = if key ∈ "op" :: r.groups.flatten then none else r.get? key := by
  rw [ofRecord_eq, Record.get?_without]

section

variable {r s : Record} {group : List String}

theorem kind?_congr (hop : s.get? "op" = r.get? "op") : s.kind? = r.kind? := by
  unfold Record.kind?
  rw [hop]

theorem groups_congr (hop : s.get? "op" = r.get? "op") : s.groups = r.groups := by
  unfold Record.groups
  rw [kind?_congr hop]

theorem operation_congr (hop : s.get? "op" = r.get? "op")
    (h : ∀ group ∈ r.groups, r.first? group = s.first? group ∧ r.literal? group = s.literal? group) :
    (ofRecord s).operation = (ofRecord r).operation := by
  rw [ofRecord_eq, ofRecord_eq, kind?_congr hop, hop]
  unfold Record.groups at h
  cases hkind : r.kind? with
  | none => rfl
  | some kind =>
    rw [hkind] at h
    exact (Kind.read_congr_groups h).symm

theorem extra_congr (hop : s.get? "op" = r.get? "op") {key : String}
    (h : s.get? key = r.get? key) : (ofRecord s).extra.get? key = (ofRecord r).extra.get? key := by
  rw [get?_extra, get?_extra, groups_congr hop, h]

/-- Below the first value that counts a group may hold anything, and above it explicit `null`s. -/
theorem ofRecord_congr {higher lower : List String} {key : String} (hgroup : group ∈ r.groups)
    (hsplit : group = higher ++ key :: lower) (h : r.AgreeDownTo s higher key)
    (hrest : ∀ k ∉ group, s.get? k = r.get? k) : ofRecord s = ofRecord r := by
  obtain ⟨kind, hkind, hmem⟩ := Record.mem_groups_iff.mp hgroup
  have hop : s.get? "op" = r.get? "op" :=
    hrest "op" fun hin => op_not_mem_groups kind (List.mem_flatten.mpr ⟨group, hmem, hin⟩)
  have hoperation : (ofRecord s).operation = (ofRecord r).operation := by
    apply operation_congr hop
    intro g hg
    by_cases hsame : g = group
    · subst hsame hsplit
      obtain ⟨v, hr, hs⟩ := h.first?_eq lower
      exact ⟨hr.trans hs.symm, h.literal?_eq lower⟩
    · -- The groups have no name in common, so the other ones are untouched.
      have hsame : ∀ k ∈ g, r.get? k = s.get? k := by
        intro k hk
        refine (hrest k fun hin => hsame ?_).symm
        exact kind.groups_apart g (by simpa [Record.groups, hkind] using hg) group hmem k hk hin
      exact ⟨Record.first?_congr hsame, Record.literal?_congr hsame⟩
  have hextra : (ofRecord s).extra = (ofRecord r).extra := by
    apply Record.ext_get?
    intro k
    by_cases hk : k ∈ group
    · have hread : k ∈ "op" :: r.groups.flatten :=
        List.mem_cons_of_mem _ (List.mem_flatten.mpr ⟨group, hgroup, hk⟩)
      rw [get?_extra, get?_extra, groups_congr hop, if_pos hread, if_pos hread]
    · exact extra_congr hop (hrest k hk)
  cases hs : ofRecord s
  cases hr : ofRecord r
  simp_all

theorem exists_operation_ne (hgroup : group ∈ r.groups) {key : String} (hkey : key ∈ group) :
    ∃ a b : Record, a.get? "op" = r.get? "op" ∧ (∀ k ≠ key, b.get? k = a.get? k) ∧
      (ofRecord b).operation ≠ (ofRecord a).operation := by
  obtain ⟨kind, hreads, hmem⟩ := Record.mem_groups_iff.mp hgroup
  obtain ⟨op, hop, hkind⟩ := Record.exists_op hreads
  obtain ⟨v, -, hne⟩ := kind.exists_read_ne group hmem key hkey
  have hapart : ∀ k ∈ kind.groups.flatten, k ≠ "op" := by
    rintro k hk rfl
    exact op_not_mem_groups kind hk
  have hother : key ≠ "op" := hapart key (List.mem_flatten.mpr ⟨group, hmem, hkey⟩)
  let a := Record.ofEntries [("op", .text op)]
  let b := Record.ofEntries [("op", .text op), (key, v)]
  have hread : ∀ r : Record, r.get? "op" = some (.text op) →
      (ofRecord r).operation = kind.read r := by
    intro r hr
    simp [ofRecord_eq, Record.kind?, hr, Json.text?, hkind]
  -- The name of the kind itself is in no group.
  have ha : kind.read a = kind.read .empty := by
    apply Kind.read_congr
    intro k hk
    simp only [a, Record.get?_ofEntries, Record.lastValue?_single, if_neg (hapart k hk)]
    rfl
  have hb : kind.read b = kind.read (Record.ofEntries [(key, v)]) := by
    apply Kind.read_congr
    intro k hk
    simp [b, Record.lastValue?_cons, hapart k hk]
  refine ⟨a, b, by simp [a, hop], fun k hk => by simp [a, b, Record.lastValue?_cons, hk], ?_⟩
  rw [hread a (by simp [a]), hread b (by simp [b, Record.lastValue?_cons, hother.symm]), ha, hb]
  exact hne

end

end Step

/-! ## Runs -/

theorem Pipeline.runFrom_congr (i : Nat) (t : Table) {p q : Pipeline}
    (h : p.map (·.operation) = q.map (·.operation)) : runFrom i t p = runFrom i t q := by
  induction p generalizing i t q with
  | nil =>
    obtain rfl : q = [] := by simpa using h.symm
    rfl
  | cons step p ih =>
    cases q with
    | nil => simp at h
    | cons other q =>
      obtain ⟨hop, hrest⟩ := List.cons_eq_cons.mp h
      simp only [runFrom, Step.apply, hop, ih _ _ hrest]

namespace Step

/-- **What reading looks at.** A record is looked at in its kind and in the groups of that kind.
Records that agree there have one operation, and differ in no extra key but those in which they
differ themselves, so no run tells them apart. The extra keys are those not looked at. In a group
that holds a value, what stands below it and the `null`s above it do not count at all. Yet each
name of a group counts in some record. -/
theorem ofJson_reads_groups {v w : Json} {r s : Record} (hv : v.record? = some r)
    (hw : w.record? = some s) (hop : s.get? "op" = r.get? "op") :
    ((∀ group ∈ r.groups, ∀ key ∈ group, s.get? key = r.get? key) →
      (ofJson w).operation = (ofJson v).operation ∧
      (∀ key, s.get? key = r.get? key →
        (ofJson w).extra.get? key = (ofJson v).extra.get? key) ∧
      ∀ t before after, Pipeline.runWithReport t (before ++ ofJson w :: after) =
        Pipeline.runWithReport t (before ++ ofJson v :: after)) ∧
    (∀ e, e ∈ (ofJson v).extra.entries ↔
      e ∈ r.entries ∧ e.1 ≠ "op" ∧ ∀ group ∈ r.groups, e.1 ∉ group) ∧
    (∀ group ∈ r.groups, ∀ higher key lower, group = higher ++ key :: lower →
      r.AgreeDownTo s higher key → (∀ k ∉ group, s.get? k = r.get? k) → ofJson w = ofJson v) ∧
    ∀ group ∈ r.groups, ∀ key ∈ group, ∃ a b : Record, a.get? "op" = r.get? "op" ∧
      (∀ k ≠ key, b.get? k = a.get? k) ∧ (ofRecord b).operation ≠ (ofRecord a).operation := by
  rw [ofJson_of_record? hv, ofJson_of_record? hw]
  refine ⟨?_, mem_extra_iff r, ?_, fun group hgroup key hkey => exists_operation_ne hgroup hkey⟩
  · intro hsame
    have hoperation : (ofRecord s).operation = (ofRecord r).operation :=
      operation_congr hop fun group hg =>
        ⟨Record.first?_congr fun key hk => (hsame group hg key hk).symm,
          Record.literal?_congr fun key hk => (hsame group hg key hk).symm⟩
    refine ⟨hoperation, fun key => extra_congr hop, fun t before after => ?_⟩
    unfold Pipeline.runWithReport
    rw [Pipeline.runFrom_congr (q := before ++ ofRecord r :: after) 0 t (by simp [hoperation])]
  · exact fun group hgroup higher key lower hsplit h hrest => ofRecord_congr hgroup hsplit h hrest

theorem ofJson_reads_groups_rename :
    ∃ (v w : Json) (r s : Record), v.record? = some r ∧ w.record? = some s ∧
      s.get? "op" = r.get? "op" ∧ (ofJson v).operation = .renameColumn "a" "b" ∧
      r.get? "from" = none ∧ s.get? "from" = some .null ∧
      r.get? "column" = none ∧ s.get? "column" = some (.int 7) ∧
      ofJson w = ofJson v ∧ ∀ e, e ∈ (ofJson v).extra.entries ↔ e = ("note", .int 1) := by
  let common : List (String × Json) :=
    [("op", .text "rename_column"), ("from_", .text "a"), ("to", .text "b"), ("note", .int 1)]
  let r := Record.ofEntries common
  let s := Record.ofEntries (("from", .null) :: ("column", .int 7) :: common)
  have hop : s.get? "op" = r.get? "op" := by decide +kernel
  have hgroups : r.groups = [Group.renameSource, Group.renameTarget] := by decide +kernel
  have hagree : r.AgreeDownTo s ["from"] "from_" := by
    refine ⟨?_, by decide +kernel, ?_⟩
    · rw [List.forall_mem_singleton]
      exact .inr ⟨.inl (by decide +kernel), .inr (by decide +kernel)⟩
    · rintro (h | h) <;> revert h <;> decide +kernel
  have hrest : ∀ k ∉ Group.renameSource, s.get? k = r.get? k := by
    intro k hk
    simp only [Group.renameSource, List.mem_cons, not_or] at hk
    simp [r, s, common, Record.lastValue?_cons, hk]
  have hentries : r.entries = [("from_", .text "a"), ("note", .int 1),
      ("op", .text "rename_column"), ("to", .text "b")] := by decide +kernel
  let v := Json.object common
  let w := Json.object (("from", .null) :: ("column", .int 7) :: common)
  obtain ⟨-, hextra, hsame, -⟩ := ofJson_reads_groups (v := v) (w := w) (r := r) (s := s) rfl rfl hop
  refine ⟨v, w, r, s, rfl, rfl, hop, by decide +kernel, by decide +kernel, by decide +kernel,
    by decide +kernel, by decide +kernel, ?_, ?_⟩
  · exact hsame Group.renameSource (by simp [hgroups]) ["from"] "from_" _ rfl hagree hrest
  · rintro ⟨key, value⟩
    rw [hextra, hgroups, hentries]
    simp [Group.renameSource, Group.renameTarget]
    grind

end Step

end TableCleaner
