import TableCleaner.Proofs.Json.Record
import TableCleaner.Step.Reading

/-!
# Steps that are written and read back

Reading brings a step into a normal form: the operation has no parameter that its record would
lose, and no extra key is one that its kind reads. A step in normal form is read back from its
canonical record, operation and extra keys both.
-/

namespace TableCleaner

/-! ## Names -/

theorem Kind.ofName?_name (kind : Kind) : Kind.ofName? kind.name = some kind := by
  cases kind with
  | scale s => cases s <;> decide
  | _ => decide

theorem TargetType.ofName?_getD (type? : Option TargetType) :
    ofName? ((type?.map name).getD "") = type? := by
  cases type? with
  | none => rfl
  | some type => cases type <;> rfl

theorem ImputeStrategy.ofName?_getD (strategy? : Option ImputeStrategy) :
    ofName? ((strategy?.map name).getD "") = strategy? := by
  cases strategy? with
  | none => rfl
  | some strategy => cases strategy <;> rfl

theorem DatePart.ofName?_getD (part? : Option DatePart) :
    ofName? ((part?.map name).getD "") = part? := by
  cases part? with
  | none => rfl
  | some part => cases part <;> rfl

theorem Operation.kindName_eq {op : Operation} {kind : Kind} (h : op.kind? = some kind) :
    op.kindName = kind.name := by
  cases op with
  | unsupported name => simp [kind?] at h
  | _ => simp only [kindName, h, Option.map_some, Option.getD_some]

/-! ## Values of groups -/

namespace Record

@[simp] theorem first?_nil (r : Record) : r.first? [] = none := rfl

theorem first?_cons (r : Record) (key : String) (group : List String) :
    r.first? (key :: group) = ((r.get? key).filter (!·.isNull)).or (r.first? group) := by
  unfold first?
  rw [List.filterMap_cons]
  cases r.get? key with
  | none => rfl
  | some v =>
    rw [List.find?_cons]
    cases hv : v.isNull <;> simp [Option.filter, hv]

theorem first?_not_null {r : Record} {group : List String} {v : Json}
    (h : r.first? group = some v) : v ≠ .null := by
  rintro rfl
  simpa [Json.isNull] using List.find?_some h

def textValue? (value : String) : Option Json :=
  if value.isEmpty then none else some (.text value)

@[simp] theorem lastValue?_textEntry (key value k : String) :
    lastValue? (Step.textEntry key value) k = if k = key then textValue? value else none := by
  unfold Step.textEntry textValue?
  split
  · simp [lastValue?]
  · rw [lastValue?_single]

@[simp] theorem lastValue?_valueEntry (key : String) (value : Option Json) (k : String) :
    lastValue? (Step.valueEntry key value) k = if k = key then value else none := by
  cases value with
  | none => simp [Step.valueEntry, lastValue?]
  | some v => exact lastValue?_single ..

@[simp] theorem filter_textValue? (value : String) :
    (textValue? value).filter (!·.isNull) = textValue? value := by
  unfold textValue?
  split <;> rfl

@[simp] theorem nameText_textValue? (value : String) :
    ((textValue? value).map Json.nameText).getD "" = value := by
  unfold textValue?
  split
  · rename_i hempty
    exact (String.isEmpty_iff.1 hempty).symm
  · rfl

theorem filter_bool (b : Bool) :
    (some (Json.bool b)).filter (!·.isNull) = some (.bool b) := rfl

theorem filter_array (items : List Json) :
    (some (Json.array items)).filter (!·.isNull) = some (.array items) := rfl

theorem filter_not_null {value : Option Json} (h : value ≠ some .null) :
    value.filter (!·.isNull) = value := by
  cases value with
  | none => rfl
  | some v => cases v <;> first | rfl | exact absurd rfl h

theorem filter_or_null (value : Option Json) :
    (value.filter (!·.isNull)).or (if value.isSome then some .null else none) = value := by
  cases value with
  | none => rfl
  | some v => cases v <;> rfl

theorem nameTexts_texts {names : List String} (h : ∀ name ∈ names, name ≠ "") :
    (Json.array (names.map .text)).nameTexts = names := by
  have hmap : (names.map Json.text).map Json.nameText = names := by
    rw [List.map_map]
    exact List.map_id' names
  unfold Json.nameTexts
  simp only [hmap]
  rw [List.filter_eq_self]
  intro name hname
  simpa using h name hname

end Record

/-! ## The normal form -/

namespace Operation

def keys (op : Operation) : List String :=
  "op" :: ((op.kind?.map Kind.groups).getD []).flatten

/-- What reading leaves: no empty name in a subset, no `null` for an imputed value, and no known
kind under the name of an unknown one. -/
def Settled : Operation → Prop
  | removeDuplicateRows subset => ∀ name ∈ subset, name ≠ ""
  | impute _ _ value => value ≠ some .null
  | unsupported name => Kind.ofName? name = none
  | _ => True

end Operation

/-- A step as reading leaves it. -/
structure Step.Normal (s : Step) : Prop where
  settled : s.operation.Settled
  extra : ∀ key ∈ s.operation.keys, s.extra.get? key = none

theorem Kind.kind?_read (r : Record) (kind : Kind) : (kind.read r).kind? = some kind := by
  cases kind <;> rfl

theorem Kind.settled_read (r : Record) (kind : Kind) : (kind.read r).Settled := by
  cases kind with
  | removeDuplicateRows =>
    intro name hname
    unfold Record.namesOf at hname
    cases h : r.first? Group.subset with
    | none => simp [h] at hname
    | some v =>
      rw [h, Option.map_some, Option.getD_some] at hname
      unfold Json.nameTexts at hname
      split at hname
      · simpa using (List.mem_filter.1 hname).2
      · simpa using (List.mem_filter.1 hname).2
  | impute =>
    intro h
    exact Record.first?_not_null h rfl
  | _ => trivial

theorem Step.normal_ofRecord (r : Record) : (ofRecord r).Normal := by
  unfold ofRecord
  extract_lets op
  split
  · rename_i kind hkind
    refine ⟨kind.settled_read r, fun key hkey => ?_⟩
    have hkey' : key ∈ "op" :: kind.groups.flatten := by
      rwa [Operation.keys, Kind.kind?_read] at hkey
    rw [Record.get?_without, if_pos hkey']
  · rename_i hkind
    refine ⟨hkind, fun key hkey => ?_⟩
    have hkey' : key ∈ ["op"] := hkey
    rw [Record.get?_without, if_pos hkey']

/-! ## Reading the parameters back -/

namespace Record

theorem first?_congr {r s : Record} {group : List String}
    (h : ∀ key ∈ group, r.get? key = s.get? key) : r.first? group = s.first? group := by
  induction group with
  | nil => rfl
  | cons key group ih =>
    rw [first?_cons, first?_cons, h key List.mem_cons_self,
      ih fun k hk => h k (List.mem_cons_of_mem _ hk)]

theorem literal?_congr {r s : Record} {group : List String}
    (h : ∀ key ∈ group, r.get? key = s.get? key) : r.literal? group = s.literal? group := by
  have hany : group.any r.contains = group.any s.contains := by
    rw [Bool.eq_iff_iff, List.any_eq_true, List.any_eq_true]
    refine exists_congr fun key => and_congr_right fun hkey => ?_
    rw [contains_eq, contains_eq, h key hkey]
  unfold literal?
  rw [first?_congr h, hany]

end Record

theorem Kind.read_congr_groups {r s : Record} {kind : Kind}
    (h : ∀ group ∈ kind.groups,
      r.first? group = s.first? group ∧ r.literal? group = s.literal? group) :
    kind.read r = kind.read s := by
  cases kind <;>
    simp_all [Kind.read, Kind.groups, Record.nameOf, Record.namesOf, Record.flagOf]

theorem Kind.read_congr {r s : Record} {kind : Kind}
    (h : ∀ key ∈ kind.groups.flatten, r.get? key = s.get? key) : kind.read r = kind.read s := by
  have hgroup : ∀ group ∈ kind.groups, ∀ key ∈ group, r.get? key = s.get? key :=
    fun group hg key hk => h key (List.mem_flatten.2 ⟨group, hg, hk⟩)
  exact read_congr_groups fun group hg =>
    ⟨Record.first?_congr (hgroup group hg), Record.literal?_congr (hgroup group hg)⟩

section

open Step Record

theorem Kind.read_parameters {op : Operation} (h : op.Settled) {kind : Kind}
    (hkind : op.kind? = some kind) : kind.read (ofEntries (parameterEntries op)) = op := by
  cases op with
  | unsupported name => simp [Operation.kind?] at hkind
  | dropColumn _ | oneHotEncode _ | labelEncode _ | scale _ _ =>
    obtain rfl := Option.some.inj hkind
    simp [read, parameterEntries, nameOf, first?_cons, Group.column]
  | renameColumn source target =>
    obtain rfl := Option.some.inj hkind
    simp [read, parameterEntries, nameOf, first?_cons, Group.renameSource, Group.renameTarget]
  | changeType column toType =>
    obtain rfl := Option.some.inj hkind
    simp [read, parameterEntries, nameOf, first?_cons, Group.column, Group.toType,
      TargetType.ofName?_getD]
  | removeDuplicateRows names =>
    obtain rfl := Option.some.inj hkind
    cases names with
    | nil => rfl
    | cons name names =>
      have htexts := nameTexts_texts h
      rw [List.map_cons] at htexts
      simp [read, parameterEntries, namesOf, first?_cons, Group.subset, filter_array, htexts]
  | impute column strategy value =>
    obtain rfl := Option.some.inj hkind
    simp [read, parameterEntries, nameOf, first?_cons, Group.column, Group.strategy, Group.value,
      ImputeStrategy.ofName?_getD, filter_not_null h]
  | replaceValues column matching replacement =>
    obtain rfl := Option.some.inj hkind
    simp [read, parameterEntries, nameOf, literal?, contains_eq, first?_cons, Group.column,
      Group.matching, Group.replacement, filter_or_null]
  | textClean column flags =>
    obtain rfl := Option.some.inj hkind
    simp [read, parameterEntries, nameOf, flagOf, first?_cons, lastValue?_cons, Group.column,
      Group.trim, Group.lowercase, Group.removeSpecial, Group.collapseSpaces, filter_bool,
      Json.isTruthy]
  | extractDatePart column part =>
    obtain rfl := Option.some.inj hkind
    simp [read, parameterEntries, nameOf, first?_cons, Group.column, Group.part,
      DatePart.ofName?_getD]

end

/-! ## Canonical records -/

namespace Step

theorem lastValue?_parameterEntries {op : Operation} {k : String}
    (h : k ∉ ((op.kind?.map Kind.groups).getD []).flatten) :
    Record.lastValue? (parameterEntries op) k = none := by
  cases op with
  | unsupported name => rfl
  | removeDuplicateRows names =>
    cases names with
    | nil => rfl
    | cons name names =>
      have hk : k ≠ "columns" := by
        rintro rfl
        exact h (by simp [Operation.kind?, Kind.groups, Group.subset])
      simp [parameterEntries, hk]
  | _ =>
    simp only [Operation.kind?, Option.map_some, Option.getD_some, Kind.groups, Group.column,
      Group.renameSource, Group.renameTarget, Group.toType, Group.strategy, Group.value,
      Group.matching, Group.replacement, Group.trim, Group.lowercase, Group.removeSpecial,
      Group.collapseSpaces, Group.part, List.flatten_cons, List.flatten_nil, List.append_nil,
      List.mem_append, List.mem_cons, List.not_mem_nil, or_false, not_or] at h
    simp [parameterEntries, Record.lastValue?_cons, h]

theorem op_not_mem_groups (kind : Kind) : "op" ∉ kind.groups.flatten := by
  cases kind with
  | scale s =>
    change "op" ∉ Kind.dropColumn.groups.flatten
    decide
  | _ => decide

theorem get?_toRecord (s : Step) (k : String) :
    s.toRecord.get? k =
      ((Record.lastValue? (parameterEntries s.operation) k).or
        (if k = "op" then some (.text s.operation.kindName) else none)).or (s.extra.get? k) := by
  unfold toRecord
  rw [Record.get?_withDefaults, Record.get?_ofEntries, Record.lastValue?_cons]

theorem get?_toRecord_op (s : Step) :
    s.toRecord.get? "op" = some (.text s.operation.kindName) := by
  have hop : "op" ∉ ((s.operation.kind?.map Kind.groups).getD []).flatten := by
    cases s.operation.kind? with
    | none => simp
    | some kind => exact op_not_mem_groups kind
  rw [get?_toRecord, lastValue?_parameterEntries hop, if_pos rfl]
  rfl

theorem Normal.without_toRecord {s : Step} (h : s.Normal) :
    s.toRecord.without s.operation.keys = s.extra := by
  apply Record.ext_get?
  intro k
  rw [Record.get?_without]
  split
  · rename_i hk
    exact (h.extra k hk).symm
  · rename_i hk
    -- What a kind does not read is not touched by writing.
    obtain ⟨hop, hgroups⟩ := not_or.1 (mt List.mem_cons.2 hk)
    rw [get?_toRecord, lastValue?_parameterEntries hgroups, if_neg hop]
    rfl

theorem Normal.read_toRecord {s : Step} (h : s.Normal) {kind : Kind}
    (hkind : s.operation.kind? = some kind) : kind.read s.toRecord = s.operation := by
  calc kind.read s.toRecord
    _ = kind.read (Record.ofEntries (parameterEntries s.operation)) := by
      apply Kind.read_congr
      intro k hk
      have hop : k ≠ "op" := fun heq => op_not_mem_groups kind (heq ▸ hk)
      -- No extra value stands in for a parameter that was not written.
      have hkey : k ∈ s.operation.keys := by
        rw [Operation.keys, hkind]
        exact List.mem_cons_of_mem _ hk
      rw [get?_toRecord, h.extra k hkey, if_neg hop, Record.get?_ofEntries, Option.or_none,
        Option.or_none]
    _ = s.operation := Kind.read_parameters h.settled hkind

theorem Normal.ofRecord_toRecord {s : Step} (h : s.Normal) : ofRecord s.toRecord = s := by
  have hname : ((s.toRecord.get? "op").bind Json.text?).getD "" = s.operation.kindName := by
    rw [get?_toRecord_op]
    rfl
  have hextra := h.without_toRecord
  unfold ofRecord
  simp only [hname]
  cases hkind : s.operation.kind? with
  | none =>
    obtain ⟨op, extra⟩ := s
    cases op with
    | unsupported name =>
      have hunknown : Kind.ofName? (Operation.unsupported name).kindName = none := h.settled
      rw [hunknown]
      exact congrArg (Step.mk _) hextra
    | _ => simp [Operation.kind?] at hkind
  | some kind =>
    rw [Operation.keys, hkind, Option.map_some, Option.getD_some] at hextra
    rw [Operation.kindName_eq hkind, Kind.ofName?_name]
    simp only [hextra, h.read_toRecord hkind]

end Step

/-! ## Every JSON value -/

def Json.opText? (v : Json) : Option String :=
  (v.record?.bind (·.get? "op")).bind Json.text?

theorem Json.opText?_eq_some_iff {v : Json} {op : String} :
    v.opText? = some op ↔ ∃ r, v.record? = some r ∧ r.get? "op" = some (.text op) := by
  have htext : ∀ w : Json, w.text? = some op ↔ w = .text op := by
    intro w
    cases w <;> simp [Json.text?]
  simp only [opText?, Option.bind_eq_some_iff, htext, exists_eq_right]

namespace Step

theorem ofJson_toJson (s : Step) : ofJson s.toJson = ofRecord s.toRecord := by
  unfold ofJson toJson
  rw [Record.record?_toJson, Option.getD_some]

theorem normal_iff (s : Step) : s.Normal ↔ ∃ v, ofJson v = s := by
  constructor
  · intro h
    exact ⟨s.toJson, by rw [ofJson_toJson, h.ofRecord_toRecord]⟩
  · rintro ⟨v, rfl⟩
    exact normal_ofRecord _

theorem ofJson_eq (v : Json) :
    ∃ extra, ofJson v =
      match v.opText?.bind Kind.ofName? with
      | some kind => ⟨kind.read (v.record?.getD .empty), extra⟩
      | none => ⟨.unsupported (v.opText?.getD ""), extra⟩ := by
  have hop : (((v.record?.getD .empty).get? "op").bind Json.text?).getD "" = v.opText?.getD "" := by
    unfold Json.opText?
    cases v.record? <;> rfl
  unfold ofJson ofRecord
  simp only [hop]
  cases v.opText? with
  | none => exact ⟨_, rfl⟩
  | some op =>
    simp only [Option.getD_some, Option.bind_some]
    cases Kind.ofName? op <;> exact ⟨_, rfl⟩

theorem named_iff (v : Json) :
    (v.opText?.bind Kind.ofName?).isSome ↔
      ∃ r op kind, v.record? = some r ∧ r.get? "op" = some (.text op) ∧
        Kind.ofName? op = some kind := by
  rw [Option.isSome_iff_exists]
  constructor
  · rintro ⟨kind, h⟩
    obtain ⟨op, hop, hkind⟩ := Option.bind_eq_some_iff.1 h
    obtain ⟨r, hr, hget⟩ := Json.opText?_eq_some_iff.1 hop
    exact ⟨r, op, kind, hr, hget, hkind⟩
  · rintro ⟨r, op, kind, hr, hget, hkind⟩
    have hop := Json.opText?_eq_some_iff.2 ⟨r, hr, hget⟩
    exact ⟨kind, Option.bind_eq_some_iff.2 ⟨op, hop, hkind⟩⟩

/-- **Round trip.** Whatever value a step was read from, it is read back from its canonical record
unchanged. It has a known kind exactly when the value names one; otherwise it keeps the name. -/
theorem ofJson_toJson_ofJson (v : Json) :
    ofJson (ofJson v).toJson = ofJson v ∧
    ((ofJson v).operation.isSupported ↔
      ∃ r op kind, v.record? = some r ∧ r.get? "op" = some (.text op) ∧
        Kind.ofName? op = some kind) ∧
    match v.opText?.bind Kind.ofName? with
    | some kind =>
      (ofJson v).operation.kind? = some kind ∧ (ofJson v).operation.kindName = kind.name
    | none => (ofJson v).operation = .unsupported (v.opText?.getD "") := by
  have hnormal : (ofJson v).Normal := normal_ofRecord _
  obtain ⟨extra, heq⟩ := ofJson_eq v
  refine ⟨?_, ?_, ?_⟩
  · rw [ofJson_toJson, hnormal.ofRecord_toRecord]
  · rw [← named_iff, heq]
    cases v.opText?.bind Kind.ofName? with
    | none => simp [Operation.isSupported, Operation.kind?]
    | some kind => simp [Operation.isSupported, Kind.kind?_read]
  · rw [heq]
    cases v.opText?.bind Kind.ofName? with
    | none => rfl
    | some kind =>
      have hkind := kind.kind?_read (v.record?.getD .empty)
      exact ⟨hkind, Operation.kindName_eq hkind⟩

end Step

end TableCleaner
