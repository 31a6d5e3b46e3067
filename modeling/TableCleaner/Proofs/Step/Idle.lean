import TableCleaner.Proofs.Operation.Twice
import TableCleaner.Proofs.Pipeline.Report
import TableCleaner.Proofs.Step.RoundTrip

/-!
# Steps that change nothing

A step record can be at fault in many ways: it is no object, its kind is not known, or a parameter
is missing, malformed or the name of nothing. Reading turns a parameter that is missing or
malformed into an empty name or into none at all, and an operation that lacks what it needs leaves
the table as it is. Together no fault of a record reaches the data.
-/

namespace TableCleaner

/-! ## Absent columns -/

namespace Table

variable {t : Table} {name : String}

theorem cells?_eq_none_iff : t.cells? name = none ↔ name = "" ∨ name ∉ t.names := by
  by_cases hname : name = ""
  · simp [cells?, hname]
  · rw [cells?_eq hname, Option.map_eq_none_iff, ← column?_isSome_iff,
      Option.not_isSome_iff_eq_none]
    simp [hname]

theorem dropColumn_of_not_mem (h : name ∉ t.names) : t.dropColumn name = t := by
  apply ext
  · unfold dropColumn
    rw [List.filter_eq_self]
    intro c hc
    rw [decide_eq_true_iff]
    rintro rfl
    exact h (List.mem_map_of_mem hc)
  · rfl

theorem renameColumn_of_not_mem (h : name ∉ t.names) (target : String) :
    t.renameColumn name target = t := by
  have hgone : t.hasColumn name = false := by
    rw [hasColumn, ← Bool.not_eq_true, column?_isSome_iff]
    exact h
  rw [renameColumn, if_pos (.inr hgone)]

theorem position?_eq_none (h : name ∉ t.names) : t.position? name = none := by
  rw [position?, List.findIdx?_eq_none_iff]
  intro c hc
  rw [beq_eq_false_iff_ne]
  rintro rfl
  exact h (List.mem_map_of_mem hc)

theorem removeDuplicateRows_of_not_mem {subset : List String} (hname : name ∈ subset)
    (h : name ∉ t.names) : t.removeDuplicateRows subset = t := by
  have hnone : t.comparedPositions? subset = none := by
    rw [comparedPositions?, if_neg (by cases subset <;> simp_all)]
    exact mapM_eq_none hname (position?_eq_none h)
  unfold removeDuplicateRows
  rw [hnone]

end Table

/-! ## Operations that lack what they need -/

/-- The column that a change starts from. -/
def Change.source? : Change → Option String
  | drop column | map column _ | encode column => some column
  | rename source _ | derive source _ _ _ => some source
  | keep | select _ => none

theorem Change.apply_of_absent {t : Table} {ch : Change} {name : String}
    (hsource : ch.source? = some name) (h : name = "" ∨ name ∉ t.names) : ch.apply t = t := by
  have hcells : t.cells? name = none := Table.cells?_eq_none_iff.mpr h
  cases ch with
  | keep | select => simp [source?] at hsource
  | drop column =>
    obtain rfl := Option.some.inj hsource
    rcases h with rfl | h
    · rfl
    · simp only [apply, Table.dropColumn_of_not_mem h, ite_self]
  | rename source target =>
    obtain rfl := Option.some.inj hsource
    rcases h with rfl | h
    · rfl
    · simp only [apply, Table.renameColumn_of_not_mem h, ite_self]
  | map column f =>
    obtain rfl := Option.some.inj hsource
    simp only [apply, Table.mapColumn, hcells]
  | derive source target f hf =>
    obtain rfl := Option.some.inj hsource
    change t.derive source target f hf = t
    exact Table.derive_of_none hcells
  | encode column =>
    obtain rfl := Option.some.inj hsource
    exact Table.oneHotEncode_of_none hcells

namespace Operation

/-- The column that an operation works on. -/
def column? : Operation → Option String
  | dropColumn column | changeType column _ | impute column _ _ | replaceValues column _ _
  | oneHotEncode column | labelEncode column | scale _ column | textClean column _
  | extractDatePart column _ => some column
  | renameColumn source _ => some source
  | removeDuplicateRows _ | unsupported _ => none

/-- The operation lacks what it needs to change a table. -/
inductive Lacks (t : Table) : Operation → Prop
  | kind (name : String) : Lacks t (unsupported name)
  | column {op : Operation} {name : String} (hcolumn : op.column? = some name)
      (h : name = "" ∨ name ∉ t.names) : Lacks t op
  | newName (source : String) : Lacks t (renameColumn source "")
  | toType (column : String) : Lacks t (changeType column none)
  | strategy (column : String) (value : Option Json) : Lacks t (impute column none value)
  | value (column : String) : Lacks t (impute column (some .custom) none)
  | matching (column : String) (replacement : Option Json) :
      Lacks t (replaceValues column none replacement)
  | replacement (column : String) (matching : Option Json) :
      Lacks t (replaceValues column matching none)
  | part (column : String) : Lacks t (extractDatePart column none)
  | compared {subset : List String} {name : String} (hname : name ∈ subset)
      (h : name ∉ t.names) : Lacks t (removeDuplicateRows subset)

theorem apply_of_absent {t : Table} {op : Operation} {name : String}
    (hcolumn : op.column? = some name) (h : name = "" ∨ name ∉ t.names) : op.apply t = t := by
  cases op with
  | removeDuplicateRows | unsupported => simp [column?] at hcolumn
  | extractDatePart column part =>
    cases part with
    | none => rfl
    | some part =>
      rw [apply_eq]
      exact Change.apply_of_absent hcolumn h
  | dropColumn | renameColumn | changeType | impute | replaceValues | oneHotEncode | labelEncode
  | scale | textClean =>
    rw [apply_eq]
    exact Change.apply_of_absent hcolumn h

theorem apply_of_lacks {t : Table} {op : Operation} (h : op.Lacks t) : op.apply t = t := by
  cases h with
  | kind | toType | strategy | matching | part => rfl
  | column hcolumn h => exact apply_of_absent hcolumn h
  | newName source => simp [apply]
  | value column =>
    change t.impute column (some .custom) none = t
    unfold Table.impute
    cases t.cells? column <;> rfl
  | replacement column matching =>
    change t.replaceValues column matching none = t
    cases matching <;> rfl
  | compared hname h => exact Table.removeDuplicateRows_of_not_mem hname h

end Operation

/-! ## Parameters that are read from faulty values -/

/-- The value is a text or a number. -/
def Json.isScalar : Json → Bool
  | .text _ | .int _ | .float _ => true
  | _ => false

/-- The keys of a group give no name: they are missing or `null`, or the first value that is
there is neither a text nor a number, or it is the empty text. -/
inductive Record.Nameless (r : Record) (group : List String) : Prop
  | missing (h : ∀ key ∈ group, r.get? key = none ∨ r.get? key = some .null)
  | malformed {v : Json} (h : r.first? group = some v) (hv : v.isScalar = false)
  | empty (h : r.first? group = some (.text ""))

namespace Record

variable {r : Record} {group : List String}

theorem first?_eq_none (h : ∀ key ∈ group, r.get? key = none ∨ r.get? key = some .null) :
    r.first? group = none := by
  induction group with
  | nil => rfl
  | cons key group ih =>
    have hkey : (r.get? key).filter (!·.isNull) = none := by
      rcases h key List.mem_cons_self with hkey | hkey <;> rw [hkey] <;> rfl
    rw [first?_cons, hkey, ih fun k hk => h k (List.mem_cons_of_mem _ hk)]
    rfl

theorem Nameless.nameOf_eq (h : r.Nameless group) : r.nameOf group = "" := by
  unfold nameOf
  cases h with
  | missing h => rw [first?_eq_none h]; rfl
  | malformed h hv =>
    rw [h]
    rename_i v
    cases v with
    | text | int | float => simp [Json.isScalar] at hv
    | null | bool | array | object => rfl
  | empty h => rw [h]; rfl

theorem literal?_eq_none (h : ∀ key ∈ group, r.get? key = none) : r.literal? group = none := by
  have hany : group.any r.contains = false := by
    rw [List.any_eq_false]
    intro key hkey
    rw [contains_eq, h key hkey]
    exact Bool.false_ne_true
  unfold literal?
  rw [first?_eq_none fun key hkey => .inl (h key hkey), hany]
  rfl

end Record

theorem TargetType.ofName?_eq_none {s : String}
    (h : ∀ type : TargetType, parameterName s ≠ type.name) : ofName? s = none := by
  unfold ofName?
  split
  · rename_i hs; exact absurd hs (h .numeric)
  · rename_i hs; exact absurd hs (h .string)
  · rename_i hs; exact absurd hs (h .boolean)
  · rename_i hs; exact absurd hs (h .datetime)
  · rfl

theorem ImputeStrategy.ofName?_eq_none {s : String}
    (h : ∀ strategy : ImputeStrategy, parameterName s ≠ strategy.name) : ofName? s = none := by
  unfold ofName?
  split
  · rename_i hs; exact absurd hs (h .mean)
  · rename_i hs; exact absurd hs (h .median)
  · rename_i hs; exact absurd hs (h .mode)
  · rename_i hs; exact absurd hs (h .custom)
  · rfl

theorem DatePart.ofName?_eq_none {s : String}
    (h : ∀ part : DatePart, parameterName s ≠ part.name) : ofName? s = none := by
  unfold ofName?
  split
  · rename_i hs; exact absurd hs (h .year)
  · rename_i hs; exact absurd hs (h .month)
  · rename_i hs; exact absurd hs (h .day)
  · rfl

/-! ## Faulty records -/

/-- The keys for the column that a kind works on. -/
def Kind.columnGroup : Kind → List String
  | renameColumn => Group.renameSource
  | _ => Group.column

theorem Kind.column?_read (r : Record) {kind : Kind} (h : kind ≠ .removeDuplicateRows) :
    (kind.read r).column? = some (r.nameOf kind.columnGroup) := by
  cases kind with
  | removeDuplicateRows => exact absurd rfl h
  | dropColumn | renameColumn | changeType | impute | replaceValues | oneHotEncode | labelEncode
  | scale | textClean | extractDatePart => rfl

/-- The value is an object with some record that asks for a kind. -/
def Json.Asks (v : Json) (kind : Kind) (r : Record) : Prop :=
  v.record? = some r ∧ ∃ op, r.get? "op" = some (.text op) ∧ Kind.ofName? op = some kind

/-- The ways in which a value is no step that can be carried out on a table. -/
inductive Json.Faulty (t : Table) (v : Json) : Prop
  | noObject (h : ∀ entries, v ≠ .object entries)
  | noKind {r : Record} (hr : v.record? = some r) (h : r.get? "op" = none)
  | malformedKind {r : Record} {w : Json} (hr : v.record? = some r) (h : r.get? "op" = some w)
      (hw : ∀ s, w ≠ .text s)
  | unknownKind {r : Record} {op : String} (hr : v.record? = some r)
      (h : r.get? "op" = some (.text op)) (hop : Kind.ofName? op = none)
  | noColumn {r : Record} {kind : Kind} (h : v.Asks kind r) (hkind : kind ≠ .removeDuplicateRows)
      (hname : r.Nameless kind.columnGroup)
  | absentColumn {r : Record} {kind : Kind} (h : v.Asks kind r)
      (hkind : kind ≠ .removeDuplicateRows) (hname : r.nameOf kind.columnGroup ∉ t.names)
  | noTarget {r : Record} (h : v.Asks .renameColumn r) (hname : r.Nameless Group.renameTarget)
  | unknownType {r : Record} (h : v.Asks .changeType r)
      (hname : ∀ type : TargetType, parameterName (r.nameOf Group.toType) ≠ type.name)
  | unknownStrategy {r : Record} (h : v.Asks .impute r)
      (hname : ∀ s : ImputeStrategy, parameterName (r.nameOf Group.strategy) ≠ s.name)
  | unknownPart {r : Record} (h : v.Asks .extractDatePart r)
      (hname : ∀ part : DatePart, parameterName (r.nameOf Group.part) ≠ part.name)
  | noValue {r : Record} (h : v.Asks .impute r)
      (hcustom : parameterName (r.nameOf Group.strategy) = ImputeStrategy.custom.name)
      (hvalue : r.get? "value" = none ∨ r.get? "value" = some .null)
  | noMatch {r : Record} (h : v.Asks .replaceValues r)
      (hkeys : ∀ key ∈ Group.matching, r.get? key = none)
  | noReplacement {r : Record} (h : v.Asks .replaceValues r)
      (hkeys : ∀ key ∈ Group.replacement, r.get? key = none)
  | absentCompared {r : Record} {name : String} (h : v.Asks .removeDuplicateRows r)
      (hname : name ∈ r.namesOf Group.subset) (habsent : name ∉ t.names)

namespace Step

theorem operation_ofJson {v : Json} {kind : Kind} {r : Record} (h : v.Asks kind r) :
    (ofJson v).operation = kind.read r := by
  obtain ⟨hr, op, hop, hkind⟩ := h
  obtain ⟨extra, heq⟩ := ofJson_eq v
  rw [heq, Json.opText?_eq_some_iff.mpr ⟨r, hr, hop⟩, Option.bind_some, hkind, hr]
  rfl

theorem operation_ofJson_of_none {v : Json} (h : v.opText?.bind Kind.ofName? = none) :
    (ofJson v).operation = .unsupported (v.opText?.getD "") := by
  obtain ⟨extra, heq⟩ := ofJson_eq v
  rw [heq, h]

end Step

namespace Json.Faulty

theorem lacks {t : Table} {v : Json} (h : v.Faulty t) : (Step.ofJson v).operation.Lacks t := by
  cases h with
  | noObject h =>
    have hop : v.opText? = none := by
      cases v with
      | object entries => exact absurd rfl (h entries)
      | null | bool | int | float | text | array => rfl
    rw [Step.operation_ofJson_of_none (by rw [hop]; rfl)]
    exact .kind _
  | noKind hr h =>
    rw [Step.operation_ofJson_of_none (by rw [opText?, hr, Option.bind_some, h]; rfl)]
    exact .kind _
  | @malformedKind r w hr h hw =>
    have hop : v.opText? = none := by
      rw [opText?, hr, Option.bind_some, h, Option.bind_some]
      cases w with
      | text s => exact absurd rfl (hw s)
      | null | bool | int | float | array | object => rfl
    rw [Step.operation_ofJson_of_none (by rw [hop]; rfl)]
    exact .kind _
  | unknownKind hr h hop =>
    rw [Step.operation_ofJson_of_none
      (by rw [Json.opText?_eq_some_iff.mpr ⟨_, hr, h⟩, Option.bind_some, hop])]
    exact .kind _
  | noColumn h hkind hname =>
    rw [Step.operation_ofJson h]
    exact .column (Kind.column?_read _ hkind) (.inl hname.nameOf_eq)
  | absentColumn h hkind hname =>
    rw [Step.operation_ofJson h]
    exact .column (Kind.column?_read _ hkind) (.inr hname)
  | noTarget h hname =>
    rw [Step.operation_ofJson h, Kind.read, hname.nameOf_eq]
    exact .newName _
  | unknownType h hname =>
    rw [Step.operation_ofJson h, Kind.read, TargetType.ofName?_eq_none hname]
    exact .toType _
  | unknownStrategy h hname =>
    rw [Step.operation_ofJson h, Kind.read, ImputeStrategy.ofName?_eq_none hname]
    exact .strategy _ _
  | unknownPart h hname =>
    rw [Step.operation_ofJson h, Kind.read, DatePart.ofName?_eq_none hname]
    exact .part _
  | @noValue r h hcustom hvalue =>
    have hstrategy : ImputeStrategy.ofName? (r.nameOf Group.strategy) = some .custom := by
      unfold ImputeStrategy.ofName?
      rw [hcustom]
      rfl
    have hfirst : r.first? Group.value = none := by
      apply Record.first?_eq_none
      simpa [Group.value] using hvalue
    rw [Step.operation_ofJson h, Kind.read, hstrategy, hfirst]
    exact .value _
  | noMatch h hkeys =>
    rw [Step.operation_ofJson h, Kind.read, Record.literal?_eq_none hkeys]
    exact .matching _ _
  | noReplacement h hkeys =>
    rw [Step.operation_ofJson h, Kind.read, Record.literal?_eq_none hkeys]
    exact .replacement _ _
  | absentCompared h hname habsent =>
    rw [Step.operation_ofJson h]
    exact .compared hname habsent

end Json.Faulty

theorem Step.apply_of_faulty {t : Table} {v : Json} (h : v.Faulty t) :
    (Step.ofJson v).apply t = t :=
  Operation.apply_of_lacks h.lacks

namespace Pipeline

theorem runRecords_append_faulty {t : Table} {before : List Json} {v : Json}
    (h : v.Faulty (runRecords t before)) (after : List Json) :
    runRecords t (before ++ v :: after) = runRecords t (before ++ after) := by
  have hsame : (Step.ofJson v).apply (run t (before.map Step.ofJson)) =
      run t (before.map Step.ofJson) :=
    Step.apply_of_faulty h
  unfold runRecords
  rw [List.map_append, List.map_append, run_append, run_append, List.map_cons, run_cons, hsame]

/-- **Faults are harmless.** A faulty record leaves the table as it is, whatever the fault, and the
report tells the same shape before and after it. -/
theorem runRecords_of_faulty {t : Table} {v : Json} (h : v.Faulty t) :
    runRecords t [v] = t ∧
    ∃ o : Outcome, runWithReport t [Step.ofJson v] = (t, ⟨t.shape, t.shape, [o]⟩) ∧
      o.before = t.shape ∧ o.after = t.shape := by
  have hsame : (Step.ofJson v).apply t = t := Step.apply_of_faulty h
  constructor
  · exact @runRecords_append_faulty t [] v h []
  · refine ⟨(Step.ofJson v).outcome 0 t, ?_, rfl, ?_⟩
    · simp only [runWithReport, runFrom, Step.outcome, hsame]
    · simp only [Step.outcome, hsame]

theorem runRecords_of_faulty_number :
    ∃ t : Table, t.columns = [⟨"70", [.int 1, .int 1]⟩] ∧
      (Json.object [("op", .text " one_hot"), ("column", .int 7)]).Faulty t ∧
      runRecords t [.object [("op", .text " one_hot"), ("column", .int 7)]] = t := by
  let v := Json.object [("op", .text " one_hot"), ("column", .int 7)]
  have hasks : v.Asks .oneHotEncode
      (Record.ofEntries [("op", .text " one_hot"), ("column", .int 7)]) :=
    ⟨rfl, " one_hot", by decide +kernel, by decide +kernel⟩
  have hfaulty : v.Faulty ⟨[⟨"70", [.int 1, .int 1]⟩], 2, by decide, by decide⟩ :=
    .absentColumn hasks (by decide) (by decide +kernel)
  exact ⟨_, rfl, hfaulty, (runRecords_of_faulty hfaulty).1⟩

end Pipeline

end TableCleaner
