import TableCleaner.Pipeline.Run
import TableCleaner.Proofs.Operation.Writes

/-!
# Reports of runs

The report of a run is written while the tables pass by. Here it is tied to the tables themselves:
each outcome says what its step did to the table that the steps before it left. So a report can be
cut anywhere, its shapes form one chain from the first table to the last, and rows are lost only
where duplicates are removed.
-/

namespace TableCleaner

/-! ## Rows after one operation -/

namespace Operation

theorem height_apply_le (t : Table) (op : Operation) : (op.apply t).height ≤ t.height := by
  obtain ⟨flags, hlen, -, hheight, -⟩ := op.exists_flags t
  rw [hheight, ← hlen]
  exact List.count_le_length

theorem height_apply_of_ne (t : Table) {op : Operation}
    (h : op.kind? ≠ some .removeDuplicateRows) : (op.apply t).height = t.height := by
  obtain ⟨flags, hlen, hall, hheight, -⟩ := op.exists_flags t
  have hflags : ∀ f ∈ flags, f = true := by
    apply hall
    rintro subset rfl
    exact h rfl
  rw [hheight, ← hlen, List.count_eq_length]
  exact fun f hf => (hflags f hf).symm

end Operation

/-! ## Outcomes -/

/-- What a step with an index does to a table. -/
def Step.outcome (step : Step) (i : Nat) (t : Table) : Outcome :=
  ⟨i, step.operation.kindName, step.operation.isSupported, t.shape, (step.apply t).shape⟩

/-- The outcome as it stands after some more steps in front. -/
def Outcome.later (n : Nat) (o : Outcome) : Outcome := { o with index := n + o.index }

theorem Step.apply_of_unsupported (t : Table) {step : Step}
    (h : step.operation.isSupported = false) : step.apply t = t := by
  obtain ⟨op, extra⟩ := step
  cases op with
  | unsupported name => rfl
  | _ => simp [Operation.isSupported, Operation.kind?] at h

namespace Pipeline

theorem runFrom_cons (i : Nat) (t : Table) (step : Step) (rest : Pipeline) :
    runFrom i t (step :: rest) = ((runFrom (i + 1) (step.apply t) rest).1,
      step.outcome i t :: (runFrom (i + 1) (step.apply t) rest).2) := rfl

theorem runFrom_fst (i : Nat) (t : Table) (steps : Pipeline) :
    (runFrom i t steps).1 = steps.foldl Step.apply t := by
  induction steps generalizing i t with
  | nil => rfl
  | cons step rest ih =>
    rw [runFrom_cons, List.foldl_cons]
    exact ih (i + 1) (step.apply t)

theorem runWithReport_fst (t : Table) (steps : Pipeline) :
    (runWithReport t steps).1 = run t steps := rfl

theorem run_eq_foldl (t : Table) (steps : Pipeline) : run t steps = steps.foldl Step.apply t :=
  runFrom_fst 0 t steps

@[simp] theorem run_nil (t : Table) : run t [] = t := rfl

@[simp] theorem run_cons (t : Table) (step : Step) (rest : Pipeline) :
    run t (step :: rest) = run (step.apply t) rest := by
  rw [run_eq_foldl, run_eq_foldl, List.foldl_cons]

theorem run_append (t : Table) (p q : Pipeline) : run t (p ++ q) = run (run t p) q := by
  simp only [run_eq_foldl, List.foldl_append]

theorem getElem?_runFrom (i : Nat) (t : Table) (steps : Pipeline) (k : Nat) :
    (runFrom i t steps).2[k]? =
      steps[k]?.map fun step => step.outcome (i + k) (run t (steps.take k)) := by
  induction steps generalizing i t k with
  | nil => rfl
  | cons step rest ih =>
    rw [runFrom_cons]
    cases k with
    | zero => rfl
    | succ k =>
      rw [List.getElem?_cons_succ, List.getElem?_cons_succ, ih, Nat.add_assoc, Nat.add_comm 1 k,
        List.take_succ_cons, run_cons]

theorem length_runFrom (i : Nat) (t : Table) (steps : Pipeline) :
    (runFrom i t steps).2.length = steps.length := by
  induction steps generalizing i t with
  | nil => rfl
  | cons step rest ih => rw [runFrom_cons, List.length_cons, List.length_cons, ih]

theorem runFrom_append (i : Nat) (t : Table) (p q : Pipeline) :
    (runFrom i t (p ++ q)).2 = (runFrom i t p).2 ++ (runFrom (i + p.length) (run t p) q).2 := by
  induction p generalizing i t with
  | nil => rfl
  | cons step rest ih =>
    rw [List.cons_append, runFrom_cons, runFrom_cons, ih, List.length_cons, Nat.add_assoc,
      Nat.add_comm 1, run_cons]
    rfl

theorem runFrom_later (n i : Nat) (t : Table) (steps : Pipeline) :
    (runFrom (n + i) t steps).2 = (runFrom i t steps).2.map (Outcome.later n) := by
  induction steps generalizing i t with
  | nil => rfl
  | cons step rest ih =>
    rw [runFrom_cons, runFrom_cons, List.map_cons, Nat.add_assoc, ih]
    rfl

theorem shapes_runFrom (i : Nat) (t : Table) (steps : Pipeline) :
    (runFrom i t steps).2.map (·.before) ++ [(run t steps).shape] =
      t.shape :: (runFrom i t steps).2.map (·.after) := by
  induction steps generalizing i t with
  | nil => rfl
  | cons step rest ih =>
    rw [runFrom_cons, List.map_cons, List.map_cons, List.cons_append, run_cons]
    exact congrArg (t.shape :: ·) (ih (i + 1) (step.apply t))

theorem run_filter_supported (t : Table) (steps : Pipeline) :
    run t (steps.filter (·.operation.isSupported)) = run t steps := by
  induction steps generalizing t with
  | nil => rfl
  | cons step rest ih =>
    by_cases h : step.operation.isSupported = true
    · rw [List.filter_cons, if_pos h, run_cons, run_cons]
      exact ih (step.apply t)
    · rw [List.filter_cons, if_neg h, ih, run_cons]
      rw [Bool.not_eq_true] at h
      rw [Step.apply_of_unsupported t h]

theorem getLast?_states (t : Table) (steps : Pipeline) :
    (t :: states t steps).getLast? = some (run t steps) := by
  induction steps generalizing t with
  | nil => rfl
  | cons step rest ih =>
    rw [states, List.getLast?_cons_cons, ih, run_cons]

end Pipeline

/-! ## Reports -/

/-- The report tells what a run on a table did, step by step. -/
structure RunReport.Describes (r : RunReport) (t : Table) (steps : Pipeline) : Prop where
  /-- There is one outcome for each step, with its place, its kind and whether it is known. -/
  outcomes : ∀ i : Nat, r.outcomes[i]?.map (fun o => (o.index, o.kind, o.isSupported)) =
    steps[i]?.map fun step => (i, step.operation.kindName, step.operation.isSupported)
  first : r.before = t.shape
  /-- Each shape after a step is the shape before the next one, and the last one is that of the
  report; without steps the report ends in the shape it begins with. -/
  chain : r.outcomes.map (·.before) ++ [r.after] = r.before :: r.outcomes.map (·.after)
  last : r.after = (Pipeline.run t steps).shape
  rows : ∀ (i : Nat) (o : Outcome) (step : Step), r.outcomes[i]? = some o → steps[i]? = some step →
    o.after.rows ≤ o.before.rows ∧
      (o.after.rows < o.before.rows → step.operation.kind? = some .removeDuplicateRows)
  counts : r.appliedCount + r.unsupported.length = steps.length

theorem RunReport.appliedCount_add_unsupported (r : RunReport) :
    r.appliedCount + r.unsupported.length = r.outcomes.length := by
  unfold appliedCount unsupported
  rw [List.length_map, ← List.countP_eq_length_filter, ← List.countP_eq_length_filter]
  simpa using (@List.length_eq_countP_add_countP _ Outcome.isSupported r.outcomes).symm

namespace Pipeline

theorem describes_runWithReport (t : Table) (steps : Pipeline) :
    (runWithReport t steps).2.Describes t steps where
  outcomes i := by
    simp only [runWithReport, getElem?_runFrom, Option.map_map]
    apply Option.map_congr
    intro step _
    simp [Step.outcome]
  first := rfl
  chain := shapes_runFrom 0 t steps
  last := rfl
  rows := by
    intro i o step ho hstep
    simp only [runWithReport, getElem?_runFrom, hstep, Option.map_some] at ho
    obtain rfl := Option.some.inj ho
    refine ⟨Operation.height_apply_le _ _, ?_⟩
    intro hlt
    by_cases hkind : step.operation.kind? = some .removeDuplicateRows
    · exact hkind
    · exact absurd (Operation.height_apply_of_ne (run t (steps.take i)) hkind) (Nat.ne_of_lt hlt)
  counts := by
    rw [RunReport.appliedCount_add_unsupported]
    exact length_runFrom 0 t steps

/-- **Runs in parts.** A run of two pipelines one after the other ends where the second ends on the
result of the first, and its outcomes are those of both, with the later ones moved on. All ways to
run steps end in the same table, steps of unknown kinds can be left out, and the report describes
the run. -/
theorem runWithReport_append (t : Table) (p q : Pipeline) :
    (runWithReport t (p ++ q)).1 = (runWithReport (runWithReport t p).1 q).1 ∧
    (runWithReport t (p ++ q)).2.outcomes = (runWithReport t p).2.outcomes ++
      (runWithReport (runWithReport t p).1 q).2.outcomes.map (Outcome.later p.length) ∧
    (runWithReport t p).1 = run t p ∧
    run t p = p.foldl (fun s step => step.apply s) t ∧
    (t :: states t p).getLast? = some (run t p) ∧
    (∀ records, runRecords t records = records.foldl (fun s v => (Step.ofJson v).apply s) t) ∧
    run t (p.filter (·.operation.isSupported)) = run t p ∧
    (runWithReport t p).2.Describes t p := by
  refine ⟨run_append t p q, ?_, runWithReport_fst t p, run_eq_foldl t p, getLast?_states t p, ?_,
    run_filter_supported t p, describes_runWithReport t p⟩
  · calc (runFrom 0 t (p ++ q)).2
      _ = (runFrom 0 t p).2 ++ (runFrom (p.length + 0) (run t p) q).2 := by
        rw [runFrom_append, Nat.zero_add, Nat.add_zero]
      _ = (runFrom 0 t p).2 ++ (runFrom 0 (run t p) q).2.map (Outcome.later p.length) := by
        rw [runFrom_later]
  · intro records
    rw [runRecords, run_eq_foldl, List.foldl_map]

end Pipeline

end TableCleaner
