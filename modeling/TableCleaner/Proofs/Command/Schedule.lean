import TableCleaner.Command.Execution

/-!
# Schedules

The jobs of a run take turns in any order. At its first turn a job reads its table and at its second
it writes what it made of it; the turns of other jobs may come between the two. A run that carries
its jobs out one after another follows one of these schedules.
-/

namespace TableCleaner

/-! ## Turns -/

inductive Stage where
  | waiting
  | loaded (result : Except Failure Table)
  | finished

/-- The store and how far each job has come, by its place in the list. -/
structure Progress where
  store : Store
  stage : Nat → Stage

namespace Job

/-- The job of an input whose output is not named. -/
def beside (p : Path) : Job := ⟨p, p.cleaned⟩

/-- The store after a job has written what it made of a table, if it has one. -/
def finish (j : Job) (s : Store) (steps : Pipeline) : Except Failure Table → Store
  | .error _ => s
  | .ok t => (j.save s (Pipeline.runWithReport t steps).1).toOption.getD s

end Job

namespace Progress

def start (s : Store) : Progress := ⟨s, fun _ => .waiting⟩

def setStage (g : Progress) (i : Nat) (x : Stage) : Progress :=
  { g with stage := fun k => if k = i then x else g.stage k }

end Progress

section

variable (jobs : List Job) (steps : Pipeline) (inferRows : Nat)

/-- One turn of a job. A finished job has no more turns, and no more has a job that does not
exist. -/
def turn (g : Progress) (i : Nat) : Progress :=
  match jobs[i]?, g.stage i with
  | some j, .waiting => g.setStage i (.loaded (j.load g.store inferRows))
  | some j, .loaded result =>
    { g.setStage i .finished with store := j.finish g.store steps result }
  | _, _ => g

def carryOut (schedule : List Nat) (g : Progress) : Progress :=
  schedule.foldl (turn jobs steps inferRows) g

end

/-- A schedule that gives each of some jobs its two turns. -/
def IsComplete (count : Nat) (schedule : List Nat) : Prop :=
  ∀ i, i < count → 2 ≤ schedule.count i

instance (count : Nat) (schedule : List Nat) : Decidable (IsComplete count schedule) :=
  inferInstanceAs (Decidable (∀ i, i < count → 2 ≤ schedule.count i))

/-- The store that the jobs of some inputs leave when they take turns by a schedule. -/
def Store.after (s : Store) (inputs : List Path) (steps : Pipeline) (inferRows : Nat)
    (schedule : List Nat) : Store :=
  (carryOut (inputs.map Job.beside) steps inferRows schedule (.start s)).store

/-! ## Single turns -/

section

variable {jobs : List Job} {steps : Pipeline} {inferRows : Nat}

@[simp] theorem setStage_stage (g : Progress) (i k : Nat) (x : Stage) :
    (g.setStage i x).stage k = if k = i then x else g.stage k := rfl

theorem setStage_setStage (g : Progress) (i : Nat) (x y : Stage) :
    (g.setStage i x).setStage i y = g.setStage i y := by
  unfold Progress.setStage
  congr 1
  funext k
  dsimp only
  split <;> rfl

theorem turn_waiting {g : Progress} {i : Nat} {j : Job} (hj : jobs[i]? = some j)
    (h : g.stage i = .waiting) :
    turn jobs steps inferRows g i = g.setStage i (.loaded (j.load g.store inferRows)) := by
  unfold turn
  rw [hj, h]

theorem turn_loaded {g : Progress} {i : Nat} {j : Job} {result : Except Failure Table}
    (hj : jobs[i]? = some j) (h : g.stage i = .loaded result) :
    turn jobs steps inferRows g i =
      { g.setStage i .finished with store := j.finish g.store steps result } := by
  unfold turn
  rw [hj, h]

theorem turn_stage_of_ne (g : Progress) {i k : Nat} (h : k ≠ i) :
    (turn jobs steps inferRows g i).stage k = g.stage k := by
  unfold turn
  split
  · simp [h]
  · simp [h]
  · rfl

theorem carryOut_append (a b : List Nat) (g : Progress) :
    carryOut jobs steps inferRows (a ++ b) g =
      carryOut jobs steps inferRows b (carryOut jobs steps inferRows a g) :=
  List.foldl_append ..

def Stage.turnsLeft : Stage → Nat
  | waiting => 2
  | loaded _ => 1
  | finished => 0

theorem turnsLeft_turn (g : Progress) {i : Nat} (h : i < jobs.length) :
    ((turn jobs steps inferRows g i).stage i).turnsLeft = (g.stage i).turnsLeft - 1 := by
  unfold turn
  rw [List.getElem?_eq_getElem h]
  cases hstage : g.stage i <;> simp [hstage, Stage.turnsLeft]

theorem turnsLeft_carryOut (schedule : List Nat) (g : Progress) {i : Nat} (h : i < jobs.length) :
    ((carryOut jobs steps inferRows schedule g).stage i).turnsLeft =
      (g.stage i).turnsLeft - schedule.count i := by
  induction schedule generalizing g with
  | nil => simp [carryOut]
  | cons k schedule ih =>
    have hcons : carryOut jobs steps inferRows (k :: schedule) g =
        carryOut jobs steps inferRows schedule (turn jobs steps inferRows g k) := rfl
    rw [hcons, ih, List.count_cons]
    by_cases hk : k = i
    · rw [hk, turnsLeft_turn g h]
      simp
      omega
    · rw [turn_stage_of_ne g (Ne.symm hk)]
      simp [hk]

theorem finished_of_isComplete {schedule : List Nat} (hs : IsComplete jobs.length schedule)
    (s : Store) {i : Nat} (h : i < jobs.length) :
    (carryOut jobs steps inferRows schedule (.start s)).stage i = .finished := by
  have hleft : ((carryOut jobs steps inferRows schedule (.start s)).stage i).turnsLeft = _ :=
    turnsLeft_carryOut schedule (.start s) h
  have hcount := hs i h
  cases hstage : (carryOut jobs steps inferRows schedule (.start s)).stage i with
  | finished => rfl
  | _ =>
    rw [hstage] at hleft
    simp only [Stage.turnsLeft, Progress.start] at hleft
    omega

end

/-! ## The order of the list -/

def inOrder (count : Nat) : List Nat := (List.range count).flatMap fun i => [i, i]

theorem Job.attempt_eq (j : Job) (s : Store) (steps : Pipeline) (inferRows : Nat) :
    (j.attempt s steps inferRows).1 = j.finish s steps (j.load s inferRows) := by
  unfold attempt run
  cases j.load s inferRows with
  | error e => rfl
  | ok t =>
    unfold finish
    simp only [bind, Except.bind]
    cases j.save s (Pipeline.runWithReport t steps).1 <;> rfl

theorem carryOut_both {jobs : List Job} {steps : Pipeline} {inferRows : Nat} {g : Progress}
    {i : Nat} {j : Job} (hj : jobs[i]? = some j) (h : g.stage i = .waiting) :
    carryOut jobs steps inferRows [i, i] g =
      { (g.setStage i .finished) with store := (j.attempt g.store steps inferRows).1 } := by
  change turn jobs steps inferRows (turn jobs steps inferRows g i) i = _
  rw [turn_waiting hj h, turn_loaded hj (if_pos rfl), setStage_setStage, Job.attempt_eq]
  rfl

theorem waiting_after_first {before : List Job} {j : Job} {g : Progress} {last : Store}
    (h : ∀ k, before.length ≤ k → g.stage k = .waiting) :
    ∀ k, (before ++ [j]).length ≤ k →
      Progress.stage { g.setStage before.length .finished with store := last } k = .waiting := by
  intro k hk
  rw [List.length_append, List.length_singleton] at hk
  have hne : k ≠ before.length := by omega
  exact (if_neg hne).trans (h k (by omega))

theorem attemptAll_eq_carryOut (before rest : List Job) (steps : Pipeline) (inferRows : Nat)
    {g : Progress} (h : ∀ k, before.length ≤ k → g.stage k = .waiting) :
    (Job.attemptAll g.store steps inferRows rest).1 =
      (carryOut (before ++ rest) steps inferRows
        ((List.range' before.length rest.length).flatMap fun i => [i, i]) g).store := by
  induction rest generalizing before g with
  | nil => rfl
  | cons j rest ih =>
    -- The jobs before have had their turns, so the next two turns are those of the first one left.
    have hj : (before ++ j :: rest)[before.length]? = some j := by simp
    rw [List.length_cons, List.range'_succ, List.flatMap_cons, carryOut_append,
      carryOut_both hj (h _ (Nat.le_refl _))]
    have hlist : before ++ j :: rest = (before ++ [j]) ++ rest := by simp
    have hlen : before.length + 1 = (before ++ [j]).length := by simp
    rw [hlist, hlen, ← ih]
    · rfl
    · exact waiting_after_first h

theorem attemptAll_eq (jobs : List Job) (s : Store) (steps : Pipeline) (inferRows : Nat) :
    (Job.attemptAll s steps inferRows jobs).1 =
      (carryOut jobs steps inferRows (inOrder jobs.length) (.start s)).store := by
  unfold inOrder
  rw [List.range_eq_range']
  have hwaiting : ∀ k, ([] : List Job).length ≤ k → (Progress.start s).stage k = .waiting :=
    fun _ _ => rfl
  exact attemptAll_eq_carryOut [] jobs steps inferRows hwaiting

/-- The store that a run leaves is one of those that its jobs can leave by some schedule. -/
theorem store_runCommand (s : Store) (inputs : List Path) (pipeline : Path) (inferRows : Nat)
    (time : String) :
    (runCommand s inputs pipeline none inferRows time).store =
      match s.loadPipeline pipeline with
      | .ok steps => s.after inputs steps inferRows (inOrder inputs.length)
      | .error _ => s := by
  unfold runCommand RunPlan.make Job.resolve
  cases s.loadPipeline pipeline with
  | error e => rfl
  | ok steps =>
    change (Job.attemptAll s steps inferRows (inputs.map Job.beside)).1 = _
    rw [attemptAll_eq, List.length_map]
    rfl

end TableCleaner
