import TableCleaner.Proofs.Command.Order
import TableCleaner.Proofs.File.Coverage
import TableCleaner.Proofs.Pipeline.Report

/-!
# Jobs apart

Jobs of which none writes where another one reads or writes do not disturb one another. Each leaves
what it would leave alone, whatever becomes of the others and in whatever order they take turns; a
job that fails leaves nothing, and the run fails exactly when a job does.
-/

namespace TableCleaner

/-! ## Where jobs read and write -/

namespace Job

/-- Where the job writes, if it can write anywhere. -/
def place? (j : Job) (s : Store) : Option Location := (s.target j.output).toOption

/-- The job writes neither where another one reads nor where that one writes. -/
def KeepsOff (j k : Job) (s : Store) : Prop :=
  ∀ l ∈ j.place? s, s.covers k.input l = false ∧ k.place? s ≠ some l

instance (j k : Job) (s : Store) : Decidable (j.KeepsOff k s) :=
  inferInstanceAs (Decidable (∀ l ∈ j.place? s, s.covers k.input l = false ∧ k.place? s ≠ some l))

end Job

/-- No job writes where another one reads or writes. -/
def Store.KeepsApart (s : Store) (jobs : List Job) : Prop :=
  jobs.Pairwise fun j k => j.KeepsOff k s ∧ k.KeepsOff j s

instance (s : Store) (jobs : List Job) : Decidable (s.KeepsApart jobs) :=
  inferInstanceAs (Decidable (jobs.Pairwise fun j k => j.KeepsOff k s ∧ k.KeepsOff j s))

theorem Store.KeepsApart.keepsOff {s : Store} {jobs : List Job} (h : s.KeepsApart jobs) {i k : Nat}
    {j j' : Job} (hi : jobs[i]? = some j) (hk : jobs[k]? = some j') (hne : k ≠ i) :
    j'.KeepsOff j s := by
  obtain ⟨hlt, rfl⟩ := List.getElem?_eq_some_iff.1 hi
  obtain ⟨hlt', rfl⟩ := List.getElem?_eq_some_iff.1 hk
  have hpairs := List.pairwise_iff_getElem.1 h
  rcases Nat.lt_or_gt_of_ne hne with hki | hik
  · exact (hpairs k i hlt' hlt hki).1
  · exact (hpairs i k hlt hlt' hik).2

/-! ## What a job makes -/

namespace Job

/-- What the job makes of the files in a store, and where it writes it. -/
def product? (j : Job) (s : Store) (steps : Pipeline) (inferRows : Nat) :
    Option (Location × Content) :=
  (s.loadTable j.input inferRows).toOption.bind fun t =>
    (FileFormat.ofName? j.output.formatName).bind fun format =>
      (j.place? s).map fun l => (l, format.content (Pipeline.run t steps))

variable {j : Job} {s g : Store} {steps : Pipeline} {inferRows : Nat}

theorem product?_eq_some {l : Location} {c : Content} :
    j.product? s steps inferRows = some (l, c) ↔
      ∃ t format, s.loadTable j.input inferRows = .ok t ∧
        FileFormat.ofName? j.output.formatName = some format ∧ s.target j.output = .ok l ∧
          format.content (Pipeline.run t steps) = c := by
  unfold product? place?
  simp only [Option.bind_eq_some_iff, Option.map_eq_some_iff, Store.toOption_eq_some,
    Prod.mk.injEq]
  constructor
  · rintro ⟨t, ht, format, hformat, _, hl, rfl, hc⟩
    exact ⟨t, format, ht, hformat, hl, hc⟩
  · rintro ⟨t, format, ht, hformat, hl, hc⟩
    exact ⟨t, ht, format, hformat, l, hl, rfl, hc⟩

theorem place?_of_product? {l : Location} {c : Content}
    (h : j.product? s steps inferRows = some (l, c)) : j.place? s = some l := by
  obtain ⟨_, _, _, _, htarget, _⟩ := product?_eq_some.1 h
  exact Store.toOption_eq_some.2 htarget

theorem toOption_save (j : Job) (htree : s.SameTree g) (t : Table) :
    (j.save g t).toOption = (FileFormat.ofName? j.output.formatName).bind fun format =>
      (j.place? s).map fun l => g.put l (format.content t) := by
  unfold save Store.saveTable Store.write place?
  rw [Store.toOption_mapError, ← htree.target]
  cases FileFormat.ofName? j.output.formatName with
  | none => rfl
  | some format =>
    simp only [Option.bind_some]
    rw [Store.toOption_mapError]
    cases g.target j.output <;> rfl

theorem toOption_load_eq (j : Job) (s : Store) (inferRows : Nat) :
    (j.load s inferRows).toOption = (s.loadTable j.input inferRows).toOption :=
  Store.toOption_mapError ..

theorem finish_eq (htree : s.SameTree g) :
    j.finish g steps (j.load s inferRows) =
      match j.product? s steps inferRows with
      | some (l, c) => g.put l c
      | none => g := by
  have hload := toOption_load_eq j s inferRows
  unfold product?
  rw [← hload]
  cases j.load s inferRows with
  | error e => rfl
  | ok t =>
    unfold finish
    simp only [Pipeline.runWithReport_fst, j.toOption_save htree]
    cases FileFormat.ofName? j.output.formatName with
    | none => rfl
    | some format => cases j.place? s <;> rfl

end Job

/-! ## Turns of jobs that are apart -/

/-- A finished job has written the content at the location. -/
def HasWritten (s : Store) (jobs : List Job) (steps : Pipeline) (inferRows : Nat) (g : Progress)
    (l : Location) (c : Content) : Prop :=
  ∃ i j, jobs[i]? = some j ∧ g.stage i = .finished ∧
    j.product? s steps inferRows = some (l, c)

/-- What holds between the turns of jobs that keep apart: a job that has read has the table from the
start, the finished jobs have written what they make of the files from the start, and nothing else
has changed. -/
structure Isolated (s : Store) (jobs : List Job) (steps : Pipeline) (inferRows : Nat)
    (g : Progress) : Prop where
  tree : s.SameTree g.store
  loaded : ∀ i j result, jobs[i]? = some j → g.stage i = .loaded result →
    result = j.load s inferRows
  written : ∀ l c, HasWritten s jobs steps inferRows g l c → g.store.content? l = some c
  untouched : ∀ l, (∀ c, ¬HasWritten s jobs steps inferRows g l c) →
    g.store.content? l = s.content? l

section

variable {s : Store} {jobs : List Job} {steps : Pipeline} {inferRows : Nat} {g : Progress}

theorem hasWritten_read {i : Nat} (hstage : g.stage i = .waiting) {x : Except Failure Table}
    {l : Location} {c : Content} :
    HasWritten s jobs steps inferRows (g.setStage i (.loaded x)) l c ↔
      HasWritten s jobs steps inferRows g l c := by
  have hsame : ∀ k, (g.setStage i (.loaded x)).stage k = .finished ↔ g.stage k = .finished := by
    intro k
    rw [setStage_stage]
    split
    · rename_i hki
      simp [hki, hstage]
    · rfl
  unfold HasWritten
  simp only [hsame]

theorem hasWritten_write {i : Nat} {j : Job} (hi : jobs[i]? = some j) {last : Store} {l : Location}
    {c : Content} :
    HasWritten s jobs steps inferRows { g.setStage i .finished with store := last } l c ↔
      j.product? s steps inferRows = some (l, c) ∨ HasWritten s jobs steps inferRows g l c := by
  constructor
  · rintro ⟨k, j', hk, hstage, hproduct⟩
    by_cases hki : k = i
    · rw [hki, hi] at hk
      rw [Option.some.inj hk]
      exact .inl hproduct
    · exact .inr ⟨k, j', hk, (if_neg hki).symm.trans hstage, hproduct⟩
  · rintro (hproduct | ⟨k, j', hk, hstage, hproduct⟩)
    · exact ⟨i, j, hi, if_pos rfl, hproduct⟩
    · exact ⟨k, j', hk, finished_setStage_finished hstage, hproduct⟩

/-- What a job has not read yet is changed by other jobs only, and only where they write. -/
theorem Isolated.agreesBut (h : Isolated s jobs steps inferRows g) {i : Nat}
    (hstage : g.stage i ≠ .finished) :
    s.AgreesBut g.store ((jobs.eraseIdx i).filterMap fun j => j.place? s) := by
  refine ⟨h.tree, ?_, ?_⟩
  · intro l hl
    obtain ⟨j, -, hplace⟩ := List.mem_filterMap.1 hl
    exact (Store.target_eq_ok (Store.toOption_eq_some.1 hplace)).2
  · intro l hl
    apply h.untouched
    rintro c ⟨k, j, hk, hfinished, hproduct⟩
    have hki : k ≠ i := by
      rintro rfl
      exact hstage hfinished
    refine hl (List.mem_filterMap.2 ⟨j, ?_, Job.place?_of_product? hproduct⟩)
    exact List.mem_eraseIdx_iff_getElem?.2 ⟨k, hki, hk⟩

theorem Isolated.load_eq (h : Isolated s jobs steps inferRows g) (hapart : s.KeepsApart jobs)
    {i : Nat} {j : Job} (hi : jobs[i]? = some j) (hstage : g.stage i ≠ .finished) :
    j.load g.store inferRows = j.load s inferRows := by
  have hcovers : ∀ o ∈ (jobs.eraseIdx i).filterMap (fun k => k.place? s),
      s.covers j.input o = false := by
    intro o ho
    obtain ⟨j', hj', hplace⟩ := List.mem_filterMap.1 ho
    obtain ⟨k, hki, hk⟩ := List.mem_eraseIdx_iff_getElem?.1 hj'
    exact (hapart.keepsOff hi hk hki o hplace).1
  unfold Job.load
  rw [(h.agreesBut hstage).loadTable_eq hcovers]

theorem Isolated.read (h : Isolated s jobs steps inferRows g) (hapart : s.KeepsApart jobs)
    {i : Nat} {j : Job} (hi : jobs[i]? = some j) (hstage : g.stage i = .waiting) :
    Isolated s jobs steps inferRows
      (g.setStage i (.loaded (j.load g.store inferRows))) := by
  refine ⟨h.tree, ?_, ?_, ?_⟩
  · intro k j' result hk hx
    by_cases hki : k = i
    · rw [hki, hi] at hk
      obtain rfl := Option.some.inj hk
      obtain rfl : j.load g.store inferRows = result := by simpa [hki] using hx
      exact h.load_eq hapart hi (by simp [hstage])
    · exact h.loaded k j' result hk ((if_neg hki).symm.trans hx)
  · exact fun l c hx => h.written l c ((hasWritten_read hstage).1 hx)
  · exact fun l hl => h.untouched l fun c hx => hl c ((hasWritten_read hstage).2 hx)

theorem HasWritten.location_ne {l l' : Location} {c c' : Content}
    (h : HasWritten s jobs steps inferRows g l' c') (hapart : s.KeepsApart jobs) {i : Nat} {j : Job}
    (hi : jobs[i]? = some j) (hstage : g.stage i ≠ .finished)
    (hproduct : j.product? s steps inferRows = some (l, c)) : l' ≠ l := by
  rintro rfl
  obtain ⟨k, j', hk, hfinished, hproduct'⟩ := h
  have hki : k ≠ i := by
    rintro rfl
    exact hstage hfinished
  exact (hapart.keepsOff hi hk hki l' (Job.place?_of_product? hproduct')).2
    (Job.place?_of_product? hproduct)

theorem Isolated.write (h : Isolated s jobs steps inferRows g) (hapart : s.KeepsApart jobs)
    {i : Nat} {j : Job} (hi : jobs[i]? = some j) {result : Except Failure Table}
    (hstage : g.stage i = .loaded result) :
    Isolated s jobs steps inferRows
      { g.setStage i .finished with store := j.finish g.store steps result } := by
  have hfinished : g.stage i ≠ .finished := by simp [hstage]
  obtain rfl := h.loaded i j result hi hstage
  refine ⟨Job.sameTree_finish h.tree .., ?_, ?_, ?_⟩
  · exact fun k j' x hk hx => h.loaded k j' x hk (loaded_setStage_finished hx)
  · intro l c hx
    rw [hasWritten_write hi] at hx
    simp only [Job.finish_eq h.tree]
    rcases hx with hproduct | hx
    · rw [hproduct]
      exact (Store.content?_put ..).trans (if_pos rfl)
    · cases hproduct : j.product? s steps inferRows with
      | none => exact h.written l c hx
      | some made =>
        have hne := hx.location_ne hapart hi hfinished hproduct
        exact (Store.content?_put ..).trans ((if_neg hne).trans (h.written l c hx))
  · intro l hl
    simp only [hasWritten_write hi, not_or] at hl
    have hold := h.untouched l fun c => (hl c).2
    simp only [Job.finish_eq h.tree]
    cases hproduct : j.product? s steps inferRows with
    | none => exact hold
    | some made =>
      have hne : l ≠ made.1 := by
        rintro rfl
        exact (hl made.2).1 hproduct
      exact (Store.content?_put ..).trans ((if_neg hne).trans hold)

theorem Isolated.turn (h : Isolated s jobs steps inferRows g) (hapart : s.KeepsApart jobs)
    (i : Nat) : Isolated s jobs steps inferRows (turn jobs steps inferRows g i) := by
  unfold TableCleaner.turn
  cases hi : jobs[i]? with
  | none => exact h
  | some j =>
    cases hstage : g.stage i with
    | waiting => exact h.read hapart hi hstage
    | loaded result => exact h.write hapart hi hstage
    | finished => exact h

theorem Isolated.carryOut (h : Isolated s jobs steps inferRows g) (hapart : s.KeepsApart jobs)
    (schedule : List Nat) :
    Isolated s jobs steps inferRows (carryOut jobs steps inferRows schedule g) := by
  induction schedule generalizing g with
  | nil => exact h
  | cons i schedule ih => exact ih (h.turn hapart i)

end

/-! ## Results -/

section

variable (jobs : List Job) (steps : Pipeline) (inferRows : Nat)

end

section

variable {s : Store} {jobs : List Job} {steps : Pipeline} {inferRows : Nat} {g : Progress}

end

/-! ## Isolation -/

section

variable {s : Store} {jobs : List Job} {steps : Pipeline} {inferRows : Nat}

end

end TableCleaner
