import TableCleaner.Proofs.Command.Schedule
import TableCleaner.Proofs.File.Route

/-!
# The order of jobs

The files that a run leaves do not depend on the order of its jobs exactly when no input is read
where the table of an input is written. Then every job reads what was there at the start, and jobs
that write at one location write the same.
-/

namespace TableCleaner

namespace Store

/-- Whatever the files hold and whatever is done with them, the order of the turns does not
matter. -/
def IsOrderFree (s : Store) (inputs : List Path) : Prop :=
  ∀ (files : List (Location × Content)) (steps : Pipeline) (inferRows : Nat) (a b : List Nat),
    IsComplete inputs.length a → IsComplete inputs.length b → ∀ l,
      ({ s with files }.after inputs steps inferRows a).content? l =
        ({ s with files }.after inputs steps inferRows b).content? l

/-- No input is read where the table of an input is written. -/
def IsApart (s : Store) (inputs : List Path) : Prop :=
  ∀ p ∈ inputs, ∀ q ∈ inputs, ∀ r ∈ s.route? p, ∀ r' ∈ s.route? q, r.source ≠ r'.destination

instance (s : Store) (inputs : List Path) : Decidable (s.IsApart inputs) :=
  inferInstanceAs (Decidable (∀ p ∈ inputs, ∀ q ∈ inputs, ∀ r ∈ s.route? p, ∀ r' ∈ s.route? q,
    r.source ≠ r'.destination))

def routeAt? (s : Store) (inputs : List Path) (i : Nat) : Option Route :=
  inputs[i]?.bind s.route?

theorem routeAt?_eq {s : Store} {inputs : List Path} {i : Nat} {p : Path}
    (hi : inputs[i]? = some p) : s.routeAt? inputs i = s.route? p := by
  unfold routeAt?
  rw [hi, Option.bind_some]

theorem exists_of_routeAt? {s : Store} {inputs : List Path} {i : Nat} {r : Route}
    (h : s.routeAt? inputs i = some r) : ∃ p ∈ inputs, s.route? p = some r := by
  obtain ⟨p, hi, hr⟩ := Option.bind_eq_some_iff.1 h
  exact ⟨p, List.mem_of_getElem? hi, hr⟩

end Store

/-! ## What a job reads and writes -/

namespace Route

/-- What a cleaning along the route makes of the files. -/
def product? (r : Route) (s : Store) (steps : Pipeline) (inferRows : Nat) : Option Content :=
  ((s.content? r.source).bind (r.format.table? inferRows)).map fun t =>
    r.format.content (Pipeline.runWithReport t steps).1

end Route

namespace Job

theorem toOption_load {s g : Store} (htree : s.SameTree g) {p : Path} {r : Route}
    (hp : s.NamesFile p) (hr : s.route? p = some r) (n : Nat) :
    ((beside p).load g n).toOption = (g.content? r.source).bind (r.format.table? n) := by
  obtain ⟨hl, -, hformat⟩ := Store.route?_eq_some.1 hr
  unfold load
  rw [Store.toOption_mapError]
  change (g.loadTable p n).toOption = _
  rw [Store.toOption_loadTable (htree.namesFile hp), htree.locate, hl, hformat]
  rfl

theorem isSome_of_load {s g : Store} (htree : s.SameTree g) {p : Path} {n : Nat} {t : Table}
    (h : (beside p).load g n = .ok t) :
    (s.locate p).toOption.isSome ∧ (FileFormat.ofName? p.formatName).isSome := by
  have hload : g.loadTable p n = .ok t := by
    rw [← Store.toOption_eq_some, ← Store.toOption_mapError (Failure.loadTable p)]
    exact Store.toOption_eq_some.2 h
  rw [← htree.locate]
  exact Store.isSome_of_loadTable hload

theorem finish_ok (p : Path) (s : Store) (steps : Pipeline) (t : Table) :
    (beside p).finish s steps (.ok t) =
      (s.saveTable p.cleaned (Pipeline.runWithReport t steps).1).toOption.getD s := by
  unfold finish save
  simp only [Store.toOption_mapError]
  rfl

theorem finish_of_route {s g : Store} (htree : s.SameTree g) {p : Path} {r : Route}
    (hp : s.NamesFile p) (hr : s.route? p = some r) (steps : Pipeline)
    (result : Except Failure Table) :
    (beside p).finish g steps result =
      match result.toOption with
      | some t => g.put r.destination (r.format.content (Pipeline.runWithReport t steps).1)
      | none => g := by
  cases result with
  | error e => rfl
  | ok t =>
    rw [finish_ok, Store.saveTable_of_route (htree.namesFile hp) (htree.route? p ▸ hr)]
    rfl

theorem content?_finish {s g : Store} (htree : s.SameTree g) {p : Path} {r : Route}
    (hp : s.NamesFile p) (hr : s.route? p = some r) (steps : Pipeline) {n : Nat}
    {result : Except Failure Table}
    (hresult : result.toOption = (s.content? r.source).bind (r.format.table? n)) (l : Location) :
    ((beside p).finish g steps result).content? l =
      if l = r.destination then (r.product? s steps n).or (g.content? l) else g.content? l := by
  unfold Route.product?
  rw [finish_of_route htree hp hr, ← hresult]
  cases result.toOption with
  | none => simp
  | some t =>
    rw [Store.content?_put]
    rfl

theorem sameTree_finish {s g : Store} (htree : s.SameTree g) (j : Job) (steps : Pipeline)
    (result : Except Failure Table) : s.SameTree (j.finish g steps result) := by
  cases result with
  | error e => exact htree
  | ok t =>
    unfold finish save
    simp only [Store.toOption_mapError]
    cases hsave : (g.saveTable j.output (Pipeline.runWithReport t steps).1).toOption with
    | none => exact htree
    | some u => exact htree.saveTable hsave

theorem finish_of_no_route {s g : Store} (htree : s.SameTree g) {p : Path}
    (hr : s.route? p = none) (steps : Pipeline) {result : Except Failure Table}
    (hread : ∀ t, result = .ok t →
      (s.locate p).toOption.isSome ∧ (FileFormat.ofName? p.formatName).isSome) :
    (beside p).finish g steps result = g := by
  cases result with
  | error e => rfl
  | ok t =>
    obtain ⟨hl, hformat⟩ := hread t rfl
    -- The source and the format are known, so it is the destination that is missing.
    have htarget : (g.target p.cleaned).toOption = none := by
      rw [htree.target]
      unfold Store.route? at hr
      obtain ⟨l, hl⟩ := Option.isSome_iff_exists.1 hl
      obtain ⟨format, hformat⟩ := Option.isSome_iff_exists.1 hformat
      rw [hl, hformat] at hr
      cases hm : (s.target p.cleaned).toOption with
      | none => rfl
      | some m => simp [hm] at hr
    rw [finish_ok, Store.saveTable_of_target htarget]
    rfl

end Job

/-! ## Order does not matter -/

/-- What holds between the turns of jobs that are apart: a job that has read has the table from the
start, the finished jobs have written what they make of the files from the start, and nothing else
has changed. -/
structure Settled (s : Store) (inputs : List Path) (steps : Pipeline) (inferRows : Nat)
    (g : Progress) : Prop where
  tree : s.SameTree g.store
  loaded : ∀ i r x, s.routeAt? inputs i = some r → g.stage i = .loaded x →
    x.toOption = (s.content? r.source).bind (r.format.table? inferRows)
  readable : ∀ i p t, inputs[i]? = some p → g.stage i = .loaded (.ok t) →
    (s.locate p).toOption.isSome ∧ (FileFormat.ofName? p.formatName).isSome
  written : ∀ i r, s.routeAt? inputs i = some r → g.stage i = .finished →
    g.store.content? r.destination =
      (r.product? s steps inferRows).or (s.content? r.destination)
  untouched : ∀ l, (∀ i r, s.routeAt? inputs i = some r → g.stage i = .finished →
    r.destination ≠ l) → g.store.content? l = s.content? l

section

variable {s : Store} {inputs : List Path} {steps : Pipeline} {inferRows : Nat} {g : Progress}

theorem settled_start : Settled s inputs steps inferRows (.start s) where
  tree := .refl s
  loaded := fun _ _ _ _ h => by cases h
  readable := fun _ _ _ _ h => by cases h
  written := fun _ _ _ h => by cases h
  untouched := fun _ _ => rfl

theorem finished_setStage_loaded {i k : Nat} {x : Except Failure Table}
    (h : (g.setStage i (.loaded x)).stage k = .finished) : g.stage k = .finished := by
  rw [setStage_stage] at h
  split at h
  · cases h
  · exact h

theorem loaded_setStage_finished {i k : Nat} {x : Except Failure Table}
    (h : (g.setStage i .finished).stage k = .loaded x) : g.stage k = .loaded x := by
  rw [setStage_stage] at h
  split at h
  · cases h
  · exact h

theorem finished_setStage_finished {i k : Nat} (h : g.stage k = .finished) :
    (g.setStage i .finished).stage k = .finished := by
  rw [setStage_stage, h, ite_self]

theorem Settled.content?_source (h : Settled s inputs steps inferRows g)
    (hapart : s.IsApart inputs) {p : Path} {r : Route} (hp : p ∈ inputs)
    (hr : s.route? p = some r) : g.store.content? r.source = s.content? r.source := by
  apply h.untouched
  -- A job that has written at the source would not be apart.
  intro k r' hk _ heq
  obtain ⟨q, hq, hr'⟩ := Store.exists_of_routeAt? hk
  exact hapart p hp q hq r hr r' hr' heq.symm

theorem Settled.read (h : Settled s inputs steps inferRows g)
    (hfiles : ∀ p ∈ inputs, ∀ r ∈ s.route? p, s.NamesFile p) (hapart : s.IsApart inputs) {i : Nat}
    {p : Path} (hi : inputs[i]? = some p) (hstage : g.stage i = .waiting) :
    Settled s inputs steps inferRows
      (g.setStage i (.loaded ((Job.beside p).load g.store inferRows))) := by
  have hp := List.mem_of_getElem? hi
  refine ⟨h.tree, ?_, ?_, ?_, ?_⟩
  · intro k r x hr hx
    by_cases hki : k = i
    · rw [hki, Store.routeAt?_eq hi] at hr
      obtain rfl : (Job.beside p).load g.store inferRows = x := by simpa [hki] using hx
      rw [Job.toOption_load h.tree (hfiles p hp r hr) hr, h.content?_source hapart hp hr]
    · exact h.loaded k r x hr ((if_neg hki).symm.trans hx)
  · intro k q t hk hx
    by_cases hki : k = i
    · rw [hki, hi] at hk
      obtain rfl := Option.some.inj hk
      have hload : (Job.beside p).load g.store inferRows = .ok t := by simpa [hki] using hx
      exact Job.isSome_of_load h.tree hload
    · exact h.readable k q t hk ((if_neg hki).symm.trans hx)
  · exact fun k r hr hx => h.written k r hr (finished_setStage_loaded hx)
  · intro l hl
    refine h.untouched l fun k r hr hx => hl k r hr ?_
    have hki : k ≠ i := by
      rintro rfl
      rw [hstage] at hx
      cases hx
    exact (if_neg hki).trans hx

theorem Settled.content?_destination (h : Settled s inputs steps inferRows g)
    (hfiles : ∀ p ∈ inputs, ∀ r ∈ s.route? p, s.NamesFile p) {p : Path} {r : Route}
    (hp : p ∈ inputs) (hr : s.route? p = some r)
    (hnone : r.product? s steps inferRows = none) :
    g.store.content? r.destination = s.content? r.destination := by
  by_cases hex : ∃ k, s.routeAt? inputs k = some r ∧ g.stage k = .finished
  · obtain ⟨k, hk, hx⟩ := hex
    rw [h.written k r hk hx, hnone, Option.none_or]
  · -- Only this route writes at its destination, and no job on it is finished.
    apply h.untouched
    intro k r' hk hx heq
    obtain ⟨q, hq, hr'⟩ := Store.exists_of_routeAt? hk
    obtain rfl := Store.route_inj (hfiles q hq r' hr') (hfiles p hp r hr) hr' hr heq
    exact hex ⟨k, hk, hx⟩

theorem Settled.pass (h : Settled s inputs steps inferRows g) {i : Nat}
    (hi : s.routeAt? inputs i = none) :
    Settled s inputs steps inferRows (g.setStage i .finished) := by
  refine ⟨h.tree, ?_, ?_, ?_, ?_⟩
  · exact fun k r x hr hx => h.loaded k r x hr (loaded_setStage_finished hx)
  · exact fun k q t hk hx => h.readable k q t hk (loaded_setStage_finished hx)
  · intro k r hr hx
    have hki : k ≠ i := by
      rintro rfl
      rw [hi] at hr
      cases hr
    exact h.written k r hr ((if_neg hki).symm.trans hx)
  · exact fun l hl =>
      h.untouched l fun k r hr hx => hl k r hr (finished_setStage_finished hx)

theorem Settled.write (h : Settled s inputs steps inferRows g)
    (hfiles : ∀ p ∈ inputs, ∀ r ∈ s.route? p, s.NamesFile p) {i : Nat} {p : Path} {r : Route}
    (hi : inputs[i]? = some p) (hr : s.route? p = some r) {result : Except Failure Table}
    (hstage : g.stage i = .loaded result) :
    Settled s inputs steps inferRows
      { g.setStage i .finished with store := (Job.beside p).finish g.store steps result } := by
  have hp := List.mem_of_getElem? hi
  have hri : s.routeAt? inputs i = some r := (Store.routeAt?_eq hi).trans hr
  have hresult := h.loaded i r result hri hstage
  have hnew := Job.content?_finish h.tree (hfiles p hp r hr) hr steps hresult
  refine ⟨Job.sameTree_finish h.tree _ steps result, ?_, ?_, ?_, ?_⟩
  · exact fun k r' x hk hx => h.loaded k r' x hk (loaded_setStage_finished hx)
  · exact fun k q t hk hx => h.readable k q t hk (loaded_setStage_finished hx)
  · intro k r' hk hx
    rw [hnew]
    by_cases hdest : r'.destination = r.destination
    · -- A job that has written here before has the same route, and made the same of the files.
      obtain ⟨q, hq, hr'⟩ := Store.exists_of_routeAt? hk
      obtain rfl := Store.route_inj (hfiles q hq r' hr') (hfiles p hp r hr) hr' hr hdest
      rw [if_pos rfl]
      cases hproduct : r'.product? s steps inferRows with
      | none => exact h.content?_destination hfiles hp hr hproduct
      | some c => rfl
    · have hki : k ≠ i := by
        rintro rfl
        obtain rfl := Option.some.inj (hri.symm.trans hk)
        exact hdest rfl
      rw [if_neg hdest]
      exact h.written k r' hk ((if_neg hki).symm.trans hx)
  · intro l hl
    have hdest : l ≠ r.destination := (hl i r hri (if_pos rfl)).symm
    rw [hnew, if_neg hdest]
    exact h.untouched l fun k r' hk hx => hl k r' hk (finished_setStage_finished hx)

theorem Settled.turn (h : Settled s inputs steps inferRows g)
    (hfiles : ∀ p ∈ inputs, ∀ r ∈ s.route? p, s.NamesFile p) (hapart : s.IsApart inputs)
    (i : Nat) :
    Settled s inputs steps inferRows (turn (inputs.map Job.beside) steps inferRows g i) := by
  unfold TableCleaner.turn
  rw [List.getElem?_map]
  cases hi : inputs[i]? with
  | none => exact h
  | some p =>
    cases hstage : g.stage i with
    | waiting => exact h.read hfiles hapart hi hstage
    | loaded result =>
      cases hr : s.route? p with
      | none =>
        have hread := fun t (ht : result = .ok t) => h.readable i p t hi (ht ▸ hstage)
        have hstore := Job.finish_of_no_route h.tree hr steps hread
        simp only [Option.map_some, hstore]
        exact h.pass ((Store.routeAt?_eq hi).trans hr)
      | some r => exact h.write hfiles hi hr hstage
    | finished => exact h

theorem settled_carryOut (hfiles : ∀ p ∈ inputs, ∀ r ∈ s.route? p, s.NamesFile p)
    (hapart : s.IsApart inputs) (schedule : List Nat) (h : Settled s inputs steps inferRows g) :
    Settled s inputs steps inferRows
      (carryOut (inputs.map Job.beside) steps inferRows schedule g) := by
  induction schedule generalizing g with
  | nil => exact h
  | cons i schedule ih => exact ih (h.turn hfiles hapart i)

theorem Settled.content?_eq {g' : Progress} (h : Settled s inputs steps inferRows g)
    (h' : Settled s inputs steps inferRows g')
    (hall : ∀ i, i < inputs.length → g.stage i = .finished)
    (hall' : ∀ i, i < inputs.length → g'.stage i = .finished) (l : Location) :
    g.store.content? l = g'.store.content? l := by
  by_cases hex : ∃ i r, s.routeAt? inputs i = some r ∧ r.destination = l
  · obtain ⟨i, r, hr, rfl⟩ := hex
    obtain ⟨p, hi, -⟩ := Option.bind_eq_some_iff.1 hr
    obtain ⟨hlt, -⟩ := List.getElem?_eq_some_iff.1 hi
    rw [h.written i r hr (hall i hlt), h'.written i r hr (hall' i hlt)]
  · have hne : ∀ i r, s.routeAt? inputs i = some r → r.destination ≠ l :=
      fun i r hr heq => hex ⟨i, r, hr, heq⟩
    rw [h.untouched l fun i r hr _ => hne i r hr, h'.untouched l fun i r hr _ => hne i r hr]

end

theorem Store.isOrderFree_of_isApart {s : Store} {inputs : List Path}
    (hfiles : ∀ p ∈ inputs, ∀ r ∈ s.route? p, s.NamesFile p) (hapart : s.IsApart inputs) :
    s.IsOrderFree inputs := by
  intro files steps inferRows a b ha hb l
  have htree : s.SameTree { s with files } := ⟨rfl, rfl⟩
  have hfiles' : ∀ p ∈ inputs, ∀ r ∈ { s with files }.route? p, { s with files }.NamesFile p := by
    intro p hp r hr
    rw [htree.route?] at hr
    exact htree.namesFile (hfiles p hp r hr)
  have hapart' : { s with files }.IsApart inputs := by
    intro p hp q hq r hr r' hr'
    rw [htree.route?] at hr hr'
    exact hapart p hp q hq r hr r' hr'
  have hlen : (inputs.map Job.beside).length = inputs.length := List.length_map ..
  refine (settled_carryOut hfiles' hapart' a settled_start).content?_eq
    (settled_carryOut hfiles' hapart' b settled_start) ?_ ?_ l
  · exact fun i hi => finished_of_isComplete (hlen ▸ ha) _ (hlen ▸ hi)
  · exact fun i hi => finished_of_isComplete (hlen ▸ hb) _ (hlen ▸ hi)

/-! ## Order matters -/

def sampleTable (b : Bool) : Table := ⟨[⟨"x", [.bool b]⟩], 1, by simp, by simp⟩

theorem table?_sampleTable (format : FileFormat) (b : Bool) :
    format.table? 0 (format.content (sampleTable b)) = some (sampleTable b) := by
  cases format <;> cases b <;> decide +kernel

theorem content_sampleTable_inj {format : FileFormat} {b c : Bool}
    (h : format.content (sampleTable b) = format.content (sampleTable c)) : b = c := by
  have heq := table?_sampleTable format b
  rw [h, table?_sampleTable] at heq
  simpa [sampleTable] using heq.symm

section

variable {jobs : List Job} {steps : Pipeline} {inferRows : Nat}

theorem carryOut_stage_of_not_mem {schedule : List Nat} {i : Nat} (h : i ∉ schedule)
    (g : Progress) : (carryOut jobs steps inferRows schedule g).stage i = g.stage i := by
  induction schedule generalizing g with
  | nil => rfl
  | cons k schedule ih =>
    obtain ⟨hk, hrest⟩ := not_or.1 (mt List.mem_cons.2 h)
    exact (ih hrest _).trans (turn_stage_of_ne g hk)

theorem sameTree_turn {s : Store} {g : Progress} (h : s.SameTree g.store) (i : Nat) :
    s.SameTree (turn jobs steps inferRows g i).store := by
  unfold turn
  split
  · exact h
  · exact Job.sameTree_finish h ..
  · exact h

theorem sameTree_carryOut {s : Store} (schedule : List Nat) {g : Progress}
    (h : s.SameTree g.store) :
    s.SameTree (carryOut jobs steps inferRows schedule g).store := by
  induction schedule generalizing g with
  | nil => exact h
  | cons i schedule ih => exact ih (sameTree_turn h i)

end

/-- Some first turns, then two turns of all jobs but one, and then a turn of that job. -/
def closeWith (count i : Nat) (opening : List Nat) : List Nat :=
  let others := (List.range count).filter (· ≠ i)
  opening ++ (others ++ others ++ [i])

theorem isComplete_closeWith (count : Nat) {i : Nat} {opening : List Nat} (h : i ∈ opening) :
    IsComplete count (closeWith count i opening) := by
  intro k hk
  unfold closeWith
  simp only [List.count_append]
  by_cases hki : k = i
  · have hopening : 0 < opening.count k := List.count_pos_iff.2 (hki ▸ h)
    have hlast : [i].count k = 1 := by simp [hki]
    omega
  · have hmem : k ∈ (List.range count).filter (· ≠ i) := by simp [hk, hki]
    have hothers := List.count_pos_iff.2 hmem
    omega

section

variable {s : Store} {inputs : List Path}

theorem getElem?_beside {i : Nat} {p : Path} (hi : inputs[i]? = some p) :
    (inputs.map Job.beside)[i]? = some (Job.beside p) := by
  rw [List.getElem?_map, hi]
  rfl

theorem toOption_load_sampleTable {g : Store} (htree : s.SameTree g) {p : Path} {r : Route}
    (hp : s.NamesFile p) (hr : s.route? p = some r) {b : Bool}
    (hc : g.content? r.source = some (r.format.content (sampleTable b))) :
    ((Job.beside p).load g 0).toOption = some (sampleTable b) := by
  rw [Job.toOption_load htree hp hr, hc, Option.bind_some, table?_sampleTable]

theorem content?_closeWith {opening : List Nat} {i : Nat} {p : Path} {r : Route}
    {result : Except Failure Table} {b : Bool} (hp : s.NamesFile p) (hi : inputs[i]? = some p)
    (hr : s.route? p = some r) (hb : result.toOption = some (sampleTable b))
    (hstage : (carryOut (inputs.map Job.beside) [] 0 opening (.start s)).stage i =
      .loaded result) :
    (s.after inputs [] 0 (closeWith inputs.length i opening)).content? r.destination =
      some (r.format.content (sampleTable b)) := by
  unfold Store.after closeWith
  extract_lets others
  rw [carryOut_append, carryOut_append]
  generalize hg : carryOut (inputs.map Job.beside) [] 0 opening (.start s) = g at hstage ⊢
  have htree : s.SameTree g.store := hg ▸ sameTree_carryOut opening (.refl s)
  have hnot : i ∉ others ++ others := by simp [others]
  generalize hg' : carryOut (inputs.map Job.beside) [] 0 (others ++ others) g = g'
  have htree' : s.SameTree g'.store := hg' ▸ sameTree_carryOut (others ++ others) htree
  have hstage' : g'.stage i = .loaded result := by
    rw [← hg', carryOut_stage_of_not_mem hnot, hstage]
  change (turn _ [] 0 g' i).store.content? r.destination = _
  rw [turn_loaded (getElem?_beside hi) hstage', Job.finish_of_route htree' hp hr, hb]
  exact (Store.content?_put ..).trans (if_pos rfl)

theorem read_before_write {i : Nat} (j : Nat) (hij : i ≠ j) {p : Path} {r : Route}
    (hp : s.NamesFile p) (hi : inputs[i]? = some p) (hr : s.route? p = some r) {b : Bool}
    (hc : s.content? r.source = some (r.format.content (sampleTable b))) :
    ∃ result : Except Failure Table, result.toOption = some (sampleTable b) ∧
      (carryOut (inputs.map Job.beside) [] 0 [i, j, j] (.start s)).stage i = .loaded result := by
  refine ⟨_, toOption_load_sampleTable (.refl s) hp hr hc, ?_⟩
  change (turn _ [] 0 (turn _ [] 0 (turn _ [] 0 (.start s) i) j) j).stage i = _
  rw [turn_stage_of_ne _ hij, turn_stage_of_ne _ hij, turn_waiting (getElem?_beside hi) rfl]
  exact if_pos rfl

theorem read_after_write {i j : Nat} (hij : i ≠ j) {p q : Path} {r r' : Route}
    (hp : s.NamesFile p) (hq : s.NamesFile q) (hi : inputs[i]? = some p)
    (hj : inputs[j]? = some q) (hr : s.route? p = some r) (hr' : s.route? q = some r')
    (heq : r.source = r'.destination) {b : Bool}
    (hc : s.content? r'.source = some (r'.format.content (sampleTable b))) :
    ∃ result : Except Failure Table, result.toOption = some (sampleTable b) ∧
      (carryOut (inputs.map Job.beside) [] 0 [j, j, i] (.start s)).stage i = .loaded result := by
  have hload := toOption_load_sampleTable (.refl s) hq hr' hc
  have hwritten : ((Job.beside q).finish s [] ((Job.beside q).load s 0)).content? r.source =
      some (r.format.content (sampleTable b)) := by
    rw [Job.finish_of_route (.refl s) hq hr', hload, Store.format_eq hp hq hr hr' heq, heq]
    exact (Store.content?_put ..).trans (if_pos rfl)
  have htree := Job.sameTree_finish (.refl s) (Job.beside q) [] ((Job.beside q).load s 0)
  refine ⟨_, toOption_load_sampleTable htree hp hr hwritten, ?_⟩
  change (turn _ [] 0 (turn _ [] 0 (turn _ [] 0 (.start s) j) j) i).stage i = _
  rw [turn_waiting (g := .start s) (getElem?_beside hj) rfl,
    turn_loaded (getElem?_beside hj) (if_pos rfl), turn_waiting (getElem?_beside hi) ?_]
  · exact if_pos rfl
  · simp [Progress.setStage, Progress.start, hij]

theorem Store.isApart_of_isOrderFree (hfiles : ∀ p ∈ inputs, ∀ r ∈ s.route? p, s.NamesFile p)
    (hfree : s.IsOrderFree inputs) : s.IsApart inputs := by
  intro p hp q hq r hr r' hr' heq
  obtain ⟨i, hi⟩ := List.getElem?_of_mem hp
  obtain ⟨j, hj⟩ := List.getElem?_of_mem hq
  have hsource : r.source ≠ r'.source :=
    heq ▸ (Store.source_ne_destination (hfiles q hq r' hr') hr').symm
  have hij : i ≠ j := by
    rintro rfl
    obtain rfl := Option.some.inj (hi.symm.trans hj)
    obtain rfl := Option.some.inj (hr.symm.trans hr')
    exact hsource rfl
  -- The input keeps its own table or has the other one, by what came first.
  let files := [(r'.source, r'.format.content (sampleTable true)),
    (r.source, r.format.content (sampleTable false))]
  have htree : s.SameTree { s with files } := ⟨rfl, rfl⟩
  have hp' := htree.namesFile (hfiles p hp r hr)
  have hq' := htree.namesFile (hfiles q hq r' hr')
  have hr₁ : { s with files }.route? p = some r := htree.route? p ▸ hr
  have hr₁' : { s with files }.route? q = some r' := htree.route? q ▸ hr'
  have hnew : { s with files }.content? r'.source =
      some (r'.format.content (sampleTable true)) := by
    simp [Store.content?, files]
  have hold : { s with files }.content? r.source =
      some (r.format.content (sampleTable false)) := by
    simp [Store.content?, files, Ne.symm hsource]
  obtain ⟨after, hafter, hstage⟩ := read_after_write hij hp' hq' hi hj hr₁ hr₁' heq hnew
  obtain ⟨before, hbefore, hstage'⟩ := read_before_write j hij hp' hi hr₁ hold
  have hcomplete : i ∈ [j, j, i] := by simp
  have hcomplete' : i ∈ [i, j, j] := by simp
  have hends := hfree files [] 0 _ _ (isComplete_closeWith inputs.length hcomplete)
    (isComplete_closeWith inputs.length hcomplete') r.destination
  rw [content?_closeWith hp' hi hr₁ hafter hstage, content?_closeWith hp' hi hr₁ hbefore hstage']
    at hends
  have := content_sampleTable_inj (Option.some.inj hends)
  cases this

end

/-- **Schedules.** When every input that can be cleaned names a file, the files that a run leaves do
not depend on the order of the turns exactly when no input is read where the table of an input is
written. -/
theorem Store.isOrderFree_iff_isApart {s : Store} {inputs : List Path}
    (hfiles : ∀ p ∈ inputs, ∀ r ∈ s.route? p, s.NamesFile p) :
    s.IsOrderFree inputs ↔ s.IsApart inputs :=
  ⟨isApart_of_isOrderFree hfiles, isOrderFree_of_isApart hfiles⟩

def bareStore : Store := ⟨[], [], []⟩

theorem isOrderFree_of_two_names :
    (∀ p ∈ ([⟨"a.csv"⟩, ⟨"b.csv"⟩] : List Path), ∀ r ∈ bareStore.route? p,
      bareStore.NamesFile p) ∧ bareStore.IsOrderFree [⟨"a.csv"⟩, ⟨"b.csv"⟩] := by
  have hfiles : ∀ p ∈ ([⟨"a.csv"⟩, ⟨"b.csv"⟩] : List Path), ∀ r ∈ bareStore.route? p,
      bareStore.NamesFile p := by decide +kernel
  have hapart : bareStore.IsApart [⟨"a.csv"⟩, ⟨"b.csv"⟩] := by decide +kernel
  exact ⟨hfiles, (Store.isOrderFree_iff_isApart hfiles).2 hapart⟩

/-- A directory with a table and what an earlier run has made of an older one. -/
def cleanedStore : Store :=
  ⟨[], [], [(["a.csv".toList], .text "x\nnew\n"), (["a_cleaned.csv".toList], .text "x\nold\n")]⟩

/-- A second run over all tables depends on the order: the earlier result is an input, and one of
the jobs puts another table in its place. -/
theorem after_cleaned_in_two_orders :
    IsComplete 2 [0, 0, 1, 1] ∧ IsComplete 2 [1, 1, 0, 0] ∧
      ((cleanedStore.after [⟨"a_cleaned.csv"⟩, ⟨"a.csv"⟩] [] 0 [0, 0, 1, 1]).readText
        ⟨"a_cleaned_cleaned.csv"⟩).toOption = some "x\nold\n" ∧
      ((cleanedStore.after [⟨"a_cleaned.csv"⟩, ⟨"a.csv"⟩] [] 0 [1, 1, 0, 0]).readText
        ⟨"a_cleaned_cleaned.csv"⟩).toOption = some "x\nnew\n" := by
  decide +kernel

end TableCleaner
