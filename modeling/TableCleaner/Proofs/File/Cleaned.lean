import TableCleaner.Command.Job
import TableCleaner.Proofs.File.Route

/-!
# Default outputs

The cleaned path of a table is read step by step like the path itself; only the name at its end is
another one. So it never leads back to the table, the cleaned paths of different paths are different,
and a table that could be read has an output of a known format.
-/

namespace TableCleaner

namespace Path

variable {p q : Path} {front idle : List (List Char)} {name stem ext : List Char}

theorem frontSteps_trimFront (front : List (List Char)) :
    frontSteps (trimFront front) = frontSteps front := by
  cases front with
  | nil => rfl
  | cons first rest =>
    obtain ⟨idle, hrest, hidle⟩ := exists_trimIdle rest
    have hfilter : rest.filter (!isIdle ·) = (trimIdle rest).filter (!isIdle ·) := by
      rw [congrArg (List.filter (!isIdle ·)) hrest, List.filter_append, filter_idle hidle,
        List.append_nil]
    rw [trimFront, frontSteps, frontSteps, hfilter]

theorem EndsIn.steps_cleaned (h : p.EndsIn front name idle)
    (hsplit : splitName name = (stem, some ext)) :
    p.cleaned.steps = frontSteps front ++ [.name (cleanedName name)] := by
  rw [(h.cleaned hsplit).steps_eq, frontSteps_trimFront]

theorem exists_endsIn_of_format {format : FileFormat}
    (h : FileFormat.ofName? p.formatName = some format) :
    ∃ front idle name stem ext, p.EndsIn front name idle ∧ splitName name = (stem, some ext) := by
  obtain ⟨name, stem, ext, hname, hsplit, -⟩ := Store.exists_name h
  obtain ⟨front, idle, hends⟩ := exists_endsIn hname
  exact ⟨front, idle, name, stem, ext, hends, hsplit⟩

theorem steps_cleaned_ne {format : FileFormat}
    (h : FileFormat.ofName? p.formatName = some format) : p.cleaned.steps ≠ p.steps := by
  obtain ⟨front, idle, name, stem, ext, hends, hsplit⟩ := exists_endsIn_of_format h
  rw [hends.steps_cleaned hsplit, hends.steps_eq]
  intro heq
  obtain ⟨-, hlast⟩ := List.append_inj' heq rfl
  exact cleanedName_ne hsplit (PathStep.name.inj (List.singleton_inj.1 hlast))

theorem steps_cleaned_eq_iff {format format' : FileFormat}
    (hp : FileFormat.ofName? p.formatName = some format)
    (hq : FileFormat.ofName? q.formatName = some format') :
    p.cleaned.steps = q.cleaned.steps ↔ p.steps = q.steps := by
  obtain ⟨front, idle, name, stem, ext, hends, hsplit⟩ := exists_endsIn_of_format hp
  obtain ⟨front', idle', name', stem', ext', hends', hsplit'⟩ := exists_endsIn_of_format hq
  rw [hends.steps_cleaned hsplit, hends'.steps_cleaned hsplit', hends.steps_eq, hends'.steps_eq]
  constructor
  · intro heq
    obtain ⟨hfront, hlast⟩ := List.append_inj' heq rfl
    have hname := cleanedName_inj hsplit hsplit' (PathStep.name.inj (List.singleton_inj.1 hlast))
    rw [hfront, hname]
  · intro heq
    obtain ⟨hfront, hlast⟩ := List.append_inj' heq rfl
    rw [hfront, PathStep.name.inj (List.singleton_inj.1 hlast)]

theorem format_cleaned {format : FileFormat}
    (h : FileFormat.ofName? p.formatName = some format) :
    FileFormat.ofName? p.cleaned.formatName = some format := by
  obtain ⟨front, idle, name, stem, ext, hends, hsplit⟩ := exists_endsIn_of_format h
  have hext : p.extension? = some ext := by
    rw [extension?_of_fileName? hends.fileName?_eq, hsplit]
  rw [formatName_cleaned (Option.isSome_of_eq_some hext), h]

end Path

/-! ## Jobs -/

namespace Job

theorem load_eq_ok {j : Job} {s : Store} {inferRows : Nat} {t : Table} :
    j.load s inferRows = .ok t ↔ s.loadTable j.input inferRows = .ok t := by
  rw [← Store.toOption_eq_some, load, Store.toOption_mapError, Store.toOption_eq_some]

theorem save_ne_unsupported {j : Job} {format : FileFormat}
    (h : FileFormat.ofName? j.output.formatName = some format) (s : Store) (t : Table) (path : Path)
    (name : String) : j.save s t ≠ .error (.saveTable path (.unsupportedFormat name)) := by
  unfold save Store.saveTable
  rw [h]
  intro hfail
  cases hwrite : s.write j.output (format.content t) with
  | ok next =>
    simp only [hwrite] at hfail
    cases hfail
  | error e =>
    simp only [hwrite] at hfail
    cases hfail

end Job

/-- **Default outputs.** The cleaned path of a table leads elsewhere than the path and has its
format, and two cleaned paths are the same step by step exactly when the two paths are. A job with a
default output that could load its table never fails for want of a format, whatever else has been
written in between and whatever the steps made of the table. -/
theorem cleaned_paths_apart :
    (∀ (p : Path) (format : FileFormat), FileFormat.ofName? p.formatName = some format →
      p.cleaned.steps ≠ p.steps ∧ FileFormat.ofName? p.cleaned.formatName = some format) ∧
    (∀ (p q : Path) (format format' : FileFormat), FileFormat.ofName? p.formatName = some format →
      FileFormat.ofName? q.formatName = some format' →
      (p.cleaned.steps = q.cleaned.steps ↔ p.steps = q.steps)) ∧
    ∀ inputs : List Path, ∃ jobs, Job.resolve inputs none = .ok jobs ∧ jobs.map (·.input) = inputs ∧
      ∀ j ∈ jobs, ∀ s inferRows t, j.load s inferRows = .ok t →
        ∀ last cleaned path name,
          j.save last cleaned ≠ .error (.saveTable path (.unsupportedFormat name)) := by
  refine ⟨fun p format h => ⟨Path.steps_cleaned_ne h, Path.format_cleaned h⟩,
    fun p q _ _ hp hq => Path.steps_cleaned_eq_iff hp hq, fun inputs => ?_⟩
  have hinputs : (inputs.map fun p => (⟨p, p.cleaned⟩ : Job)).map (·.input) = inputs := by
    rw [List.map_map]
    exact List.map_id inputs
  refine ⟨inputs.map fun p => ⟨p, p.cleaned⟩, rfl, hinputs, ?_⟩
  intro j hj s inferRows t hload
  obtain ⟨p, -, rfl⟩ := List.mem_map.1 hj
  obtain ⟨-, hsome⟩ := Store.isSome_of_loadTable (Job.load_eq_ok.1 hload)
  obtain ⟨format, hformat⟩ := Option.isSome_iff_exists.1 hsome
  exact Job.save_ne_unsupported (Path.format_cleaned hformat)

theorem cleaned_paths_apart_hidden :
    let p : Path := ⟨".//x/./.a.b.CsV/."⟩
    let q : Path := ⟨"./x/.a.b.CsV/"⟩
    p.cleaned.text = ".//x/.a.b_cleaned.CsV" ∧ p.cleaned.steps ≠ p.steps ∧
      FileFormat.ofName? p.cleaned.formatName = some .csv ∧
      p.cleaned.steps = q.cleaned.steps ∧ p.steps = q.steps := by
  intro p q
  obtain ⟨hsingle, hpair, -⟩ := cleaned_paths_apart
  have hp : FileFormat.ofName? p.formatName = some .csv := by decide +kernel
  have hq : FileFormat.ofName? q.formatName = some .csv := by decide +kernel
  have hsteps : p.steps = q.steps := by decide +kernel
  exact ⟨by decide +kernel, (hsingle p _ hp).1, (hsingle p _ hp).2,
    (hpair p q _ _ hp hq).2 hsteps, hsteps⟩

end TableCleaner
