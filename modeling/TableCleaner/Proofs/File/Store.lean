import TableCleaner.File.Store
import TableCleaner.Proofs.File.Path

/-!
# Where paths lead

Where a path leads is decided by the current directory and the directories, so it stays the same
when files are written. The cleaned path of a file leads to the directory of the file.
-/

namespace TableCleaner.Store

theorem toOption_eq_some {ε α : Type} {x : Except ε α} {a : α} :
    x.toOption = some a ↔ x = .ok a := by
  cases x <;> simp [Except.toOption]

theorem toOption_mapError {ε ε' α : Type} (f : ε → ε') (x : Except ε α) :
    (x.mapError f).toOption = x.toOption := by
  cases x <;> rfl

/-! ## Written files -/

@[simp] theorem current_put (s : Store) (l : Location) (c : Content) :
    (s.put l c).current = s.current := by
  unfold put
  split <;> rfl

@[simp] theorem directories_put (s : Store) (l : Location) (c : Content) :
    (s.put l c).directories = s.directories := by
  unfold put
  split <;> rfl

theorem content?_put (s : Store) (l m : Location) (c : Content) :
    (s.put l c).content? m = if m = l then some c else s.content? m := by
  unfold put content?
  split
  · rename_i hany
    have hkey : ((·.1 == m) ∘ fun f : Location × Content => if f.1 == l then (l, c) else f) =
        (·.1 == m) := by
      funext f
      by_cases hf : f.1 = l <;> simp [hf]
    rw [List.find?_map, hkey]
    cases hfound : s.files.find? (·.1 == m) with
    | none =>
      have hm : m ≠ l := by
        rintro rfl
        obtain ⟨f, hf, hfl⟩ := List.any_eq_true.1 hany
        exact List.find?_eq_none.1 hfound f hf hfl
      rw [if_neg hm]
      rfl
    | some f =>
      have hf : f.1 = m := by simpa using List.find?_some hfound
      by_cases hm : m = l <;> simp [hf, hm]
  · rename_i hany
    rw [List.find?_append]
    by_cases hm : m = l
    · have hnone : s.files.find? (·.1 == l) = none := by
        rw [List.find?_eq_none]
        intro f hf hfl
        exact hany (List.any_eq_true.2 ⟨f, hf, hfl⟩)
      simp [hnone, hm]
    · have hne : (l == m) = false := by simpa using Ne.symm hm
      simp [hm, hne]

/-! ## Steps of a path -/

theorem toOption_follow_cons (s : Store) (l : Location) (part : List Char)
    (parts : List (List Char)) :
    (s.follow l (part :: parts)).toOption =
      (s.advance l part).toOption.bind fun next => (s.follow next parts).toOption := by
  rw [follow]
  cases s.advance l part <;> rfl

/-- The parts that lead to a file to write. -/
def namedParts (p : Path) : List (List Char) := (p.parts.reverse.dropWhile List.isEmpty).reverse

theorem namedParts_eq {p : Path} {front : List (List Char)} {part : List Char}
    (h : p.parts = front ++ [part]) (hpart : part ≠ []) : namedParts p = p.parts := by
  have hne : part.isEmpty = false := by simpa using hpart
  unfold namedParts
  rw [h, List.reverse_append, List.reverse_singleton, List.singleton_append, List.dropWhile_cons,
    hne]
  simp

theorem toOption_target (s : Store) (p : Path) :
    (s.target p).toOption =
      (s.followParts p (namedParts p)).toOption.bind fun l =>
        if (namedParts p).length < p.parts.length || s.isDirectory l then none else some l := by
  have hnamed : (p.parts.reverse.dropWhile List.isEmpty).reverse = namedParts p := rfl
  unfold target
  simp only [hnamed]
  cases s.followParts p (namedParts p) with
  | error e => rfl
  | ok l => exact apply_ite Except.toOption ..

theorem followParts_of_target {s : Store} {p : Path} {l : Location} (h : s.target p = .ok l) :
    s.followParts p (namedParts p) = .ok l := by
  have hl := toOption_target s p
  rw [h] at hl
  cases hfollow : s.followParts p (namedParts p) with
  | error e => simp [hfollow, Except.toOption] at hl
  | ok m =>
    simp [hfollow, Except.toOption] at hl
    rw [hl.2]

theorem target_eq_ok {s : Store} {p : Path} {l : Location} (h : s.target p = .ok l) :
    s.locate p = .ok l ∧ s.isDirectory l = false := by
  have hfollow := followParts_of_target h
  have htarget := toOption_target s p
  rw [h, hfollow] at htarget
  simp only [Except.toOption, Option.bind_some] at htarget
  split at htarget
  · cases htarget
  · rename_i hnamed
    simp only [Bool.or_eq_true, decide_eq_true_eq, not_or, Nat.not_lt, Bool.not_eq_true] at hnamed
    -- No part was left out, so the path does not end in a slash.
    have hprefix : namedParts p <+: p.parts := by
      rw [← List.reverse_suffix, namedParts, List.reverse_reverse]
      exact List.dropWhile_suffix _
    have hparts := hprefix.eq_of_length_le hnamed.1
    rw [hparts] at hfollow
    exact ⟨hfollow, hnamed.2⟩

/-! ## The tree -/

/-- The stores have the same directories. Their files may differ. -/
structure SameTree (s t : Store) : Prop where
  current : t.current = s.current
  directories : t.directories = s.directories

namespace SameTree

theorem refl (s : Store) : s.SameTree s := ⟨rfl, rfl⟩

theorem put {s t : Store} (h : s.SameTree t) (l : Location) (c : Content) :
    s.SameTree (t.put l c) :=
  ⟨(current_put t l c).trans h.current, (directories_put t l c).trans h.directories⟩

theorem isDirectory {s t : Store} (h : s.SameTree t) (l : Location) :
    t.isDirectory l = s.isDirectory l := by
  unfold Store.isDirectory
  rw [h.directories]

theorem start {s t : Store} (h : s.SameTree t) (p : Path) : t.start p = s.start p := by
  unfold Store.start
  rw [h.current]

theorem advance {s t : Store} (h : s.SameTree t) (l : Location) (part : List Char) :
    (t.advance l part).toOption = (s.advance l part).toOption := by
  unfold Store.advance
  rw [h.isDirectory]
  split
  · rfl
  · split <;> split <;> rfl

theorem follow {s t : Store} (h : s.SameTree t) (l : Location) (parts : List (List Char)) :
    (t.follow l parts).toOption = (s.follow l parts).toOption := by
  induction parts generalizing l with
  | nil => rfl
  | cons part parts ih =>
    rw [toOption_follow_cons, toOption_follow_cons, h.advance]
    exact congrArg _ (funext ih)

theorem followParts {s t : Store} (h : s.SameTree t) (p : Path) (parts : List (List Char)) :
    (t.followParts p parts).toOption = (s.followParts p parts).toOption := by
  unfold Store.followParts
  rw [h.start]
  split
  · rfl
  · split
    · rfl
    · split
      · rfl
      · exact h.follow _ _

theorem locate {s t : Store} (h : s.SameTree t) (p : Path) :
    (t.locate p).toOption = (s.locate p).toOption :=
  h.followParts p p.parts

theorem target {s t : Store} (h : s.SameTree t) (p : Path) :
    (t.target p).toOption = (s.target p).toOption := by
  rw [toOption_target, toOption_target, h.followParts]
  refine congrArg _ (funext fun l => ?_)
  rw [h.isDirectory]

end SameTree

/-! ## Files beside files -/

theorem advance_eq_ok {s : Store} {l m : Location} {part : List Char}
    (h : s.advance l part = .ok m) :
    s.isDirectory l = true ∧
      if Path.isIdle part then m = l else part ≠ Path.dots → m = l ++ [part] := by
  unfold advance at h
  split at h
  · rename_i hl
    refine ⟨hl, ?_⟩
    split at h
    · rename_i hidle
      rw [if_pos hidle]
      exact (Except.ok.inj h).symm
    · rename_i hidle
      rw [if_neg hidle]
      intro hdots
      rw [if_neg hdots] at h
      split at h
      · cases h
      · exact (Except.ok.inj h).symm
  · split at h <;> cases h

theorem follow_append {s : Store} {l n : Location} {front rest : List (List Char)} :
    s.follow l (front ++ rest) = .ok n ↔
      ∃ m, s.follow l front = .ok m ∧ s.follow m rest = .ok n := by
  induction front generalizing l with
  | nil => simp [follow]
  | cons part front ih =>
    rw [List.cons_append, follow, follow]
    cases s.advance l part with
    | error e => simp
    | ok next => exact ih

theorem follow_singleton {s : Store} {l m : Location} {part : List Char} :
    s.follow l [part] = .ok m ↔ s.advance l part = .ok m := by
  rw [follow]
  cases s.advance l part <;> simp [follow]

theorem follow_idle {s : Store} {l m : Location} {idle : List (List Char)}
    (hidle : ∀ part ∈ idle, Path.isIdle part = true) (h : s.follow l idle = .ok m) : m = l := by
  induction idle generalizing l with
  | nil => exact (Except.ok.inj h).symm
  | cons part idle ih =>
    rw [follow] at h
    split at h
    · rename_i next hnext
      have heq := (advance_eq_ok hnext).2
      rw [if_pos (hidle part List.mem_cons_self)] at heq
      rw [← heq]
      exact ih (fun q hq => hidle q (List.mem_cons_of_mem _ hq)) h
    · cases h

theorem follow_trimFront {s : Store} {l m : Location} {front : List (List Char)}
    (h : s.follow l front = .ok m) : s.follow l (Path.trimFront front) = .ok m := by
  cases front with
  | nil => exact h
  | cons first rest =>
    obtain ⟨idle, hrest, hidle⟩ := Path.exists_trimIdle rest
    rw [hrest, ← List.cons_append] at h
    obtain ⟨k, hk, hm⟩ := follow_append.1 h
    rw [follow_idle hidle hm]
    exact hk

theorem follow_of_followParts {s : Store} {p : Path} {parts : List (List Char)} {l : Location}
    (h : s.followParts p parts = .ok l) : s.follow (s.start p) parts = .ok l := by
  unfold followParts at h
  split at h
  · cases h
  · split at h
    · cases h
    · split at h
      · cases h
      · exact h

theorem locate_eq_ok {s : Store} {p : Path} {l : Location} {name : List Char}
    (h : s.locate p = .ok l) (hfile : s.isDirectory l = false) (hname : p.fileName? = some name) :
    ∃ front dir, p.EndsIn front name [] ∧ s.follow (s.start p) front = .ok dir ∧
      l = dir ++ [name] := by
  obtain ⟨front, idle, hends⟩ := Path.exists_endsIn hname
  have hfollow := follow_of_followParts h
  rw [hends.parts] at hfollow
  obtain ⟨dir, hdir, hrest⟩ := follow_append.1 hfollow
  rw [← List.singleton_append] at hrest
  obtain ⟨m, hm, hidle⟩ := follow_append.1 hrest
  have hlast := (advance_eq_ok (follow_singleton.1 hm)).2
  rw [if_neg (by simp [hends.solid])] at hlast
  -- An idle part behind the name would have led to a directory.
  cases idle with
  | nil =>
    obtain rfl := Except.ok.inj hidle
    exact ⟨front, dir, hends, hdir, hlast hends.named⟩
  | cons part idle =>
    have hsame := follow_idle hends.idle hidle
    rw [← List.singleton_append] at hidle
    obtain ⟨next, hnext, -⟩ := follow_append.1 hidle
    rw [hsame, (advance_eq_ok (follow_singleton.1 hnext)).1] at hfile
    cases hfile

theorem start_cleaned {s : Store} {p : Path} {front idle : List (List Char)}
    {name stem ext : List Char} (h : p.EndsIn front name idle)
    (hsplit : Path.splitName name = (stem, some ext)) : s.start p.cleaned = s.start p := by
  have hcleaned := (h.cleaned hsplit).parts
  have hhead : p.cleaned.text.toList.head? = some '/' ↔ p.text.toList.head? = some '/' := by
    have hname : name ≠ [] := by
      rintro rfl
      exact absurd h.solid (by decide)
    cases front with
    | nil => simp [Path.head?_text h.parts, Path.head?_text hcleaned, hname]
    | cons first rest => simp [Path.head?_text h.parts, Path.head?_text hcleaned]
  unfold start
  simp only [hhead]

theorem target_cleaned {s : Store} {p : Path} {l m : Location} {name stem ext : List Char}
    (hl : s.locate p = .ok l) (hfile : s.isDirectory l = false) (hname : p.fileName? = some name)
    (hsplit : Path.splitName name = (stem, some ext)) (hm : s.target p.cleaned = .ok m) :
    ∃ dir, l = dir ++ [name] ∧ m = dir ++ [Path.cleanedName name] := by
  obtain ⟨front, dir, hends, hdir, rfl⟩ := locate_eq_ok hl hfile hname
  have hcleaned := (hends.cleaned hsplit).parts
  have hne : Path.cleanedName name ≠ [] :=
    List.ne_nil_of_mem (Path.underscore_mem_cleanedName name)
  refine ⟨dir, rfl, ?_⟩
  have hfollow := followParts_of_target hm
  rw [namedParts_eq hcleaned hne] at hfollow
  have hsteps := follow_of_followParts hfollow
  rw [start_cleaned hends hsplit, hcleaned] at hsteps
  obtain ⟨dir', hdir', hlast⟩ := follow_append.1 hsteps
  -- The idle parts that the cleaned path leaves out lead nowhere else.
  obtain rfl : dir' = dir := by
    rw [follow_trimFront hdir] at hdir'
    exact (Except.ok.inj hdir').symm
  have hstep := (advance_eq_ok (follow_singleton.1 hlast)).2
  rw [if_neg (by simp [Path.isIdle_cleanedName])] at hstep
  exact hstep (Path.cleanedName_ne_dots name)

end TableCleaner.Store
