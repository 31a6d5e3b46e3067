import TableCleaner.File.Dataset
import TableCleaner.Proofs.File.Listing

/-!
# What a path covers

A path covers the locations of files that a table is read from: that to which it leads, all below it
when it leads to a directory, and all that fit it when it is a pattern. A table is read as before as
long as only files are written that its path does not cover.
-/

namespace TableCleaner.Store

/-- The path stands for the file at a location, or would do so if there was one. -/
def covers (s : Store) (p : Path) (l : Location) : Bool :=
  match s.locate p with
  | .error _ => false
  | .ok m =>
    if s.isDirectory m then m.isPrefixOf l
    else m = l ||
      isPattern p.text.toList && (((s.put l .unknown).expand? p).getD []).contains l

variable {s t : Store} {written : List Location}

/-! ## Directories -/

theorem prefix_of_mem_filesBelow {n : Nat} {directories : List Location} {e : Location}
    (he : e ∈ s.filesBelow n directories) : ∃ l ∈ directories, l <+: e := by
  induction n generalizing directories with
  | zero => cases he
  | succ n ih =>
    have hentry : ∀ k ∈ directories.flatMap s.entries, ∃ l ∈ directories, l <+: k := by
      intro k hk
      obtain ⟨l, hl, hk⟩ := List.mem_flatMap.mp hk
      obtain ⟨name, -, rfl⟩ := List.mem_map.mp hk
      exact ⟨l, hl, List.prefix_append ..⟩
    rw [filesBelow, List.mem_append] at he
    rcases he with he | he
    · exact hentry e (List.mem_filter.mp he).1
    · obtain ⟨k, hk, hke⟩ := ih he
      obtain ⟨l, hl, hlk⟩ := hentry k (List.mem_filter.mp hk).1
      exact ⟨l, hl, hlk.trans hke⟩

/-! ## Patterns -/

theorem SameNames.expand? (h : SameNames s t written) (p : Path) :
    (t.expand? p).map (List.filter (unwritten written)) =
      (s.expand? p).map (List.filter (unwritten written)) := by
  unfold Store.expand?
  extract_lets parts
  rw [h.toSameTree.start, Option.map_map, Option.map_map]
  exact congrArg (fun f => Option.map f (parts.mapM PatternPart.read?))
    (funext fun parts => h.filter_matchesFrom parts (s.start p))

theorem SameNames.of_put (h : SameNames s t written) {o : Location}
    (hthere : (t.content? o).isSome = true) :
    SameNames (s.put o .unknown) t (written.filter (· ≠ o)) := by
  have htree := (SameTree.refl s).put o .unknown
  refine ⟨⟨?_, ?_⟩, ?_, ?_⟩
  · rw [current_put, h.current]
  · rw [directories_put, h.directories]
  · intro l hl
    rw [htree.isDirectory]
    exact h.isFile l (List.mem_filter.mp hl).1
  · intro l hl
    rw [content?_put]
    split
    · rename_i hlo
      rw [hlo, hthere]
      rfl
    · rename_i hlo
      refine h.isSome l fun hmem => hl ?_
      exact List.mem_filter.mpr ⟨hmem, by simpa using hlo⟩

theorem isSome_content?_of_isFilled {l : Location} (h : s.isFilled l = true) :
    (s.content? l).isSome = true := by
  unfold isFilled at h
  cases hc : s.content? l with
  | none => simp [hc] at h
  | some c => rfl

theorem sources_eq_ok {p : Path} {m : Location} (hm : s.locate p = .ok m) {ls : List Location}
    (hls : s.sources p = .ok ls) :
    (s.isDirectory m = true ∧ ls = s.filesBelow (s.depth + 1) [m]) ∨
      (s.isDirectory m = false ∧ isPattern p.text.toList = true ∧
        ∃ ks, s.expand? p = some ks ∧ ls = ks.filter s.isFilled) ∨
      (s.isDirectory m = false ∧ ls = [m]) := by
  unfold sources at hls
  simp only [hm] at hls
  split at hls
  · rename_i hdir
    refine .inl ⟨hdir, ?_⟩
    split at hls
    · cases hls
    · rename_i heq
      split at hls
      · rw [heq, Except.ok.inj hls]
      · cases hls
  · rename_i hdir
    have hfile := Bool.eq_false_iff.mpr hdir
    split at hls
    · rename_i hpattern
      split at hls
      · cases hls
      · rename_i ks hks
        split at hls
        · cases hls
        · exact .inr (.inl ⟨hfile, hpattern, ks, hks, (Except.ok.inj hls).symm⟩)
    · exact .inr (.inr ⟨hfile, (Except.ok.inj hls).symm⟩)

/-! ## Files that are not covered -/

section

variable {p : Path} {m : Location} (h : SameNames s t written) (hm : s.locate p = .ok m)
  (hp : ∀ o ∈ written, s.covers p o = false)
include h hm hp

omit h in
theorem not_mem_of_mem_filesBelow (hdir : s.isDirectory m = true) {n : Nat} {e : Location}
    (he : e ∈ t.filesBelow n [m]) : e ∉ written := by
  intro hmem
  obtain ⟨l, hl, hprefix⟩ := prefix_of_mem_filesBelow he
  obtain rfl := List.mem_singleton.mp hl
  have hnot := hp e hmem
  rw [covers, hm] at hnot
  simp [hdir, List.isPrefixOf_iff_prefix.mpr hprefix] at hnot

theorem not_mem_of_mem_expand? (hfile : s.isDirectory m = false)
    (hpattern : isPattern p.text.toList = true) {ls : List Location} (hls : t.expand? p = some ls)
    {e : Location} (he : e ∈ ls.filter t.isFilled) : e ∉ written := by
  intro hmem
  obtain ⟨hels, hfilled⟩ := List.mem_filter.mp he
  have hexpand := (h.of_put (isSome_content?_of_isFilled hfilled)).expand? p
  rw [hls, Option.map_some] at hexpand
  obtain ⟨ks, hks, hfilter⟩ := Option.map_eq_some_iff.mp hexpand.symm
  have heks : e ∈ ks.filter (unwritten (written.filter (· ≠ e))) := by
    rw [hfilter]
    exact List.mem_filter.mpr ⟨hels, unwritten_iff.mpr (by simp)⟩
  have hcovers := hp e hmem
  simp [covers, hm, hfile, hpattern, hks, (List.mem_filter.mp heks).1] at hcovers

omit h in
theorem not_mem_of_locate (hfile : s.isDirectory m = false) : m ∉ written := by
  intro hmem
  have hcovers := hp m hmem
  simp [covers, hm, hfile] at hcovers

end

/-! ## Reading beside written files -/

theorem SameNames.refl (hfile : ∀ l ∈ written, s.isDirectory l = false) : SameNames s s written :=
  ⟨.refl s, hfile, fun _ _ => rfl⟩

theorem eq_of_filter_unwritten {a b : List Location}
    (hab : a.filter (unwritten written) = b.filter (unwritten written))
    (ha : ∀ l ∈ a, l ∉ written) (hb : ∀ l ∈ b, l ∉ written) : a = b := by
  rwa [List.filter_eq_self.mpr fun l hl => unwritten_iff.mpr (ha l hl),
    List.filter_eq_self.mpr fun l hl => unwritten_iff.mpr (hb l hl)] at hab

theorem mapM_congr {ε α β : Type} {f g : α → Except ε β} {l : List α}
    (h : ∀ a ∈ l, f a = g a) : l.mapM f = l.mapM g := by
  induction l with
  | nil => rfl
  | cons a l ih =>
    obtain ⟨ha, hl⟩ := List.forall_mem_cons.mp h
    rw [List.mapM_cons, List.mapM_cons, ha, ih hl]

namespace AgreesBut

variable (h : AgreesBut s t written) {p : Path}
include h

theorem locate_eq {m : Location} (hm : s.locate p = .ok m) : t.locate p = .ok m := by
  rw [← toOption_eq_some, h.toSameTree.locate, hm]
  rfl

theorem readAt_eq {l : Location} (hl : l ∉ written) : t.readAt l = s.readAt l := by
  unfold readAt
  rw [h.toSameTree.isDirectory, h.content? l hl]

theorem loadFiles_eq {n : Nat} {format : FileFormat} {ls : List Location}
    (hls : ∀ l ∈ ls, l ∉ written) : t.loadFiles p n format ls = s.loadFiles p n format ls := by
  have hread : ∀ l ∈ ls, t.readAt l = s.readAt l := fun l hl => h.readAt_eq (hls l hl)
  have htext : ∀ l ∈ ls, t.readTextAt l = s.readTextAt l := by
    intro l hl
    unfold readTextAt
    rw [hread l hl]
  have hframe : ∀ l ∈ ls, loadFiles.readFrame t p l = loadFiles.readFrame s p l := by
    intro l hl
    unfold loadFiles.readFrame
    rw [hread l hl]
  cases ls with
  | nil => rfl
  | cons first rest =>
    obtain ⟨htextFirst, htextRest⟩ := List.forall_mem_cons.mp htext
    obtain ⟨hframeFirst, hframeRest⟩ := List.forall_mem_cons.mp hframe
    cases format with
    | csv => simp only [loadFiles, htextFirst, mapM_congr htextRest]
    | parquet => simp only [loadFiles, hframeFirst, mapM_congr hframeRest]

variable (hp : ∀ o ∈ written, s.covers p o = false)
include hp

theorem holds_eq : t.holds p = s.holds p := by
  unfold holds
  cases hm : s.locate p with
  | error e =>
    have hnone : (t.locate p).toOption = none := by
      rw [h.toSameTree.locate, hm]
      rfl
    cases hm' : t.locate p with
    | error e => rfl
    | ok m => simp [hm', Except.toOption] at hnone
  | ok m =>
    simp only [h.locate_eq hm, h.toSameTree.isDirectory]
    cases hdir : s.isDirectory m with
    | true => rfl
    | false => rw [h.content? m (not_mem_of_locate hm hp hdir)]

theorem filesBelow_eq {m : Location} (hm : s.locate p = .ok m) (hdir : s.isDirectory m = true) :
    t.filesBelow (t.depth + 1) [m] = s.filesBelow (s.depth + 1) [m] :=
  eq_of_filter_unwritten (h.filter_filesBelow_depth [m])
    (fun _ => not_mem_of_mem_filesBelow hm hp hdir) fun _ => not_mem_of_mem_filesBelow hm hp hdir

theorem filter_expand?_eq {m : Location} (hm : s.locate p = .ok m)
    (hfile : s.isDirectory m = false) (hpattern : isPattern p.text.toList = true) :
    (t.expand? p).map (List.filter t.isFilled) = (s.expand? p).map (List.filter s.isFilled) := by
  have hexpand := h.sameNames.expand? p
  have hs : SameNames s s written := .refl h.isFile
  cases hls : s.expand? p with
  | none => simpa [hls] using hexpand
  | some ls =>
    rw [hls, Option.map_some] at hexpand
    obtain ⟨ks, hks, hfilter⟩ := Option.map_eq_some_iff.mp hexpand
    rw [hks, Option.map_some, Option.map_some]
    exact congrArg some (eq_of_filter_unwritten (h.filter_isFilled hfilter)
      (fun _ => not_mem_of_mem_expand? h.sameNames hm hp hfile hpattern hks)
      fun _ => not_mem_of_mem_expand? hs hm hp hfile hpattern hls)

theorem sources_eq {m : Location} (hm : s.locate p = .ok m) : t.sources p = s.sources p := by
  unfold sources
  simp only [h.locate_eq hm, hm, h.toSameTree.isDirectory]
  cases hdir : s.isDirectory m with
  | true => simp only [h.filesBelow_eq hp hm hdir, if_true]
  | false =>
    cases hpattern : isPattern p.text.toList with
    | false => rfl
    | true =>
      have hexpand := h.filter_expand?_eq hp hm hdir hpattern
      cases hls : s.expand? p with
      | none =>
        rw [hls, Option.map_none, Option.map_eq_none_iff] at hexpand
        simp [hexpand]
      | some ls =>
        rw [hls, Option.map_some] at hexpand
        obtain ⟨ks, hks, hfilter⟩ := Option.map_eq_some_iff.mp hexpand
        simp [hks, hfilter]

theorem not_mem_of_sources {m : Location} (hm : s.locate p = .ok m) {ls : List Location}
    (hls : s.sources p = .ok ls) : ∀ l ∈ ls, l ∉ written := by
  rcases sources_eq_ok hm hls with ⟨hdir, rfl⟩ | ⟨hfile, hpattern, ks, hks, rfl⟩ | ⟨hfile, rfl⟩
  · exact fun l hl => not_mem_of_mem_filesBelow hm hp hdir hl
  · exact fun l hl => not_mem_of_mem_expand? (.refl h.isFile) hm hp hfile hpattern hks hl
  · exact List.forall_mem_singleton.mpr (not_mem_of_locate hm hp hfile)

theorem loadTable_eq (n : Nat) : t.loadTable p n = s.loadTable p n := by
  unfold loadTable
  rw [h.holds_eq hp]
  split
  · rfl
  · rename_i hholds
    have hm : ∃ m, s.locate p = .ok m := by
      unfold holds at hholds
      cases hm : s.locate p with
      | error e => simp [hm] at hholds
      | ok m => exact ⟨m, rfl⟩
    obtain ⟨m, hm⟩ := hm
    have hframe : ∀ format, t.loadFrame p n format = s.loadFrame p n format := by
      intro format
      unfold loadFrame
      rw [h.sources_eq hp hm]
      cases hls : s.sources p with
      | error e => rfl
      | ok ls => exact h.loadFiles_eq (h.not_mem_of_sources hp hm hls)
    simp only [hframe]

end AgreesBut

end TableCleaner.Store
