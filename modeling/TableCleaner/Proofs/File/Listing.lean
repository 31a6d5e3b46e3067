import TableCleaner.File.Source
import TableCleaner.Proofs.File.Store

/-!
# What is listed

The files below a directory and the files that fit a pattern are found by the names in directories.
When some files are written, all others are listed as before and in the same order: the names in a
directory are sorted, and a search goes as deep as there is anything to find.
-/

namespace TableCleaner.Store

/-! ## Stores that differ in some files -/

/-- The stores hold files at the same locations, except for some locations of files. -/
structure SameNames (s t : Store) (written : List Location) : Prop extends SameTree s t where
  isFile : ∀ l ∈ written, s.isDirectory l = false
  isSome : ∀ l, l ∉ written → (t.content? l).isSome = (s.content? l).isSome

variable {s t : Store} {written : List Location}

/-! ## Names in a directory -/

theorem isSome_content? {l : Location} :
    (s.content? l).isSome = true ↔ l ∈ s.files.map Prod.fst := by
  unfold content?
  rw [Option.isSome_map, List.find?_isSome, List.mem_map]
  simp only [beq_iff_eq]

/-- A file or a directory stands at the location. -/
def IsThere (s : Store) (l : Location) : Prop := l ∈ s.directories ++ s.files.map Prod.fst

theorem isThere_concat {l : Location} {name : List Char} :
    s.IsThere (l ++ [name]) ↔
      s.isDirectory (l ++ [name]) = true ∨ (s.content? (l ++ [name])).isSome = true := by
  unfold IsThere isDirectory
  rw [List.mem_append, isSome_content?]
  simp

theorem mem_names {l : Location} {name : List Char} :
    name ∈ s.names l ↔ s.IsThere (l ++ [name]) := by
  unfold names IsThere
  simp only [List.mem_mergeSort, List.mem_eraseDups, List.mem_filterMap, List.mem_filter,
    Bool.and_eq_true, decide_eq_true_eq, List.isPrefixOf_iff_prefix]
  constructor
  · rintro ⟨k, ⟨hk, hlen, ⟨u, rfl⟩⟩, hlast⟩
    rw [List.length_append, Nat.add_left_cancel_iff, List.length_eq_one_iff] at hlen
    obtain ⟨x, rfl⟩ := hlen
    obtain rfl : x = name := by simpa using hlast
    exact hk
  · intro hk
    exact ⟨_, ⟨hk, by simp, List.prefix_append _ _⟩, by simp⟩

theorem nodup_eraseDups (l : List (List Char)) : l.eraseDups.Nodup := by
  generalize hn : l.length = n
  induction n using Nat.strongRecOn generalizing l with
  | ind n ih =>
    cases l with
    | nil => simp
    | cons a l =>
      have hle := List.length_filter_le (fun b => !b == a) l
      rw [List.eraseDups_cons, List.nodup_cons, List.mem_eraseDups]
      refine ⟨by simp, ih _ ?_ _ rfl⟩
      rw [← hn, List.length_cons]
      omega

theorem pairwise_names (s : Store) (l : Location) :
    (s.names l).Pairwise fun a b => String.ofList a < String.ofList b := by
  unfold names
  extract_lets below
  generalize hle : (fun a b : List Char => !decide (String.ofList b < String.ofList a)) = le
  have hle_iff : ∀ a b, le a b = true ↔ String.ofList a ≤ String.ofList b := by
    intro a b
    rw [← hle, Bool.not_eq_true', decide_eq_false_iff_not, String.not_lt]
  have hsorted : (((below.filterMap List.getLast?).eraseDups).mergeSort le).Pairwise
      fun a b => le a b = true := by
    apply List.pairwise_mergeSort
    · intro a b c hab hbc
      rw [hle_iff] at hab hbc ⊢
      exact String.le_trans hab hbc
    · intro a b
      rw [Bool.or_eq_true, hle_iff, hle_iff]
      exact String.le_total _ _
  have hnodup := (List.mergeSort_perm (below.filterMap List.getLast?).eraseDups le).nodup_iff.mpr
    (nodup_eraseDups _)
  refine (hsorted.and hnodup).imp fun {a b} hab => String.not_le.mp fun hba => ?_
  exact hab.2 (String.ofList_injective (String.le_antisymm ((hle_iff a b).mp hab.1) hba))

theorem eq_of_ascending {a b : List (List Char)}
    (ha : a.Pairwise fun x y => String.ofList x < String.ofList y)
    (hb : b.Pairwise fun x y => String.ofList x < String.ofList y) (h : ∀ x, x ∈ a ↔ x ∈ b) :
    a = b := by
  have hnodup : ∀ {c : List (List Char)},
      c.Pairwise (fun x y => String.ofList x < String.ofList y) → c.Nodup := by
    intro c hc
    refine hc.imp ?_
    rintro x _ hlt rfl
    exact String.lt_irrefl _ hlt
  refine List.Perm.eq_of_pairwise ?_ ha hb
    ((List.perm_ext_iff_of_nodup (hnodup ha) (hnodup hb)).mpr h)
  intro x y _ _ hxy hyx
  exact absurd (String.lt_trans hxy hyx) (String.lt_irrefl _)

/-! ## Listings without the written files -/

/-- The location is none of those that were written. -/
def unwritten (written : List Location) (l : Location) : Bool := !written.contains l

theorem unwritten_iff {l : Location} : unwritten written l = true ↔ l ∉ written := by
  simp [unwritten]

theorem unwritten_eq_false_iff {l : Location} : unwritten written l = false ↔ l ∈ written := by
  simp [unwritten]

theorem filter_flatMap_congr {a b : List Location} {f g : Location → List Location}
    {q : Location → Bool} (hab : a.filter q = b.filter q)
    (hskip : ∀ e, q e = false → (f e).filter q = [] ∧ (g e).filter q = [])
    (hsame : ∀ e, q e = true → (f e).filter q = (g e).filter q) :
    (a.flatMap f).filter q = (b.flatMap g).filter q := by
  have hkeep : ∀ (h : Location → List Location) (c : List Location),
      (∀ e, q e = false → (h e).filter q = []) →
      (c.flatMap h).filter q = (c.filter q).flatMap fun e => (h e).filter q := by
    intro h c hnone
    rw [List.filter_flatMap]
    induction c with
    | nil => rfl
    | cons e c ih =>
      rw [List.flatMap_cons, ih, List.filter_cons]
      split
      · rfl
      · rename_i hq
        rw [hnone e (Bool.eq_false_iff.mpr hq), List.nil_append]
  rw [hkeep f a fun e he => (hskip e he).1, hkeep g b fun e he => (hskip e he).2, hab]
  exact congrArg List.flatten (List.map_congr_left fun e he => hsame e (List.mem_filter.mp he).2)

namespace SameNames

variable (h : SameNames s t written)
include h

theorem isThere_iff {l : Location} {name : List Char} (hl : l ++ [name] ∉ written) :
    t.IsThere (l ++ [name]) ↔ s.IsThere (l ++ [name]) := by
  rw [isThere_concat, isThere_concat, h.toSameTree.isDirectory, h.isSome _ hl]

theorem filter_names (l : Location) :
    (t.names l).filter (fun name => unwritten written (l ++ [name])) =
      (s.names l).filter fun name => unwritten written (l ++ [name]) := by
  refine eq_of_ascending ((pairwise_names t l).filter _) ((pairwise_names s l).filter _) ?_
  intro name
  simp only [List.mem_filter, mem_names, and_congr_left_iff]
  exact fun hname => h.isThere_iff (unwritten_iff.mp hname)

theorem filter_entries (l : Location) :
    (t.entries l).filter (unwritten written) = (s.entries l).filter (unwritten written) := by
  unfold entries
  rw [List.filter_map, List.filter_map]
  exact congrArg _ (h.filter_names l)

theorem isDirectory_eq_false {l : Location} (hl : unwritten written l = false) :
    t.isDirectory l = false := by
  rw [h.toSameTree.isDirectory]
  exact h.isFile l (unwritten_eq_false_iff.mp hl)

theorem filter_isDirectory {a b : List Location}
    (hab : a.filter (unwritten written) = b.filter (unwritten written)) :
    a.filter t.isDirectory = b.filter s.isDirectory := by
  have hdir : ∀ c : List Location,
      c.filter s.isDirectory = (c.filter (unwritten written)).filter s.isDirectory := by
    intro c
    rw [List.filter_filter]
    refine List.filter_congr fun l _ => ?_
    cases hl : unwritten written l with
    | true => rw [Bool.and_true]
    | false => rw [Bool.and_false, h.isFile l (unwritten_eq_false_iff.mp hl)]
  have hsame : t.isDirectory = s.isDirectory := funext h.toSameTree.isDirectory
  rw [hsame, hdir a, hdir b, hab]

/-! ## Trees -/

theorem filter_treeBelow (n : Nat) (l : Location) :
    (t.treeBelow n l).filter (unwritten written) =
      (s.treeBelow n l).filter (unwritten written) := by
  induction n generalizing l with
  | zero => rfl
  | succ n ih =>
    have hnone : ∀ (u : Store) e, u.isDirectory e = false → u.treeBelow n e = [] := by
      intro u e he
      cases n with
      | zero => rfl
      | succ n => simp [treeBelow, he]
    rw [treeBelow, treeBelow]
    refine filter_flatMap_congr ?_ ?_ ?_
    · rw [h.toSameTree.isDirectory]
      split
      · exact h.filter_entries l
      · rfl
    · intro e he
      have hs := h.isFile e (unwritten_eq_false_iff.mp he)
      rw [hnone t e (h.isDirectory_eq_false he), hnone s e hs]
      simp [he]
    · intro e he
      simp only [List.filter_cons, he, if_true, ih]

end SameNames

/-- The stores agree in what their files hold, except for some locations of files. -/
structure AgreesBut (s t : Store) (written : List Location) : Prop extends SameTree s t where
  isFile : ∀ l ∈ written, s.isDirectory l = false
  content? : ∀ l, l ∉ written → t.content? l = s.content? l

namespace AgreesBut

variable (h : AgreesBut s t written)
include h

theorem sameNames : SameNames s t written :=
  ⟨h.toSameTree, h.isFile, fun l hl => congrArg Option.isSome (h.content? l hl)⟩

theorem isFilled_eq {l : Location} (hl : unwritten written l = true) :
    t.isFilled l = s.isFilled l := by
  unfold isFilled
  rw [h.toSameTree.isDirectory, h.content? l (unwritten_iff.mp hl)]

theorem filter_isFilled {a b : List Location}
    (hab : a.filter (unwritten written) = b.filter (unwritten written)) :
    (a.filter t.isFilled).filter (unwritten written) =
      (b.filter s.isFilled).filter (unwritten written) := by
  have hswap : ∀ (u : Store) (c : List Location), (c.filter u.isFilled).filter (unwritten written) =
      (c.filter (unwritten written)).filter u.isFilled := by
    intro u c
    rw [List.filter_filter, List.filter_filter]
    exact List.filter_congr fun l _ => Bool.and_comm ..
  rw [hswap, hswap, hab]
  exact List.filter_congr fun l hl => h.isFilled_eq (List.mem_filter.mp hl).2

theorem filter_filesBelow (n : Nat) (directories : List Location) :
    (t.filesBelow n directories).filter (unwritten written) =
      (s.filesBelow n directories).filter (unwritten written) := by
  induction n generalizing directories with
  | zero => rfl
  | succ n ih =>
    have hentries : (directories.flatMap t.entries).filter (unwritten written) =
        (directories.flatMap s.entries).filter (unwritten written) := by
      rw [List.filter_flatMap, List.filter_flatMap]
      exact congrArg (fun f => directories.flatMap f) (funext h.sameNames.filter_entries)
    rw [filesBelow, filesBelow, List.filter_append, List.filter_append,
      h.filter_isFilled hentries, h.sameNames.filter_isDirectory hentries, ih]

end AgreesBut

/-! ## Depth -/

theorem length_le_depth {l : Location} (h : s.IsThere l) : l.length ≤ s.depth := by
  have hfold : ∀ (ls : List Location) (n : Nat), n ≤ ls.foldl (fun n l => max n l.length) n ∧
      ∀ l ∈ ls, l.length ≤ ls.foldl (fun n l => max n l.length) n := by
    intro ls
    induction ls with
    | nil => simp
    | cons k ls ih =>
      intro n
      obtain ⟨hle, hmem⟩ := ih (max n k.length)
      rw [List.foldl_cons]
      exact ⟨by omega, List.forall_mem_cons.mpr ⟨by omega, hmem⟩⟩
  exact (hfold _ 0).2 l h

theorem entries_eq_nil {l : Location} (h : s.depth ≤ l.length) : s.entries l = [] := by
  rw [entries, List.map_eq_nil_iff, List.eq_nil_iff_forall_not_mem]
  intro name hname
  have hle := length_le_depth (mem_names.mp hname)
  rw [List.length_append, List.length_singleton] at hle
  omega

theorem length_of_mem_entries {l e : Location} (h : e ∈ s.entries l) : e.length = l.length + 1 := by
  obtain ⟨name, -, rfl⟩ := List.mem_map.mp h
  simp

theorem filesBelow_succ {n m : Nat} {directories : List Location}
    (hm : ∀ l ∈ directories, m ≤ l.length) (h : s.depth ≤ n + m) :
    s.filesBelow (n + 1) directories = s.filesBelow n directories := by
  induction n generalizing m directories with
  | zero =>
    have hnone : directories.flatMap s.entries = [] := by
      rw [List.flatMap_eq_nil_iff]
      intro l hl
      have := hm l hl
      exact entries_eq_nil (by omega)
    simp [filesBelow, hnone]
  | succ n ih =>
    rw [filesBelow, ih (m := m + 1) ?_ (by omega)]
    · rw [filesBelow]
    · intro e he
      obtain ⟨l, hl, he⟩ := List.mem_flatMap.mp (List.mem_filter.mp he).1
      have := hm l hl
      rw [length_of_mem_entries he]
      omega

theorem filesBelow_add (s : Store) (n : Nat) (directories : List Location) :
    s.filesBelow (s.depth + n) directories = s.filesBelow s.depth directories := by
  induction n with
  | zero => rfl
  | succ n ih =>
    rw [← Nat.add_assoc, filesBelow_succ (m := 0) (fun _ _ => Nat.zero_le _) (by omega), ih]

theorem treeBelow_succ {n : Nat} {l : Location} (h : s.depth ≤ n + l.length) :
    s.treeBelow (n + 1) l = s.treeBelow n l := by
  induction n generalizing l with
  | zero =>
    have hnone : s.entries l = [] := entries_eq_nil (by omega)
    simp [treeBelow, hnone]
  | succ n ih =>
    rw [treeBelow, treeBelow]
    refine congrArg List.flatten (List.map_congr_left fun e he => ?_)
    split at he
    · rw [ih]
      rw [length_of_mem_entries he]
      omega
    · cases he

theorem treeBelow_add (s : Store) (n : Nat) (l : Location) :
    s.treeBelow (s.depth + n) l = s.treeBelow s.depth l := by
  induction n with
  | zero => rfl
  | succ n ih => rw [← Nat.add_assoc, treeBelow_succ (by omega), ih]

theorem SameNames.filter_treeBelow_depth (h : SameNames s t written) (l : Location) :
    (t.treeBelow t.depth l).filter (unwritten written) =
      (s.treeBelow s.depth l).filter (unwritten written) := by
  rw [← treeBelow_add t s.depth, ← treeBelow_add s t.depth, Nat.add_comm]
  exact h.filter_treeBelow ..

theorem AgreesBut.filter_filesBelow_depth (h : AgreesBut s t written)
    (directories : List Location) :
    (t.filesBelow (t.depth + 1) directories).filter (unwritten written) =
      (s.filesBelow (s.depth + 1) directories).filter (unwritten written) := by
  rw [filesBelow_add t 1, filesBelow_add s 1, ← filesBelow_add t s.depth,
    ← filesBelow_add s t.depth, Nat.add_comm]
  exact h.filter_filesBelow ..

/-! ## Patterns -/

namespace SameNames

variable (h : SameNames s t written)
include h

theorem filter_named (p : NamePattern) (l : Location) :
    (t.named p l).filter (unwritten written) = (s.named p l).filter (unwritten written) := by
  unfold named
  extract_lets dots
  rw [List.filterMap_append, List.filterMap_append, List.filter_append, List.filter_append]
  congr 1
  have hnames : ∀ u : Store, (((u.names l).map fun name => (name, l ++ [name])).filterMap
      fun e : List Char × Location => if p.fits e.1 then some e.2 else none) =
        ((u.names l).filter p.fits).map fun name => l ++ [name] := by
    intro u
    rw [List.filterMap_map, ← List.filterMap_eq_map, List.filterMap_filter]
    rfl
  have hswap : ∀ u : Store, (((u.names l).filter p.fits).map fun name => l ++ [name]).filter
      (unwritten written) = (((u.names l).filter fun name => unwritten written (l ++ [name])).filter
        p.fits).map fun name => l ++ [name] := by
    intro u
    rw [List.filter_map, List.filter_filter, List.filter_filter]
    exact congrArg _ (List.filter_congr fun name _ => Bool.and_comm ..)
  rw [hnames, hnames, hswap, hswap, h.filter_names]

theorem filter_matchesFrom_of_written (u : Store) (hu : SameTree s u) {l : Location}
    (hl : unwritten written l = false) (parts : List PatternPart) :
    (u.matchesFrom parts l).filter (unwritten written) = [] := by
  have hfile : u.isDirectory l = false := by
    rw [hu.isDirectory]
    exact h.isFile l (unwritten_eq_false_iff.mp hl)
  have htree : ∀ n, u.treeBelow n l = [] := by
    intro n
    cases n with
    | zero => rfl
    | succ n => simp [treeBelow, hfile]
  induction parts with
  | nil => simp [matchesFrom, hl]
  | cons part rest ih =>
    cases part with
    | exact name => simp [matchesFrom, hfile]
    | names p => simp [matchesFrom, hfile]
    | directories =>
      cases rest with
      | nil => simp [matchesFrom, htree]
      | cons part rest =>
        cases part with
        | directories => simpa [matchesFrom] using ih
        | _ => simp [matchesFrom, htree]

section

variable {rest : List PatternPart}
  (ih : ∀ l, (t.matchesFrom rest l).filter (unwritten written) =
    (s.matchesFrom rest l).filter (unwritten written))
include ih

theorem filter_matchesFrom_exact (name : List Char) (l : Location) :
    (t.matchesFrom (.exact name :: rest) l).filter (unwritten written) =
      (s.matchesFrom (.exact name :: rest) l).filter (unwritten written) := by
  rw [matchesFrom, matchesFrom, h.toSameTree.isDirectory, h.toSameTree.isDirectory]
  split
  · rfl
  · split
    · exact ih l
    · split
      · exact ih l.dropLast
      · cases hnew : unwritten written (l ++ [name]) with
        | true => rw [h.isSome _ (unwritten_iff.mp hnew), apply_ite (List.filter _), ih,
            ← apply_ite (List.filter _)]
        | false =>
          -- A written file is left out of the listing, whether it was there before or not.
          have hnone : ∀ (u : Store), SameTree s u → ∀ b : Bool,
              (if b then u.matchesFrom rest (l ++ [name]) else []).filter (unwritten written) =
                [] := by
            intro u hu b
            cases b with
            | true => exact h.filter_matchesFrom_of_written u hu hnew rest
            | false => rfl
          rw [hnone t h.toSameTree, hnone s (.refl s)]

theorem filter_matchesFrom_names (p : NamePattern) (l : Location) :
    (t.matchesFrom (.names p :: rest) l).filter (unwritten written) =
      (s.matchesFrom (.names p :: rest) l).filter (unwritten written) := by
  rw [matchesFrom, matchesFrom, h.toSameTree.isDirectory]
  split
  · rfl
  · exact filter_flatMap_congr (h.filter_named p l)
      (fun e he => ⟨h.filter_matchesFrom_of_written t h.toSameTree he rest,
        h.filter_matchesFrom_of_written s (.refl s) he rest⟩) fun e _ => ih e

theorem filter_matchesFrom_directories {part : PatternPart} (hpart : part ≠ .directories)
    (l : Location) :
    (t.matchesFrom (.directories :: part :: rest) l).filter (unwritten written) =
      (s.matchesFrom (.directories :: part :: rest) l).filter (unwritten written) := by
  have hfits : ∀ u : Store, u.matchesFrom (.directories :: part :: rest) l =
      (u.treeBelow u.depth l).flatMap fun e =>
        if part.fits (e.getLastD []) then u.matchesFrom rest e else [] := by
    intro u
    rw [matchesFrom]
    exact hpart
  rw [hfits, hfits]
  refine filter_flatMap_congr (h.filter_treeBelow_depth l) (fun e he => ?_) fun e _ => ?_
  · split
    · exact ⟨h.filter_matchesFrom_of_written t h.toSameTree he rest,
        h.filter_matchesFrom_of_written s (.refl s) he rest⟩
    · exact ⟨rfl, rfl⟩
  · split
    · exact ih e
    · rfl

end

theorem filter_matchesFrom (parts : List PatternPart) (l : Location) :
    (t.matchesFrom parts l).filter (unwritten written) =
      (s.matchesFrom parts l).filter (unwritten written) := by
  match parts with
  | [] => rfl
  | .exact name :: rest => exact h.filter_matchesFrom_exact (filter_matchesFrom rest) name l
  | .names p :: rest => exact h.filter_matchesFrom_names (filter_matchesFrom rest) p l
  | [.directories] =>
    rw [matchesFrom, matchesFrom]
    exact congrArg _ (h.filter_isDirectory (h.filter_treeBelow_depth l))
  | .directories :: .directories :: rest =>
    rw [matchesFrom, matchesFrom]
    exact filter_matchesFrom (.directories :: rest) l
  | .directories :: .exact name :: rest =>
    exact h.filter_matchesFrom_directories (filter_matchesFrom rest) (by simp) l
  | .directories :: .names p :: rest =>
    exact h.filter_matchesFrom_directories (filter_matchesFrom rest) (by simp) l

end SameNames

end TableCleaner.Store
