import TableCleaner.File.Path

/-!
# Names beside names

The cleaned path of a path leads to the same directory. Its name has the stem and the extension of
the first name, with `_cleaned` between them, so it is another name, and different names stay
different.
-/

namespace TableCleaner

/-! ## Pieces -/

namespace Text

theorem not_mem_of_mem_pieces {mark : Char} {s p : List Char} (h : p ∈ pieces mark s) :
    mark ∉ p := by
  induction s generalizing p with
  | nil => simp_all [pieces]
  | cons c s ih =>
    unfold pieces at h
    split at h
    · rcases List.mem_cons.1 h with rfl | h
      · simp
      · exact ih h
    · rename_i hc
      split at h
      · rename_i hp
        exact absurd hp (pieces_ne_nil mark s)
      · rename_i first rest hp
        rw [hp] at ih
        rcases List.mem_cons.1 h with rfl | h
        · rw [List.mem_cons, not_or]
          exact ⟨Ne.symm hc, ih List.mem_cons_self⟩
        · exact ih (List.mem_cons_of_mem _ h)

theorem pieces_of_not_mem {mark : Char} {p : List Char} (h : mark ∉ p) :
    pieces mark p = [p] := by
  induction p with
  | nil => rfl
  | cons c p ih =>
    obtain ⟨hc, hp⟩ := not_or.1 (mt List.mem_cons.2 h)
    rw [pieces, if_neg (Ne.symm hc), ih hp]

theorem pieces_append_mark {mark : Char} {p : List Char} (h : mark ∉ p) (s : List Char) :
    pieces mark (p ++ mark :: s) = p :: pieces mark s := by
  induction p with
  | nil => simp [pieces]
  | cons c p ih =>
    obtain ⟨hc, hp⟩ := not_or.1 (mt List.mem_cons.2 h)
    rw [List.cons_append, pieces, if_neg (Ne.symm hc), ih hp]

theorem join_cons {mark : Char} {l : List (List Char)} (hl : l ≠ []) (p : List Char) :
    join mark (p :: l) = p ++ mark :: join mark l := by
  cases l with
  | nil => exact absurd rfl hl
  | cons q l => rfl

theorem pieces_join {mark : Char} {l : List (List Char)} (hl : l ≠ []) (h : ∀ p ∈ l, mark ∉ p) :
    pieces mark (join mark l) = l := by
  induction l with
  | nil => exact absurd rfl hl
  | cons p l ih =>
    have hp := h p List.mem_cons_self
    by_cases hrest : l = []
    · rw [hrest]
      exact pieces_of_not_mem hp
    · rw [join_cons hrest, pieces_append_mark hp,
        ih hrest fun x hx => h x (List.mem_cons_of_mem _ hx)]

theorem join_concat {mark : Char} {l : List (List Char)} (hl : l ≠ []) (p : List Char) :
    join mark (l ++ [p]) = join mark l ++ mark :: p := by
  induction l with
  | nil => exact absurd rfl hl
  | cons q l ih =>
    by_cases hrest : l = []
    · rw [hrest]
      rfl
    · rw [List.cons_append, join_cons (by simp), ih hrest, join_cons hrest, List.append_assoc,
        List.cons_append]

theorem head?_join {mark : Char} {p : List Char} (hp : mark ∉ p) (l : List (List Char)) :
    (join mark (p :: l)).head? = some mark ↔ p = [] ∧ l ≠ [] := by
  cases p with
  | nil => cases l <;> simp [join]
  | cons c p =>
    have hc : c ≠ mark := fun heq => hp (heq ▸ List.mem_cons_self)
    rw [join_cons_cons]
    simp [hc]

theorem getLast?_join {mark : Char} {p : List Char} (hp : p ≠ []) (l : List (List Char)) :
    (join mark (l ++ [p])).getLast? = p.getLast? := by
  by_cases hl : l = []
  · rw [hl]
    rfl
  · obtain ⟨c, p, rfl⟩ := List.exists_cons_of_ne_nil hp
    rw [join_concat hl, List.getLast?_append, List.getLast?_cons_cons]
    simp [List.getLast?_cons]

end Text

/-! ## Names -/

namespace Path

/-- The name of the cleaned table beside a name. -/
def cleanedName (name : List Char) : List Char :=
  let (stem, extension) := splitName name
  stem ++ "_cleaned.".toList ++ extension.getD "csv".toList

theorem takeWhile_ne_dot {ext : List Char} (h : '.' ∉ ext) (before : List Char) :
    (ext.reverse ++ before).takeWhile (· ≠ '.') =
      ext.reverse ++ before.takeWhile (· ≠ '.') := by
  apply List.takeWhile_append_of_pos
  intro c hc
  have hne : c ≠ '.' := fun heq => h (heq ▸ List.mem_reverse.1 hc)
  simpa using hne

theorem takeWhile_extension {ext : List Char} (h : '.' ∉ ext) (stem : List Char) :
    ((stem ++ '.' :: ext).reverse.takeWhile (· ≠ '.')).reverse = ext := by
  rw [List.reverse_append, List.reverse_cons, List.append_assoc, takeWhile_ne_dot h]
  simp

theorem splitName_append {stem ext : List Char} (hext : '.' ∉ ext) :
    splitName (stem ++ '.' :: ext) =
      if stem = [] then (stem ++ '.' :: ext, none) else (stem, some ext) := by
  have hlen : (stem ++ '.' :: ext).length - ext.length - 1 = stem.length := by
    rw [List.length_append, List.length_cons]
    omega
  have hne : ¬ ext.length = (stem ++ '.' :: ext).length := by
    rw [List.length_append, List.length_cons]
    omega
  unfold splitName
  simp only [takeWhile_extension hext, hlen, List.take_left, hne, decide_false, Bool.false_or,
    List.isEmpty_iff]

theorem splitName_of_not_mem {name : List Char} (h : '.' ∉ name) :
    splitName name = (name, none) := by
  have hall : name.reverse.takeWhile (· ≠ '.') = name.reverse := by
    rw [← List.append_nil name.reverse, takeWhile_ne_dot h]
    rfl
  unfold splitName
  simp only [hall, List.reverse_reverse, decide_true, Bool.true_or, if_true]

theorem splitName_eq_some {name stem ext : List Char} (h : splitName name = (stem, some ext)) :
    name = stem ++ '.' :: ext ∧ stem ≠ [] ∧ '.' ∉ ext := by
  by_cases hdot : '.' ∈ name
  · obtain ⟨as, bs, heq, has⟩ := List.eq_append_cons_of_mem (List.mem_reverse.2 hdot)
    have hname : name = bs.reverse ++ '.' :: as.reverse := by
      rw [← List.reverse_reverse name, heq]
      simp
    have hext : '.' ∉ as.reverse := mt List.mem_reverse.1 has
    rw [hname, splitName_append hext] at h
    split at h
    · simp at h
    · rename_i hstem
      obtain ⟨rfl, hsome⟩ := Prod.mk.inj h
      obtain rfl := Option.some.inj hsome
      exact ⟨hname, hstem, hext⟩
  · rw [splitName_of_not_mem hdot] at h
    simp at h

theorem splitName_cleanedName {name stem ext : List Char} (h : splitName name = (stem, some ext)) :
    splitName (cleanedName name) = (stem ++ "_cleaned".toList, some ext) := by
  have hext := (splitName_eq_some h).2.2
  have hname : cleanedName name = (stem ++ "_cleaned".toList) ++ '.' :: ext := by
    unfold cleanedName
    rw [h]
    simp
  rw [hname, splitName_append hext, if_neg (by simp)]

theorem cleanedName_ne {name stem ext : List Char} (h : splitName name = (stem, some ext)) :
    cleanedName name ≠ name := by
  intro heq
  have hsplit := splitName_cleanedName h
  rw [heq, h] at hsplit
  have hlen := congrArg (fun r => r.1.length) hsplit
  simp at hlen

theorem cleanedName_inj {name stem ext name' stem' ext' : List Char}
    (h : splitName name = (stem, some ext)) (h' : splitName name' = (stem', some ext'))
    (heq : cleanedName name = cleanedName name') : name = name' := by
  have hsplit := (splitName_cleanedName h).symm.trans (heq ▸ splitName_cleanedName h')
  obtain ⟨hstem, hext⟩ := Prod.mk.inj hsplit
  rw [(splitName_eq_some h).1, (splitName_eq_some h').1, List.append_cancel_right hstem,
    Option.some.inj hext]

theorem slash_not_mem_cleanedName {name stem ext : List Char}
    (h : splitName name = (stem, some ext)) (hname : '/' ∉ name) : '/' ∉ cleanedName name := by
  obtain ⟨heq, -, -⟩ := splitName_eq_some h
  rw [heq, List.mem_append, List.mem_cons, not_or, not_or] at hname
  unfold cleanedName
  rw [h]
  simp [hname.1, hname.2.2]

/-! ## Parts -/

theorem parts_ne_nil (p : Path) : p.parts ≠ [] := Text.pieces_ne_nil '/' p.text.toList

theorem slash_not_mem_of_mem_parts {p : Path} {part : List Char} (h : part ∈ p.parts) :
    '/' ∉ part :=
  Text.not_mem_of_mem_pieces h

theorem join_parts (p : Path) : Text.join '/' p.parts = p.text.toList := Text.join_pieces ..

theorem head?_text {p : Path} {first : List Char} {rest : List (List Char)}
    (h : p.parts = first :: rest) :
    p.text.toList.head? = some '/' ↔ first = [] ∧ rest ≠ [] := by
  rw [← join_parts, h]
  exact Text.head?_join (slash_not_mem_of_mem_parts (h ▸ List.mem_cons_self)) rest

theorem trimIdle_concat (l : List (List Char)) {part : List Char} (h : isIdle part = false) :
    trimIdle (l ++ [part]) = l ++ [part] := by
  unfold trimIdle
  rw [List.reverse_append, List.reverse_singleton, List.singleton_append, List.dropWhile_cons, h]
  simp

theorem exists_trimIdle (l : List (List Char)) :
    ∃ idle, l = trimIdle l ++ idle ∧ ∀ part ∈ idle, isIdle part = true := by
  refine ⟨(l.reverse.takeWhile isIdle).reverse, ?_, ?_⟩
  · unfold trimIdle
    rw [← List.reverse_append, List.takeWhile_append_dropWhile, List.reverse_reverse]
  · intro part hpart
    exact List.all_eq_true.1 List.all_takeWhile part (List.mem_reverse.1 hpart)

theorem trimIdle_getLast? (l : List (List Char)) {part : List Char}
    (h : (trimIdle l).getLast? = some part) : isIdle part = false := by
  unfold trimIdle at h
  rw [List.getLast?_reverse] at h
  have hnot := List.head?_dropWhile_not isIdle l.reverse
  rw [h] at hnot
  simpa using hnot

theorem isEmpty_of_isIdle {part : List Char} (h : isIdle part = false) : part.isEmpty = false := by
  unfold isIdle at h
  exact (Bool.or_eq_false_iff.1 h).1

/-- The path ends in a name, up to idle parts behind it. -/
structure EndsIn (p : Path) (front : List (List Char)) (name : List Char)
    (idle : List (List Char)) : Prop where
  parts : p.parts = front ++ name :: idle
  idle : ∀ part ∈ idle, isIdle part = true
  solid : isIdle name = false
  named : name ≠ dots

/-- The steps up to the name that a path ends in. -/
def frontSteps : List (List Char) → List PathStep
  | [] => []
  | first :: rest => (firstStep? first false).toList ++ (rest.filter (!isIdle ·)).map stepOf

theorem filter_idle {idle : List (List Char)} (h : ∀ part ∈ idle, isIdle part = true) :
    idle.filter (!isIdle ·) = [] := by
  rw [List.filter_eq_nil_iff]
  intro part hpart
  simp [h part hpart]

theorem steps_of_parts {p : Path} {front idle : List (List Char)} {part : List Char}
    (h : p.parts = front ++ part :: idle) (hidle : ∀ q ∈ idle, isIdle q = true)
    (hpart : isIdle part = false) : p.steps = frontSteps front ++ [stepOf part] := by
  unfold steps
  rw [h]
  cases front with
  | nil => simp [firstStep?, isEmpty_of_isIdle hpart, filter_idle hidle, frontSteps]
  | cons first rest =>
    have hmore : (rest ++ part :: idle).isEmpty = false := by
      rw [List.isEmpty_eq_false_iff]
      exact List.append_ne_nil_of_right_ne_nil _ (List.cons_ne_nil _ _)
    simp [hmore, hpart, filter_idle hidle, frontSteps]

theorem ne_dot_of_isIdle {part : List Char} (h : isIdle part = false) : part ≠ dot := by
  rintro rfl
  exact absurd h (by decide)

theorem fileName?_of_parts {p : Path} {front idle : List (List Char)} {part : List Char}
    (h : p.parts = front ++ part :: idle) (hidle : ∀ q ∈ idle, isIdle q = true)
    (hpart : isIdle part = false) : p.fileName? = if part = dots then none else some part := by
  unfold fileName?
  rw [steps_of_parts h hidle hpart, List.getLast?_concat, stepOf, if_neg (ne_dot_of_isIdle hpart)]
  by_cases hdots : part = dots
  · simp [hdots]
  · simp [hdots]

namespace EndsIn

variable {p : Path} {front idle : List (List Char)} {name : List Char}

theorem steps_eq (h : p.EndsIn front name idle) : p.steps = frontSteps front ++ [.name name] := by
  rw [steps_of_parts h.parts h.idle h.solid, stepOf, if_neg (ne_dot_of_isIdle h.solid),
    if_neg h.named]

theorem fileName?_eq (h : p.EndsIn front name idle) : p.fileName? = some name := by
  rw [fileName?_of_parts h.parts h.idle h.solid, if_neg h.named]

end EndsIn

theorem exists_endsIn {p : Path} {name : List Char} (h : p.fileName? = some name) :
    ∃ front idle, p.EndsIn front name idle := by
  obtain ⟨first, rest, hparts⟩ := List.exists_cons_of_ne_nil p.parts_ne_nil
  obtain ⟨idle, hrest, hidle⟩ := exists_trimIdle rest
  have hsolid : ∀ front part, p.parts = front ++ part :: idle → isIdle part = false →
      ∃ front idle, p.EndsIn front name idle := by
    intro front part hparts hpart
    rw [fileName?_of_parts hparts hidle hpart] at h
    split at h
    · cases h
    · rename_i hdots
      obtain rfl := Option.some.inj h
      exact ⟨front, idle, hparts, hidle, hpart, hdots⟩
  rcases List.eq_nil_or_concat (trimIdle rest) with hnil | ⟨l, part, hconcat⟩
  · rw [hnil, List.nil_append] at hrest
    subst hrest
    cases hfirst : isIdle first with
    | false => exact hsolid [] first hparts hfirst
    | true =>
      -- An idle first part is the root or the current directory, or no step at all.
      exfalso
      unfold isIdle at hfirst
      unfold fileName? steps firstStep? at h
      simp only [hparts, filter_idle hidle, List.map_nil, List.append_nil] at h
      cases hempty : first.isEmpty with
      | true =>
        simp only [hempty, if_true] at h
        cases hone : rest.isEmpty <;> simp [hone] at h
      | false =>
        simp only [hempty, Bool.false_or, decide_eq_true_eq] at hfirst
        simp [hfirst, stepOf, dot] at h
  · rw [List.concat_eq_append] at hconcat
    have hpart : isIdle part = false := trimIdle_getLast? rest (by simp [hconcat])
    refine hsolid (first :: l) part ?_ hpart
    rw [hparts, hrest, hconcat]
    simp

/-! ## Cleaned paths -/

/-- The parts of a directory's path without the idle ones after the first. -/
def trimFront : List (List Char) → List (List Char)
  | [] => []
  | first :: rest => first :: trimIdle rest

theorem trimIdle_append_idle {idle : List (List Char)} (h : ∀ part ∈ idle, isIdle part = true)
    (l : List (List Char)) : trimIdle (l ++ idle) = trimIdle l := by
  unfold trimIdle
  rw [List.reverse_append, List.dropWhile_append_of_pos]
  exact fun part hpart => h part (List.mem_reverse.1 hpart)

theorem EndsIn.parent?_eq {p : Path} {front idle : List (List Char)} {name : List Char}
    (h : p.EndsIn front name idle) :
    p.parent? = some
      (if trimFront front = [[]] then ⟨"/"⟩
        else ⟨String.ofList (Text.join '/' (trimFront front))⟩) := by
  unfold parent?
  rw [h.parts]
  cases front with
  | nil =>
    have hbelow : trimIdle idle = [] := trimIdle_append_idle h.idle []
    simp [hbelow, isEmpty_of_isIdle h.solid, trimFront, Text.join]
  | cons first rest =>
    have hbelow : trimIdle (rest ++ name :: idle) = rest ++ [name] := by
      have hidle := trimIdle_append_idle h.idle (rest ++ [name])
      rw [trimIdle_concat rest h.solid] at hidle
      simpa using hidle
    simp only [List.cons_append, hbelow, trimFront, List.dropLast_concat]
    by_cases htop : trimIdle rest = [] ∧ first = []
    · simp [htop]
    · simp [htop]
      exact fun hfirst hrest => absurd ⟨hrest, hfirst⟩ htop

theorem mem_of_mem_trimFront {front : List (List Char)} {part : List Char}
    (h : part ∈ trimFront front) : part ∈ front := by
  cases front with
  | nil => exact h
  | cons first rest =>
    obtain ⟨idle, hrest, -⟩ := exists_trimIdle rest
    rcases List.mem_cons.1 h with rfl | h
    · exact List.mem_cons_self
    · rw [hrest]
      exact List.mem_cons_of_mem _ (List.mem_append_left _ h)

theorem exists_getLast?_join {first : List Char} {rest : List (List Char)}
    (hslash : ∀ part ∈ first :: rest, '/' ∉ part) (hroot : trimFront (first :: rest) ≠ [[]]) :
    ∃ c, (Text.join '/' (trimFront (first :: rest))).getLast? = some c ∧ c ≠ '/' := by
  have hlast : ∃ l part, trimFront (first :: rest) = l ++ [part] ∧ part ≠ [] ∧ '/' ∉ part := by
    -- When all parts after the first are idle, the first is the last one left.
    rcases List.eq_nil_or_concat (trimIdle rest) with hnil | ⟨l, part, hconcat⟩
    · refine ⟨[], first, ?_, ?_, hslash first List.mem_cons_self⟩
      · simp [trimFront, hnil]
      · rintro rfl
        exact hroot (by simp [trimFront, hnil])
    · obtain ⟨idle, hrest, -⟩ := exists_trimIdle rest
      have hidle : isIdle part = false := trimIdle_getLast? rest (by simp [hconcat])
      refine ⟨first :: l, part, ?_, ?_, hslash part ?_⟩
      · simp [trimFront, hconcat]
      · rintro rfl
        simp [isIdle] at hidle
      · rw [hrest, hconcat]
        simp
  obtain ⟨l, part, heq, hne, hpart⟩ := hlast
  rw [heq, Text.getLast?_join hne]
  refine ⟨part.getLast hne, List.getLast?_eq_some_getLast hne, ?_⟩
  intro hslash
  exact hpart (hslash ▸ List.getLast_mem hne)

theorem text_child {front : List (List Char)} (hslash : ∀ part ∈ front, '/' ∉ part)
    (name : List Char) :
    ((if trimFront front = [[]] then (⟨"/"⟩ : Path)
      else ⟨String.ofList (Text.join '/' (trimFront front))⟩).child name).text.toList =
      Text.join '/' (trimFront front ++ [name]) := by
  by_cases hroot : trimFront front = [[]]
  · rw [if_pos hroot, hroot]
    simp [child, Text.join]
  · rw [if_neg hroot]
    cases front with
    | nil => simp [child, trimFront, Text.join]
    | cons first rest =>
      obtain ⟨c, hlast, hc⟩ := exists_getLast?_join hslash hroot
      have hne : Text.join '/' (trimFront (first :: rest)) ≠ [] := by
        intro hnil
        simp [hnil] at hlast
      rw [Text.join_concat (by simp [trimFront])]
      simp [child, hlast, hne, hc]

theorem cleaned_of_fileName? {p : Path} {name : List Char} (h : p.fileName? = some name) :
    p.cleaned = (p.parent?.getD ⟨"."⟩).child (cleanedName name) := by
  unfold cleaned cleanedName stem? extension?
  rw [h]
  rfl

theorem underscore_mem_cleanedName (name : List Char) : '_' ∈ cleanedName name := by
  simp [cleanedName]

theorem isIdle_cleanedName (name : List Char) : isIdle (cleanedName name) = false := by
  have hmem := underscore_mem_cleanedName name
  unfold isIdle
  rw [Bool.or_eq_false_iff]
  constructor
  · cases hname : cleanedName name with
    | nil => simp [hname] at hmem
    | cons c s => rfl
  · rw [decide_eq_false_iff_not]
    intro heq
    simp [heq, dot] at hmem

theorem cleanedName_ne_dots (name : List Char) : cleanedName name ≠ dots := by
  have hmem := underscore_mem_cleanedName name
  intro heq
  simp [heq, dots] at hmem

theorem EndsIn.cleaned {p : Path} {front idle : List (List Char)} {name stem ext : List Char}
    (h : p.EndsIn front name idle) (hsplit : splitName name = (stem, some ext)) :
    p.cleaned.EndsIn (trimFront front) (cleanedName name) [] := by
  have hslash : ∀ part ∈ front ++ name :: idle, '/' ∉ part :=
    fun part hpart => slash_not_mem_of_mem_parts (h.parts ▸ hpart)
  have hfront : ∀ part ∈ front, '/' ∉ part :=
    fun part hpart => hslash part (List.mem_append_left _ hpart)
  have hcleaned := slash_not_mem_cleanedName hsplit (hslash name (by simp))
  have hall : ∀ part ∈ trimFront front ++ [cleanedName name], '/' ∉ part := by
    intro part hpart
    rcases List.mem_append.1 hpart with hpart | hpart
    · exact hfront part (mem_of_mem_trimFront hpart)
    · rw [List.mem_singleton.1 hpart]
      exact hcleaned
  refine ⟨?_, by simp, isIdle_cleanedName name, cleanedName_ne_dots name⟩
  unfold Path.parts
  rw [cleaned_of_fileName? h.fileName?_eq, h.parent?_eq, Option.getD_some, text_child hfront,
    Text.pieces_join (by simp) hall]

theorem extension?_of_fileName? {p : Path} {name : List Char} (h : p.fileName? = some name) :
    p.extension? = (splitName name).2 := by
  rw [extension?, h]
  rfl

theorem extension?_cleaned {p : Path} (h : p.extension?.isSome) :
    p.cleaned.extension? = p.extension? := by
  obtain ⟨ext, hext⟩ := Option.isSome_iff_exists.1 h
  obtain ⟨name, hname, hsome⟩ := Option.bind_eq_some_iff.1 hext
  obtain ⟨front, idle, hends⟩ := exists_endsIn hname
  have hsplit : splitName name = ((splitName name).1, some ext) := Prod.ext rfl hsome
  rw [extension?_of_fileName? (hends.cleaned hsplit).fileName?_eq, extension?_of_fileName? hname,
    splitName_cleanedName hsplit, hsplit]

theorem formatName_cleaned {p : Path} (h : p.extension?.isSome) :
    p.cleaned.formatName = p.formatName := by
  rw [formatName, extension?_cleaned h, formatName]

end Path

end TableCleaner
