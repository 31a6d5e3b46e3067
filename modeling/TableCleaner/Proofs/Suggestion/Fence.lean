import TableCleaner.Proofs.Text.Trim
import TableCleaner.Suggestion.Fence

/-!
# Where fences stand

The first fence of a text begins where three marks first stand in a row. Marks right before a fence
move it forward, so what stands after it may begin with the last marks of the fence.
-/

namespace TableCleaner.Fence

/-- A fence as a text. -/
def fence : List Char := [mark, mark, mark]

/-- No fence stands anywhere in the text. -/
def Free (s : List Char) : Prop := ¬ fence <:+: s

instance (s : List Char) : Decidable (Free s) := inferInstanceAs (Decidable (¬ _))

variable {s p q tag inner : List Char} {c : Char}

/-! ## Texts without a fence -/

theorem Free.of_infix {s' : List Char} (h : Free s) (hs : s' <:+: s) : Free s' :=
  fun hf => h (hf.trans hs)

theorem prefix_append_cons (hc : c ≠ mark) (h : fence <+: s ++ c :: q) : fence <+: s := by
  match s with
  | [] => simp [fence, Ne.symm hc] at h
  | [_] => simp [fence, Ne.symm hc] at h
  | [_, _] => simp [fence, Ne.symm hc] at h
  | _ :: _ :: _ :: s => simpa [fence] using h

theorem free_append_cons (hc : c ≠ mark) : Free (s ++ c :: q) ↔ Free s ∧ Free q := by
  constructor
  · intro h
    exact ⟨h.of_infix (List.infix_append' [] s _), h.of_infix ⟨s ++ [c], [], by simp⟩⟩
  · rintro ⟨hs, hq⟩
    induction s with
    | nil =>
      intro hf
      rcases List.infix_cons_iff.mp hf with hf | hf
      · exact hs (prefix_append_cons (s := []) hc hf).isInfix
      · exact hq hf
    | cons d s ih =>
      intro hf
      rcases List.infix_cons_iff.mp hf with hf | hf
      · exact hs (prefix_append_cons (s := d :: s) hc hf).isInfix
      · exact ih (hs.of_infix (List.suffix_cons d s).isInfix) hf

theorem free_cons (hc : c ≠ mark) : Free (c :: q) ↔ Free q := by
  have h := free_append_cons (s := []) (q := q) hc
  simpa [Free, fence] using h

/-- No mark stands in the text. -/
def Unmarked (s : List Char) : Prop := ∀ c ∈ s, c ≠ mark

instance (s : List Char) : Decidable (Unmarked s) := List.decidableBAll (· ≠ mark) s

theorem Unmarked.free (h : Unmarked s) : Free s := by
  intro hf
  exact h mark (hf.subset List.mem_cons_self) rfl

theorem Unmarked.free_append_iff (hq : Unmarked q) : Free (s ++ q) ↔ Free s := by
  cases q with
  | nil => simp
  | cons c q =>
    rw [free_append_cons (hq c List.mem_cons_self)]
    have hfree : Free q := Unmarked.free fun d hd => hq d (List.mem_cons_of_mem c hd)
    simp [hfree]

theorem Unmarked.append_free_iff (hp : Unmarked p) : Free (p ++ s) ↔ Free s := by
  induction p with
  | nil => rfl
  | cons c p ih =>
    rw [List.cons_append, free_cons (hp c List.mem_cons_self)]
    exact ih fun d hd => hp d (List.mem_cons_of_mem c hd)

/-! ## The first fence -/

theorem cut?_eq_none (h : Free s) : cut? s = none := by
  fun_induction cut? s with
  | case1 => rfl
  | case2 a b c after hmarks =>
    simp only [Bool.and_eq_true, decide_eq_true_eq] at hmarks
    obtain ⟨⟨rfl, rfl⟩, rfl⟩ := hmarks
    exact absurd ⟨[], after, rfl⟩ h
  | case3 a b c after hmarks ih =>
    rw [ih (h.of_infix (List.suffix_cons a _).isInfix)]
    rfl
  | case4 => rfl

theorem cut?_cons_cons_cons (a b c : Char) (s : List Char) :
    cut? (a :: b :: c :: s) =
      if a = mark ∧ b = mark ∧ c = mark then some ([], s)
      else (cut? (b :: c :: s)).map fun p => (a :: p.1, p.2) := by
  rw [cut?]
  simp [and_assoc]

theorem cut?_append_fence (hp : Free p) (rest : List Char) :
    ∃ before marks, p = before ++ marks ∧ (∀ c ∈ marks, c = mark) ∧
      cut? (p ++ fence ++ rest) = some (before, marks ++ rest) := by
  induction p with
  | nil => exact ⟨[], [], rfl, by simp, rfl⟩
  | cons a p ih =>
    -- Unless the marks before the fence reach back to `a`, the search goes on after it.
    have hlater : (¬ (a = mark ∧ ∀ c ∈ p.take 2, c = mark)) →
        ∃ before marks, a :: p = before ++ marks ∧ (∀ c ∈ marks, c = mark) ∧
          cut? (a :: p ++ fence ++ rest) = some (before, marks ++ rest) := by
      intro hno
      obtain ⟨before, marks, hpe, hmarks, hcut⟩ := ih (hp.of_infix (List.suffix_cons a p).isInfix)
      refine ⟨a :: before, marks, by rw [hpe, List.cons_append], hmarks, ?_⟩
      match p with
      | [] =>
        simp only [List.take_nil, List.not_mem_nil, false_implies, implies_true, and_true] at hno
        have := cut?_cons_cons_cons a mark mark (mark :: rest)
        simp only [fence, List.nil_append, List.cons_append] at hcut ⊢
        rw [this, if_neg (fun h => hno h.1), hcut]
        rfl
      | [x] =>
        have := cut?_cons_cons_cons a x mark (mark :: mark :: rest)
        simp only [fence, List.nil_append, List.cons_append] at hcut ⊢
        rw [this, if_neg (fun h => hno (by simp [h.1, h.2.1])), hcut]
        rfl
      | x :: y :: p =>
        have := cut?_cons_cons_cons a x y (p ++ fence ++ rest)
        simp only [List.cons_append] at hcut ⊢
        rw [this, if_neg (fun h => hno (by simp [h.1, h.2.1, h.2.2])), hcut]
        rfl
    by_cases hmarks : a = mark ∧ ∀ c ∈ p.take 2, c = mark
    · obtain ⟨rfl, hmarks⟩ := hmarks
      match p with
      | [] => exact ⟨[], [mark], rfl, by simp, rfl⟩
      | [x] =>
        obtain rfl : x = mark := hmarks x (by simp)
        exact ⟨[], [mark, mark], rfl, by simp, rfl⟩
      | x :: y :: p =>
        obtain rfl : x = mark := hmarks x (by simp)
        obtain rfl : y = mark := hmarks y (by simp)
        exact absurd ⟨[], p, rfl⟩ hp
    · exact hlater hmarks

theorem cut?_append_cons_fence (hp : Free p) (hc : c ≠ mark) (rest : List Char) :
    cut? (p ++ c :: (fence ++ rest)) = some (p ++ [c], rest) := by
  have hfree : Free (p ++ [c]) := (free_append_cons hc).mpr ⟨hp, by decide⟩
  obtain ⟨before, marks, hpe, hmarks, hcut⟩ := cut?_append_fence hfree rest
  have hnil : marks = [] := by
    by_cases hnil : marks = []
    · exact hnil
    · have hlast := List.getLast_mem hnil
      have : (p ++ [c]).getLast (by simp) = marks.getLast hnil := by
        simp only [hpe]
        exact List.getLast_append_of_ne_nil _ hnil
      rw [List.getLast_concat] at this
      exact absurd (this.trans (hmarks _ hlast)) hc
  subst hnil
  rw [List.append_nil] at hpe
  rw [← hpe] at hcut
  simpa using hcut

/-! ## The fenced text -/

theorem afterLine_append (hs : '\n' ∉ s) (rest : List Char) : afterLine (s ++ '\n' :: rest) = rest := by
  unfold afterLine
  rw [List.dropWhile_append_of_pos]
  · simp
  · intro c hc
    have hne : c ≠ '\n' := by
      rintro rfl
      exact hs hc
    simpa using hne

theorem body_of_free (h : Free s) : body s = Text.trim s := by
  unfold body
  obtain ⟨p, q, -, -, hs⟩ := Text.exists_trim s
  have htrim : Free (Text.trim s) := h.of_infix ⟨p, q, hs.symm⟩
  simp only [cut?_eq_none htrim]

theorem isBlank_mark : Text.isBlank mark = false := by decide

theorem body_of_opening {rest : List Char} (hs : Text.trim s = p ++ fence ++ (tag ++ '\n' :: rest))
    (hp : Free p) (htag : '\n' ∉ tag) :
    body s = Text.trim (((cut? rest).map (·.1)).getD rest) := by
  obtain ⟨before, marks, -, hmarks, hcut⟩ := cut?_append_fence hp (tag ++ '\n' :: rest)
  have htag' : '\n' ∉ marks ++ tag := by
    rw [List.mem_append]
    rintro (hm | hm)
    · exact absurd (hmarks _ hm) (by decide)
    · exact htag hm
  have hafter := afterLine_append htag' rest
  rw [List.append_assoc] at hafter
  unfold body
  simp only [hs, hcut, hafter]
  cases cut? rest <;> rfl

theorem body_closed (hp : Free p) (htag : '\n' ∉ tag) (hinner : Free inner) (q : List Char) :
    body (p ++ fence ++ tag ++ '\n' :: inner ++ '\n' :: (fence ++ q)) = Text.trim inner := by
  have htrim : Text.trim (p ++ fence ++ tag ++ '\n' :: inner ++ '\n' :: (fence ++ q)) =
      Text.trimStart p ++ fence ++ (tag ++ '\n' :: (inner ++ '\n' :: (fence ++ Text.trimEnd q))) := by
    have h := Text.trim_between (m := [mark, mark] ++ tag ++ '\n' :: inner ++ ['\n', mark, mark])
      isBlank_mark isBlank_mark p q
    simpa [fence] using h
  have hfree : Free (Text.trimStart p) := hp.of_infix (Text.trimStart_suffix p).isInfix
  rw [body_of_opening htrim hfree htag, cut?_append_cons_fence hinner (by decide)]
  exact Text.trim_append_blank (by simp [show Text.isBlank '\n' = true by decide])

theorem body_open (hp : Free p) (htag : '\n' ∉ tag) (hinner : Free inner)
    (hne : Text.trim inner ≠ []) :
    body (p ++ fence ++ tag ++ '\n' :: inner) = Text.trim inner := by
  obtain ⟨x, c, y, rfl, hc, hy⟩ := Text.exists_last hne
  have hend : Text.trimEnd y = [] := by
    have h := Text.trimEnd_of_blank (s := []) hy
    rwa [List.nil_append] at h
  have htrim : Text.trim (p ++ fence ++ tag ++ '\n' :: (x ++ c :: y)) =
      Text.trimStart p ++ fence ++ (tag ++ '\n' :: (x ++ [c])) := by
    have h := Text.trim_between (m := [mark, mark] ++ tag ++ '\n' :: x) isBlank_mark hc p y
    simpa [fence, hend] using h
  have hfree : Free (Text.trimStart p) := hp.of_infix (Text.trimStart_suffix p).isInfix
  have hrest : Free (x ++ [c]) := hinner.of_infix ⟨[], y, by simp⟩
  rw [body_of_opening htrim hfree htag, cut?_eq_none hrest]
  have h := Text.trim_append_blank (s := x ++ [c]) hy
  simpa using h.symm

/-! ## The bracketed part -/

/-- Up to the blanks around it, the text begins and ends with a bracket. -/
def Bracketed (s : List Char) : Prop := ∃ inner, Text.trim s = '[' :: inner ++ [']']

theorem bracketed?_append (hp : '[' ∉ p) (hq : ']' ∉ q) (inner : List Char) :
    bracketed? (p ++ '[' :: inner ++ ']' :: q) = some ('[' :: inner ++ [']']) := by
  have hskip : ∀ {x : Char} {l : List Char} (rest : List Char), x ∉ l →
      (l ++ x :: rest).dropWhile (· ≠ x) = x :: rest := by
    intro x l rest hx
    rw [List.dropWhile_append_of_pos]
    · simp
    · intro c hc
      have hne : c ≠ x := by
        rintro rfl
        exact hx hc
      simpa using hne
  have hfirst := hskip (inner ++ ']' :: q) hp
  have hlast := hskip (x := ']') (l := q.reverse) (inner.reverse ++ ['[']) (by simpa using hq)
  unfold bracketed?
  simp only [List.append_assoc, List.cons_append] at hfirst ⊢
  rw [hfirst]
  simp only [List.reverse_cons, List.reverse_append, List.append_assoc, List.cons_append,
    List.nil_append] at hlast ⊢
  rw [hlast]
  simp

end TableCleaner.Fence
