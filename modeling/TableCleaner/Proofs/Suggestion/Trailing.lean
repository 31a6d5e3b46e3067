import TableCleaner.Proofs.Suggestion.Fence

/-!
# Text after a closing fence

The line of the tag is looked for in all that follows the opening fence. So what follows the closing
fence is dropped when the fenced text has a line break of its own; a fenced text on one line is lost
itself as soon as a line break follows it, and the trailing text is taken in its place.
-/

namespace TableCleaner.Fence

variable {s t p q inner : List Char}

/-! ## Cuts in front of more text -/

theorem cut?_append {a b : List Char} (h : cut? s = some (a, b)) (t : List Char) :
    cut? (s ++ t) = some (a, b ++ t) := by
  induction s generalizing a with
  | nil => simp [cut?] at h
  | cons c s ih =>
    rcases s with _ | ⟨d, _ | ⟨e, s⟩⟩
    · simp [cut?] at h
    · simp [cut?] at h
    · simp only [List.cons_append, cut?_cons_cons_cons] at h ih ⊢
      split
      · rename_i hmarks
        rw [if_pos hmarks, Option.some.injEq, Prod.mk.injEq] at h
        rw [← h.1, ← h.2]
      · rename_i hmarks
        rw [if_neg hmarks] at h
        obtain ⟨⟨x, y⟩, hcut, hxy⟩ := Option.map_eq_some_iff.mp h
        obtain ⟨rfl, rfl⟩ := Prod.mk.inj hxy
        rw [ih hcut]
        rfl

theorem cut?_eq_none_iff : cut? s = none ↔ Free s := by
  refine ⟨fun h => ?_, cut?_eq_none⟩
  induction s with
  | nil => decide
  | cons c s ih =>
    rcases s with _ | ⟨d, _ | ⟨e, s⟩⟩
    · exact fun hf => by simpa [fence] using hf.length_le
    · exact fun hf => by simpa [fence] using hf.length_le
    · rw [cut?_cons_cons_cons] at h
      split at h
      · cases h
      · rename_i hmarks
        have hrest := ih (Option.map_eq_none_iff.mp h)
        intro hf
        rcases List.infix_cons_iff.mp hf with hf | hf
        · simp only [fence, List.cons_prefix_cons, List.nil_prefix, and_true] at hf
          exact hmarks ⟨hf.1.symm, hf.2.1.symm, hf.2.2.symm⟩
        · exact hrest hf

theorem exists_cut?_append_fence (s : List Char) : ∃ a b, cut? (s ++ fence) = some (a, b) := by
  cases h : cut? (s ++ fence) with
  | none => exact absurd (List.suffix_append s fence).isInfix (cut?_eq_none_iff.mp h)
  | some c => exact ⟨c.1, c.2, rfl⟩

/-! ## The line of the tag -/

theorem afterLine_of_not_mem (h : '\n' ∉ s) : afterLine s = s := by
  have hnil : (s ++ []).dropWhile (· ≠ '\n') = [].dropWhile (· ≠ '\n') := by
    apply List.dropWhile_append_of_pos
    intro c hc
    have hne : c ≠ '\n' := fun heq => h (heq ▸ hc)
    simpa using hne
  rw [List.append_nil, List.dropWhile_nil] at hnil
  unfold afterLine
  simp only [hnil]

theorem exists_body_eq (hp : Free p) (inner : List Char) :
    ∃ marks : List Char, (∀ c ∈ marks, c = mark) ∧ ∀ q,
      body (p ++ fence ++ inner ++ fence ++ q) =
        let rest := afterLine (marks ++ inner ++ (fence ++ Text.trimEnd q))
        Text.trim (((cut? rest).map (·.1)).getD rest) := by
  have hfree : Free (Text.trimStart p) := hp.of_infix (Text.trimStart_suffix p).isInfix
  obtain ⟨before, marks, -, hmarks, hcut⟩ := cut?_append_fence hfree []
  rw [List.append_nil, List.append_nil] at hcut
  refine ⟨marks, hmarks, fun q => ?_⟩
  have htrim : Text.trim (p ++ fence ++ inner ++ fence ++ q) =
      Text.trimStart p ++ fence ++ (inner ++ (fence ++ Text.trimEnd q)) := by
    have h := Text.trim_between (m := [mark, mark] ++ inner ++ [mark, mark]) isBlank_mark
      isBlank_mark p q
    simpa [fence] using h
  have hopen := cut?_append hcut (inner ++ (fence ++ Text.trimEnd q))
  rw [← List.append_assoc marks] at hopen
  unfold body
  simp only [htrim, hopen]
  cases cut? (afterLine (marks ++ inner ++ (fence ++ Text.trimEnd q))) <;> rfl

theorem body_append_of_mem (hp : Free p) (h : '\n' ∈ inner) (q q' : List Char) :
    body (p ++ fence ++ inner ++ fence ++ q) = body (p ++ fence ++ inner ++ fence ++ q') := by
  obtain ⟨tag, rest, rfl, htag⟩ := List.eq_append_cons_of_mem h
  obtain ⟨marks, hmarks, hbody⟩ := exists_body_eq hp (tag ++ '\n' :: rest)
  obtain ⟨before, after, hcut⟩ := exists_cut?_append_fence rest
  have htag' : '\n' ∉ marks ++ tag := by
    rw [List.mem_append]
    rintro (hm | hm)
    · exact absurd (hmarks _ hm) (by decide)
    · exact htag hm
  have hafter : ∀ q, afterLine (marks ++ (tag ++ '\n' :: rest) ++ (fence ++ Text.trimEnd q)) =
      rest ++ fence ++ Text.trimEnd q := by
    intro q
    have h := afterLine_append htag' (rest ++ fence ++ Text.trimEnd q)
    simpa using h
  simp only [hbody, hafter, cut?_append hcut, Option.map_some, Option.getD_some]

theorem body_append_of_not_mem (hp : Free p) (hinner : '\n' ∉ inner)
    (hq : '\n' ∉ Text.trimEnd q) :
    body (p ++ fence ++ inner ++ fence ++ q) = body (p ++ fence ++ inner ++ fence) := by
  obtain ⟨marks, hmarks, hbody⟩ := exists_body_eq hp inner
  obtain ⟨before, after, hcut⟩ := exists_cut?_append_fence (marks ++ inner)
  have hafter : ∀ t, '\n' ∉ t →
      afterLine (marks ++ inner ++ (fence ++ t)) = marks ++ inner ++ fence ++ t := by
    intro t ht
    have hmark : '\n' ∉ marks := fun hm => absurd (hmarks _ hm) (by decide)
    have hfence : '\n' ∉ fence := by decide
    rw [← List.append_assoc]
    apply afterLine_of_not_mem
    simp only [List.mem_append, not_or]
    exact ⟨⟨⟨hmark, hinner⟩, hfence⟩, ht⟩
  have hnil := hbody []
  rw [List.append_nil] at hnil
  simp only [hbody q, hnil, hafter _ hq, hafter (Text.trimEnd []) (by decide), cut?_append hcut,
    Option.map_some, Option.getD_some]

theorem body_append_line (hp : Free p) (hinner : '\n' ∉ inner) {line rest : List Char}
    (hline : '\n' ∉ line) (hrest : Text.trim rest ≠ []) :
    body (p ++ fence ++ inner ++ fence ++ (line ++ '\n' :: rest)) =
      body (fence ++ '\n' :: rest) := by
  obtain ⟨marks, hmarks, hbody⟩ := exists_body_eq hp inner
  obtain ⟨x, c, y, rfl, hc, hy⟩ := Text.exists_last hrest
  have hend : Text.trimEnd y = [] := by
    have h := Text.trimEnd_of_blank (s := []) hy
    rwa [List.nil_append] at h
  have htail : Text.trimEnd (line ++ '\n' :: (x ++ c :: y)) = line ++ '\n' :: (x ++ [c]) := by
    have h := Text.trimEnd_append_cons hc (line ++ '\n' :: x) y
    simpa [hend] using h
  have htag : '\n' ∉ marks ++ inner ++ fence ++ line := by
    have hmark : '\n' ∉ marks := fun hm => absurd (hmarks _ hm) (by decide)
    have hfence : '\n' ∉ fence := by decide
    simp only [List.mem_append, not_or]
    exact ⟨⟨⟨hmark, hinner⟩, hfence⟩, hline⟩
  have hafter := afterLine_append htag (x ++ [c])
  have htrim : Text.trim (fence ++ '\n' :: (x ++ c :: y)) =
      [] ++ fence ++ ([] ++ '\n' :: (x ++ [c])) := by
    have h := Text.trim_between (m := [mark, mark] ++ '\n' :: x) isBlank_mark hc [] y
    simpa [fence, hend, Text.trimStart] using h
  simp only [List.append_assoc] at hafter
  rw [hbody, body_of_opening htrim (by decide) (by simp), htail, List.append_assoc, hafter]

/-- **Text after a closing fence.** It is dropped, whatever it is, exactly when the fenced text has a
line break. A fenced text on one line is kept in front of a text without line breaks; in front of
any other text, up to blanks, it is dropped itself, and what follows the line of the closing fence
counts as the fenced text. -/
theorem body_append_iff (hp : Free p) (inner : List Char) :
    ((∀ q q', body (p ++ fence ++ inner ++ fence ++ q) =
        body (p ++ fence ++ inner ++ fence ++ q')) ↔ '\n' ∈ inner) ∧
    ('\n' ∉ inner →
      (∀ q, '\n' ∉ Text.trimEnd q →
        body (p ++ fence ++ inner ++ fence ++ q) = body (p ++ fence ++ inner ++ fence)) ∧
      ∀ line rest, '\n' ∉ line → Text.trim rest ≠ [] →
        body (p ++ fence ++ inner ++ fence ++ (line ++ '\n' :: rest)) =
          body (fence ++ '\n' :: rest)) := by
  refine ⟨⟨fun h => ?_, fun h => body_append_of_mem hp h⟩, fun hline => ⟨?_, ?_⟩⟩
  · -- Of a text on one line, two trailing texts of two lines are told apart.
    refine Decidable.byContradiction fun hnot => ?_
    have hempty : '\n' ∉ [] := List.not_mem_nil
    have hx := body_append_line hp hnot hempty (show Text.trim ['x'] ≠ [] by decide)
    have hy := body_append_line hp hnot hempty (show Text.trim ['y'] ≠ [] by decide)
    rw [h _ ([] ++ ['\n', 'y']), hy] at hx
    exact absurd hx (by decide)
  · exact fun q hq => body_append_of_not_mem hp hline hq
  · exact fun line rest hl hrest => body_append_line hp hline hl hrest

theorem body_append_iff_marks :
    Free "So:``".toList ∧
      (∀ q, body ("So:``".toList ++ fence ++ "json\n[1]`".toList ++ fence ++ q) = "[1]".toList) ∧
      body ("So:``".toList ++ fence ++ "[1]".toList ++ fence ++ " Done.\n".toList) =
        "``[1]".toList := by
  have hp : Free "So:``".toList := by decide
  obtain ⟨hlines, -⟩ := body_append_iff hp "json\n[1]`".toList
  obtain ⟨-, hline⟩ := body_append_iff hp "[1]".toList
  refine ⟨hp, fun q => ?_, ?_⟩
  · rw [hlines.mpr (by decide) q "\n```".toList]
    decide +kernel
  · rw [(hline (by decide)).1 " Done.\n".toList (by decide)]
    decide +kernel

/-- A fenced text on one line is lost to what stands on the line after it. -/
theorem body_of_fenced_line :
    Free "[1]".toList ∧
      body ([] ++ fence ++ "[1]".toList ++ fence ++ []) = "[1]".toList ∧
      body ([] ++ fence ++ "[1]".toList ++ fence ++ "\nDone.".toList) = "Done.".toList := by
  decide +kernel

end TableCleaner.Fence
