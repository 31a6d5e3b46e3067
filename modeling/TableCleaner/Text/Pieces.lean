/-!
# Pieces of a text

A mark cuts a text into pieces, one more than there are marks. The pieces with the mark between them
are the text again.
-/

namespace TableCleaner.Text

/-- The pieces of a text between the marks. -/
def pieces (mark : Char) : List Char → List (List Char)
  | [] => [[]]
  | c :: s =>
    if c = mark then [] :: pieces mark s
    else
      match pieces mark s with
      | [] => [[c]]
      | first :: rest => (c :: first) :: rest

/-- The pieces with the mark between them. -/
def join (mark : Char) : List (List Char) → List Char
  | [] => []
  | [p] => p
  | p :: rest => p ++ mark :: join mark rest

theorem pieces_ne_nil (mark : Char) (s : List Char) : pieces mark s ≠ [] := by
  cases s with
  | nil => simp [pieces]
  | cons c s => simp only [pieces]; split <;> (try split) <;> simp

theorem join_cons_cons {mark c : Char} {p : List Char} {rest : List (List Char)} :
    join mark ((c :: p) :: rest) = c :: join mark (p :: rest) := by
  cases rest <;> simp [join]

theorem join_nil_cons {mark : Char} {rest : List (List Char)} (h : rest ≠ []) :
    join mark ([] :: rest) = mark :: join mark rest := by
  cases rest with
  | nil => exact absurd rfl h
  | cons p rest => simp [join]

theorem join_pieces (mark : Char) (s : List Char) : join mark (pieces mark s) = s := by
  induction s with
  | nil => rfl
  | cons c s ih =>
    simp only [pieces]
    split
    · rename_i h
      rw [join_nil_cons (pieces_ne_nil mark s), ih, h]
    · split
      · rename_i h
        exact absurd h (pieces_ne_nil mark s)
      · rename_i h
        rw [join_cons_cons, ← h, ih]

end TableCleaner.Text
