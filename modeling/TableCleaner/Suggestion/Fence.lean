import TableCleaner.Text.Blank

/-!
# Fenced text

A fence is a run of three backticks. A fenced text stands between two fences, the first followed by
a line with a tag; what stands before and after is left out.
-/

namespace TableCleaner.Fence

def mark : Char := '\x60'

/-- What stands before the first fence and what stands after it. -/
def cut? : List Char → Option (List Char × List Char)
  | [] => none
  | a :: rest =>
    match rest with
    | b :: c :: after =>
      if a = mark && b = mark && c = mark then some ([], after)
      else (cut? rest).map fun p => (a :: p.1, p.2)
    | _ => none

/-- What follows the first line. A text of one line stays whole. -/
def afterLine (s : List Char) : List Char :=
  match s.dropWhile (· ≠ '\n') with
  | [] => s
  | _ :: rest => rest

/-- The fenced text without blanks around it; the whole text when there is no fence. -/
def body (s : List Char) : List Char :=
  let s := Text.trim s
  match cut? s with
  | none => s
  | some (_, rest) =>
    let inner := afterLine rest
    match cut? inner with
    | some (inside, _) => Text.trim inside
    | none => Text.trim inner

/-- From the first opening bracket to the last closing one. -/
def bracketed? (s : List Char) : Option (List Char) :=
  let fromFirst := s.dropWhile (· ≠ '[')
  let span := (fromFirst.reverse.dropWhile (· ≠ ']')).reverse
  if span.isEmpty then none else some span

end TableCleaner.Fence
