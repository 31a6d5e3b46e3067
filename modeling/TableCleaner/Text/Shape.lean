import TableCleaner.Decimal.Reading

/-!
# Shapes of texts

A shape takes characters off the front of a text in every way that it allows. A text has the shape
if one of these ways takes all of it.
-/

namespace TableCleaner.Text

/-- The rests that are left when a shape is taken off a text. -/
abbrev Shape := List Char → List (List Char)

namespace Shape

/-- One character of a list. -/
def oneOf (cs : List Char) : Shape
  | c :: s => if cs.contains c then [s] else []
  | [] => []

/-- At least `least` digits, and at most `more` after them. -/
def digits : (least more : Nat) → Shape
  | n + 1, more, c :: s => if Decimal.isDigit c then digits n more s else []
  | _ + 1, _, [] => []
  | 0, m + 1, c :: s => (c :: s) :: if Decimal.isDigit c then digits 0 m s else []
  | 0, _, s => [s]

/-- The shape or nothing. -/
def maybe (p : Shape) : Shape := fun s => s :: p s

/-- Some shapes one after another. -/
def sequence : List Shape → Shape
  | [] => fun s => [s]
  | p :: rest => fun s => (p s).flatMap (sequence rest)

def either (p q : Shape) : Shape := fun s => p s ++ q s

/-- The whole text has the shape. -/
def fits (p : Shape) (s : List Char) : Bool := (p s).any List.isEmpty

end Shape

end TableCleaner.Text
