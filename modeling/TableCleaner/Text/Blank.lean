/-!
# Blank characters

A blank is a character with the property White_Space. Readers skip blanks before they look at a
text, so trimming takes them from both ends.
-/

namespace TableCleaner.Text

/-- The White_Space characters. -/
def isBlank (c : Char) : Bool :=
  let n := c.toNat
  (9 ≤ n && n ≤ 13) || n == 0x20 || n == 0x85 || n == 0xA0 || n == 0x1680 ||
    (0x2000 ≤ n && n ≤ 0x200A) || n == 0x2028 || n == 0x2029 || n == 0x202F || n == 0x205F ||
    n == 0x3000

def trimStart (s : List Char) : List Char := s.dropWhile isBlank

def trimEnd (s : List Char) : List Char := (s.reverse.dropWhile isBlank).reverse

/-- Without the blanks at both ends. -/
def trim (s : List Char) : List Char := trimEnd (trimStart s)

end TableCleaner.Text
