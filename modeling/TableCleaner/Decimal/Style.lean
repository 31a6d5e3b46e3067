import TableCleaner.Decimal.Shortest

/-!
# Written numbers

How the shortest decimal of a number is laid out: when an exponent is written, whether a whole
number keeps its point, and whether a positive exponent has a sign.
-/

namespace TableCleaner.Decimal

/-- The choices of a number format. -/
structure Style where
  /-- The exponents of the leading digit that are written without an exponent; all when `none`. -/
  plain : Option (Int × Int)
  /-- A whole number ends in `.0`. -/
  wholePoint : Bool
  /-- A positive exponent has a sign. -/
  plusSign : Bool
  /-- Which of two equally near decimals is written. -/
  tie : Tie

/-- Digits with the point in front of the last `-e` of them, or followed by `e` zeros. -/
def positional (wholePoint : Bool) (ds : List Char) (e : Int) : List Char :=
  let point := (ds.length : Int) + e
  if 0 ≤ e then ds ++ List.replicate e.toNat '0' ++ (if wholePoint then ['.', '0'] else [])
  else if 0 < point then ds.take point.toNat ++ '.' :: ds.drop point.toNat
  else '0' :: '.' :: List.replicate (-point).toNat '0' ++ ds

/-- One digit, the point and the other digits, and the exponent of the first digit. -/
def scientific (plusSign : Bool) (ds : List Char) (lead : Int) : List Char :=
  let mantissa := match ds with
    | [] => []
    | [d] => [d]
    | d :: r => d :: '.' :: r
  let sign := if lead < 0 then ['-'] else if plusSign then ['+'] else []
  mantissa ++ 'e' :: sign ++ Nat.toDigits 10 lead.natAbs

def Style.layout (style : Style) (d : Decimal) : List Char :=
  let ds := Nat.toDigits 10 d.digits
  let lead := (ds.length : Int) - 1 + d.exponent
  let isPlain := match style.plain with
    | none => true
    | some (low, high) => decide (low ≤ lead ∧ lead ≤ high)
  if isPlain then positional style.wholePoint ds d.exponent
  else scientific style.plusSign ds lead

/-- The text of a floating-point number. -/
def Style.chars (style : Style) (x : Float) : List Char :=
  if x.isNaN then ['N', 'a', 'N'] else
  let bits := Binary.magnitudeBits x
  let text :=
    if bits = Binary.infinityBits then ['i', 'n', 'f']
    else if bits = 0 then style.layout ⟨0, 0⟩
    else style.layout (shortest style.tie (Binary.ofBits bits))
  if Binary.isNegative x then '-' :: text else text

def Style.write (style : Style) (x : Float) : String := String.ofList (style.chars x)

/-- Digits only: no exponent and no point on whole numbers; of two nearest decimals the greater. -/
def plainStyle : Style := ⟨none, false, false, .up⟩

/-- A number in a JSON text: plain from `0.00001` up to sixteen digits, and with a signed exponent
beyond. -/
def jsonStyle : Style := ⟨some (-5, 15), true, true, .toEven⟩

/-- A number in a file of comma separated values: as in JSON, but for the sign of the exponent. -/
def csvStyle : Style := ⟨some (-5, 15), true, false, .toEven⟩

end TableCleaner.Decimal
