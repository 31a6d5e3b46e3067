/-!
# Binary numbers

The exact value behind the bits of a floating-point number. A finite magnitude is
`mantissa * 2 ^ scale`; the reals that round to it form an interval around it, whose ends belong
to it exactly when the mantissa is even.
-/

namespace TableCleaner

/-- The number `digits * 10 ^ exponent`. -/
structure Decimal where
  digits : Nat
  exponent : Int
deriving DecidableEq, Repr

/-- The finite magnitude `mantissa * 2 ^ scale`. -/
structure Binary where
  mantissa : Nat
  scale : Int
  /-- The gap to the magnitude below is half the gap to the one above. -/
  narrowBelow : Bool
deriving DecidableEq, Repr

namespace Binary

/-- The sign of a number, and the value of all bits below. -/
def signBit : Nat := 0x8000000000000000

/-- The leading bit of a mantissa, which is not stored, and the value of all bits that are. -/
def leadingBit : Nat := 0x10000000000000

def isNegative (x : Float) : Bool := signBit ≤ x.toBits.toNat

/-- The bits without the sign bit. They grow with the magnitude. -/
def magnitudeBits (x : Float) : Nat := x.toBits.toNat % signBit

/-- The magnitude bits of infinity, one above those of the greatest finite number. -/
def infinityBits : Nat := 0x7FF * leadingBit

/-- The number with a given sign and given magnitude bits. -/
def ofMagnitude (negative : Bool) (bits : Nat) : Float :=
  Float.ofBits (UInt64.ofNat (if negative then signBit + bits else bits))

/-- The value of finite magnitude bits. -/
def ofBits (bits : Nat) : Binary :=
  let e : Nat := bits / leadingBit
  let f : Nat := bits % leadingBit
  if e = 0 then ⟨f, -1074, false⟩ else ⟨leadingBit + f, (e : Int) - 1075, f == 0 && e != 1⟩

/-- Compares `a * 10 ^ i` with `b * 2 ^ j`, exactly. -/
def compareScaled (a : Nat) (i : Int) (b : Nat) (j : Int) : Ordering :=
  compare (a * Nat.pow 10 i.toNat * Nat.pow 2 (-j).toNat)
    (b * Nat.pow 2 j.toNat * Nat.pow 10 (-i).toNat)

/-- The decimal is one of the reals that round to `x`. -/
def readsBack (x : Binary) (d : Decimal) : Bool :=
  let low := if x.narrowBelow then 4 * x.mantissa - 1 else 4 * x.mantissa - 2
  let high := 4 * x.mantissa + 2
  let closed := x.mantissa % 2 == 0
  let below := compareScaled d.digits d.exponent low (x.scale - 2)
  let above := compareScaled d.digits d.exponent high (x.scale - 2)
  (below == .gt || (closed && below == .eq)) && (above == .lt || (closed && above == .eq))

end Binary

end TableCleaner
