import TableCleaner.Decimal.Binary

/-!
# Nearest binary numbers

A decimal is read as the binary number nearest to it, a tie going to the even mantissa. Above the
greatest number it is infinity, and far below the least one it is zero.
-/

namespace TableCleaner.Decimal

/-- The integer nearest to `num / den`, a half going to the even neighbour. -/
def roundHalfEven (num den : Nat) : Nat :=
  let q := num / den
  let r := num % den
  if 2 * r < den then q
  else if den < 2 * r then q + 1
  else if q % 2 = 0 then q else q + 1

/-- The greatest `t` with `2 ^ t ≤ num / den`, for positive numbers. -/
def floorLog2 (num den : Nat) : Int :=
  let guess : Int := (num.log2 : Int) - den.log2
  if num * Nat.pow 2 (-guess).toNat < den * Nat.pow 2 guess.toNat then guess - 1 else guess

/-- The magnitude bits nearest to `num / den`, for positive numbers. -/
def roundRatio (num den : Nat) : Nat :=
  let q := max (floorLog2 num den - 52) (-1074)
  let m := roundHalfEven (num * Nat.pow 2 (-q).toNat) (den * Nat.pow 2 q.toNat)
  min ((q + 1074).toNat * Binary.leadingBit + m) Binary.infinityBits

/-- The magnitude bits nearest to the decimal. The first two bounds decide without a power. -/
def nearestBits (d : Decimal) : Nat :=
  if d.digits = 0 then 0
  else if 400 < d.exponent then Binary.infinityBits
  else if (d.digits.log2 : Int) + 1 + 3 * d.exponent < -1080 then 0
  else roundRatio (d.digits * Nat.pow 10 d.exponent.toNat) (Nat.pow 10 (-d.exponent).toNat)

/-- The floating-point number nearest to the decimal, with a sign. -/
def toFloat (negative : Bool) (d : Decimal) : Float := Binary.ofMagnitude negative d.nearestBits

/-- The floating-point number nearest to an integer. -/
def ofInt (i : Int) : Float := toFloat (i < 0) ⟨i.natAbs, 0⟩

end TableCleaner.Decimal
