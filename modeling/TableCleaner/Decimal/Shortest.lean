import TableCleaner.Decimal.Binary

/-!
# Shortest decimals

Of the decimals that read back as a given binary number, the one with the fewest digits, and of
those the nearest. The search walks down the powers of ten: on the grid of each power only the two
neighbours of the number can read back, so the first grid with a hit is the coarsest one.
-/

namespace TableCleaner.Decimal

/-- Which of two equally near decimals is taken. -/
inductive Tie where
  | toEven
  | up
deriving DecidableEq, Repr

/-- The multiple of `10 ^ e` at or below `x`, as a count of steps. -/
def gridFloor (x : Binary) (e : Int) : Nat :=
  (x.mantissa * Nat.pow 2 x.scale.toNat * Nat.pow 10 (-e).toNat) /
    (Nat.pow 2 (-x.scale).toNat * Nat.pow 10 e.toNat)

/-- The neighbour of `x` on the grid of `10 ^ e` that reads back, the nearer one of two. -/
def onGrid? (tie : Tie) (x : Binary) (e : Int) : Option Decimal :=
  let f := gridFloor x e
  let low : Decimal := ⟨f, e⟩
  let high : Decimal := ⟨f + 1, e⟩
  match x.readsBack low, x.readsBack high with
  | false, false => none
  | true, false => some low
  | false, true => some high
  | true, true =>
    match Binary.compareScaled (2 * f + 1) e (2 * x.mantissa) x.scale, tie with
    | .gt, _ => some low
    | .lt, _ => some high
    | .eq, .up => some high
    | .eq, .toEven => some (if f % 2 == 0 then low else high)

/-- A power of ten above `x`. -/
def topExponent (x : Binary) : Int := ((x.mantissa.log2 : Int) + x.scale + 1) * 30103 / 100000 + 1

/-- The value of `x` itself, in decimal digits. -/
def exact (x : Binary) : Decimal :=
  ⟨x.mantissa * Nat.pow 2 x.scale.toNat * Nat.pow 5 (-x.scale).toNat, min x.scale 0⟩

/-- The grids tried: seventeen digits always suffice, and the top is at most a few steps high. -/
def gridCount : Nat := 24

/-- The shortest decimal that reads back as `x`, which is not zero. -/
def shortest (tie : Tie) (x : Binary) : Decimal :=
  let top := topExponent x
  match (List.range gridCount).findSome? fun (i : Nat) => onGrid? tie x (top - i) with
  | some d => d
  | none => exact x

end TableCleaner.Decimal
