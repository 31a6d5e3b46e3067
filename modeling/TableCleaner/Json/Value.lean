/-!
# JSON values

A number without a point and an exponent is an integer when it fits 64 bits, signed or unsigned; all
other numbers are floating-point numbers. An object is the list of its entries as they were written;
what the entries mean, with the last of two equal keys winning, is its `Record`.
-/

namespace TableCleaner

inductive Json where
  | null
  | bool (b : Bool)
  | int (i : Int)
  | float (x : Float)
  | text (s : String)
  | array (items : List Json)
  | object (entries : List (String × Json))

namespace Json

/-- The least and the greatest integer that is kept as one. -/
def leastInt : Int := -0x8000000000000000
def greatestInt : Int := 0xFFFFFFFFFFFFFFFF

def isNull : Json → Bool
  | null => true
  | _ => false

def text? : Json → Option String
  | text s => some s
  | _ => none

/-! ## Equality -/

mutual

def decEq : (a b : Json) → Decidable (a = b)
  | null, b => match b with
    | null => isTrue rfl
    | .bool _ | .int _ | .float _ | .text _ | .array _ | .object _ => isFalse nofun
  | .bool a, b => match b with
    | .bool b => decidable_of_iff (a = b) (by simp)
    | .null | .int _ | .float _ | .text _ | .array _ | .object _ => isFalse nofun
  | .int a, b => match b with
    | .int b => decidable_of_iff (a = b) (by simp)
    | .null | .bool _ | .float _ | .text _ | .array _ | .object _ => isFalse nofun
  | .float a, b => match b with
    | .float b => decidable_of_iff (a = b) (by simp)
    | .null | .bool _ | .int _ | .text _ | .array _ | .object _ => isFalse nofun
  | .text a, b => match b with
    | .text b => decidable_of_iff (a = b) (by simp)
    | .null | .bool _ | .int _ | .float _ | .array _ | .object _ => isFalse nofun
  | .array a, b => match b with
    | .array b =>
      have := decEqItems a b
      decidable_of_iff (a = b) (by simp)
    | .null | .bool _ | .int _ | .float _ | .text _ | .object _ => isFalse nofun
  | .object a, b => match b with
    | .object b =>
      have := decEqEntries a b
      decidable_of_iff (a = b) (by simp)
    | .null | .bool _ | .int _ | .float _ | .text _ | .array _ => isFalse nofun

def decEqItems : (a b : List Json) → Decidable (a = b)
  | [], [] => isTrue rfl
  | [], _ :: _ | _ :: _, [] => isFalse nofun
  | a :: as, b :: bs =>
    have := decEq a b
    have := decEqItems as bs
    decidable_of_iff (a = b ∧ as = bs) (by simp)

def decEqEntries : (a b : List (String × Json)) → Decidable (a = b)
  | [], [] => isTrue rfl
  | [], _ :: _ | _ :: _, [] => isFalse nofun
  | (k, a) :: as, (l, b) :: bs =>
    have := decEq a b
    have := decEqEntries as bs
    decidable_of_iff (k = l ∧ a = b ∧ as = bs) (by simp [and_assoc])

end

instance : DecidableEq Json := decEq

end Json

end TableCleaner
