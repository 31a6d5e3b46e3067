import TableCleaner.Calendar.DateTime
import TableCleaner.Decimal.Reading
import TableCleaner.Text.Blank
import TableCleaner.Text.Lowercase

/-!
# Layouts of dates

A layout is a list of items: fields of a date and time, blanks, and fixed characters. Writing is
exact: two digits for a field, four for a year, and a sign outside the years 0 to 9999. Reading is
lenient: a field may have one digit, blanks before a field are skipped, a blank of the layout
stands for any number of blanks, and a fraction may be missing. An offset is written as that of
universal time.
-/

namespace TableCleaner

inductive LayoutItem where
  | year
  | month
  | day
  | hour
  | minute
  | second
  /-- A point and digits, or nothing. -/
  | fraction
  /-- A number of digits of the fraction, without a point. -/
  | fractionDigits (count : Nat)
  /-- The full name of the month; the short one is read too. -/
  | monthName
  | shortMonthName
  | blank
  /-- Between the date and the time: `T`, `t` or a blank. -/
  | timeMark
  /-- `Z`, or hours from universal time with a sign, and minutes if they do not stop there. -/
  | offset
  /-- `Z`, `UTC` in any case, or hours and minutes from universal time with a sign. -/
  | zone
  | fixed (c : Char)
deriving DecidableEq, Repr

abbrev Layout := List LayoutItem

/-- The fields that a text gave, with the parts of the time zero when there are none. The offset
counts seconds. -/
structure DateFields where
  year : Int := 0
  month : Nat := 0
  day : Nat := 0
  hour : Nat := 0
  minute : Nat := 0
  second : Nat := 0
  nanos : Nat := 0
  offset : Option Int := none
deriving DecidableEq, Repr

namespace DateFields

/-- The second 60 is the leap second after the second 59. -/
def time? (f : DateFields) : Option TimeOfDay :=
  if f.second = 60 then TimeOfDay.of? f.hour f.minute 59 (nanosPerSecond + f.nanos)
  else TimeOfDay.of? f.hour f.minute f.second f.nanos

def date? (f : DateFields) : Option Date := Date.of? f.year f.month f.day

def dateTime? (f : DateFields) : Option DateTime := do
  return ⟨← f.date?, ← f.time?⟩

end DateFields

namespace Layout

/-- The months in lower case: the three letters of the short name, and the letters after them. -/
def monthNames : List (List Char × List Char) :=
  [("jan", "uary"), ("feb", "ruary"), ("mar", "ch"), ("apr", "il"), ("may", ""), ("jun", "e"),
    ("jul", "y"), ("aug", "ust"), ("sep", "tember"), ("oct", "ober"), ("nov", "ember"),
    ("dec", "ember")].map fun p => (p.1.toList, p.2.toList)

/-! ## Writing -/

/-- Digits with zeros in front up to a width. -/
def padded (width n : Nat) : List Char :=
  let ds := Nat.toDigits 10 n
  List.replicate (width - ds.length) '0' ++ ds

def writeYear (year : Int) : List Char :=
  if 0 ≤ year ∧ year ≤ 9999 then padded 4 year.toNat
  else (if year < 0 then '-' else '+') :: padded 4 year.natAbs

/-- The fewest of three, six and nine digits that hold the fraction; nothing when it is zero. -/
def writeFraction (nanos : Nat) : List Char :=
  let n := nanos % nanosPerSecond
  if n = 0 then []
  else if n % 1000000 = 0 then '.' :: padded 3 (n / 1000000)
  else if n % 1000 = 0 then '.' :: padded 6 (n / 1000)
  else '.' :: padded 9 n

def capitalized : List Char → List Char
  | [] => []
  | c :: s => c.toUpper :: s

def writeItem (t : DateTime) : LayoutItem → List Char
  | .year => writeYear t.date.year
  | .month => padded 2 t.date.month
  | .day => padded 2 t.date.day
  | .hour => padded 2 t.time.hour
  | .minute => padded 2 t.time.minute
  | .second => padded 2 (t.time.second + t.time.nanos / nanosPerSecond)
  | .fraction => writeFraction t.time.nanos
  | .fractionDigits count => (padded 9 (t.time.nanos % nanosPerSecond)).take count
  | .monthName =>
    let name := monthNames.getD (t.date.month - 1) ([], [])
    capitalized (name.1 ++ name.2)
  | .shortMonthName => capitalized (monthNames.getD (t.date.month - 1) ([], [])).1
  | .blank => [' ']
  | .timeMark => ['T']
  | .offset | .zone => ['Z']
  | .fixed c => [c]

def writeChars (layout : Layout) (t : DateTime) : List Char := layout.flatMap (writeItem t)

/-! ## Reading -/

/-- The longest run of at most `most` digits, which must hold one at least. -/
def readDigits? (most : Nat) (s : List Char) : Option (Nat × List Char) :=
  let ds := (s.take most).takeWhile Decimal.isDigit
  if ds.isEmpty then none else some (Decimal.digitsValue ds, s.drop ds.length)

/-- One or two digits after blanks. -/
def readField? (s : List Char) : Option (Nat × List Char) := readDigits? 2 (Text.trimStart s)

/-- Up to four digits after blanks, or a sign and any number of digits. -/
def readYear? (s : List Char) : Option (Int × List Char) :=
  match Text.trimStart s with
  | '-' :: r => (readDigits? r.length r).map fun p => (-(p.1 : Int), p.2)
  | '+' :: r => (readDigits? r.length r).map fun p => ((p.1 : Int), p.2)
  | r => (readDigits? 4 r).map fun p => ((p.1 : Int), p.2)

/-- The nanoseconds that digits after a point stand for; those after the ninth are dropped. -/
def fractionNanos (ds : List Char) : Nat :=
  Decimal.digitsValue (ds.take 9) * Nat.pow 10 (9 - (ds.take 9).length)

/-- A point with at least one digit, or nothing. -/
def readFraction? (s : List Char) : Option (Nat × List Char) :=
  match s with
  | '.' :: r =>
    let ds := r.takeWhile Decimal.isDigit
    if ds.isEmpty then none else some (fractionNanos ds, r.dropWhile Decimal.isDigit)
  | _ => some (0, s)

/-- Exactly `n` digits. -/
def readExactly? (n : Nat) (s : List Char) : Option (Nat × List Char) :=
  let ds := s.take n
  if ds.length = n && ds.all Decimal.isDigit then some (Decimal.digitsValue ds, s.drop n) else none

/-- The seconds of an offset, after blanks: `Z`, or a sign with two digits for the hours and two for
the minutes. Colons and blanks may stand between them. -/
def readOffset? (minutesNeeded : Bool) (s : List Char) : Option (Int × List Char) :=
  match Text.trimStart s with
  | [] => none
  | c :: r =>
    if c = 'Z' || c = 'z' then some (0, r)
    else if c = '+' || c = '-' || c = '−' then do
      let (hours, r) ← readExactly? 2 r
      let r := r.dropWhile fun c => c = ':' || Text.isBlank c
      let (minutes, r) ← if r.isEmpty && !minutesNeeded then some (0, r) else readExactly? 2 r
      let seconds : Int := (hours * 3600 + minutes * 60 : Nat)
      if 60 ≤ minutes then none else some (if c = '+' then seconds else -seconds, r)
    else none

/-- Takes a word off the front of a text, in any case. -/
def dropWord? (word : List Char) (s : List Char) : Option (List Char) :=
  if word.isPrefixOf (Text.asciiLower (s.take word.length)) then some (s.drop word.length)
  else none

/-- The seconds of an offset; the name of universal time stands for none. -/
def readZone? (s : List Char) : Option (Int × List Char) :=
  let s := Text.trimStart s
  match dropWord? ['u', 't', 'c'] s with
  | some r => some (0, r)
  | none => readOffset? true s

def readMark? : List Char → Option (List Char)
  | c :: r => if c = 'T' || c = 't' || c = ' ' then some r else none
  | [] => none

/-- The number of the month whose short name starts the text, and its rest. -/
def readShortName? (s : List Char) : Option (Nat × List Char) :=
  (monthNames.zipIdx 1).findSome? fun p => (dropWord? p.1.1 s).map (p.2, ·)

/-- As for the short name, and the rest of the full name is taken too if it follows. -/
def readName? (s : List Char) : Option (Nat × List Char) :=
  (readShortName? s).map fun p =>
    let suffix := (monthNames.getD (p.1 - 1) ([], [])).2
    (p.1, (dropWord? suffix p.2).getD p.2)

def readItem? (f : DateFields) (s : List Char) : LayoutItem → Option (DateFields × List Char)
  | .year => (readYear? s).map fun p => ({ f with year := p.1 }, p.2)
  | .month => (readField? s).map fun p => ({ f with month := p.1 }, p.2)
  | .day => (readField? s).map fun p => ({ f with day := p.1 }, p.2)
  | .hour => (readField? s).map fun p => ({ f with hour := p.1 }, p.2)
  | .minute => (readField? s).map fun p => ({ f with minute := p.1 }, p.2)
  | .second => (readField? s).map fun p => ({ f with second := p.1 }, p.2)
  | .fraction => (readFraction? s).map fun p => ({ f with nanos := p.1 }, p.2)
  | .fractionDigits count =>
    (readExactly? count s).map fun p => ({ f with nanos := p.1 * Nat.pow 10 (9 - count) }, p.2)
  | .monthName => (readName? s).map fun p => ({ f with month := p.1 }, p.2)
  | .shortMonthName => (readShortName? s).map fun p => ({ f with month := p.1 }, p.2)
  | .blank => some (f, Text.trimStart s)
  | .timeMark => (readMark? s).map (f, ·)
  | .offset => (readOffset? false s).map fun p => ({ f with offset := some p.1 }, p.2)
  | .zone => (readZone? s).map fun p => ({ f with offset := some p.1 }, p.2)
  | .fixed c =>
    match s with
    | d :: r => if c = d then some (f, r) else none
    | [] => none

/-- Reads the items one after another. Nothing may be left after the last. -/
def readFields? : Layout → DateFields → List Char → Option DateFields
  | [], f, [] => some f
  | [], _, _ :: _ => none
  | item :: layout, f, s =>
    match readItem? f s item with
    | some (f, r) => readFields? layout f r
    | none => none

def readDateTime? (layout : Layout) (s : List Char) : Option DateTime := do
  (← readFields? layout {} s).dateTime?

def readDate? (layout : Layout) (s : List Char) : Option Date := do
  (← readFields? layout {} s).date?

end Layout

end TableCleaner
