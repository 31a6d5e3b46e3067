import TableCleaner.Text.CellData
import TableCleaner.Text.EmojiData
import TableCleaner.Text.Range

/-!
# Display width

A terminal shows combining and ignorable characters in no cell of their own, wide characters in
two cells and nearly all others in one. Some characters are shown as one with those that follow
them: an emoji with its selector, its tone of skin or the emoji joined to it, and the letters of
some scripts. So a text is measured from its end to its start, and what follows a character decides
how many cells the character adds.
-/

namespace TableCleaner.Text

/-! ## Single characters -/

/-- The number of cells of one character. -/
def charWidth (c : Char) : Nat :=
  if c.toNat < 0x7F then 1
  else if c = '\u17D8' then 3
  else if c = '\u17A4' then 2
  else if inRanges zeroWidthRanges c then 0
  else if inRanges wideRanges c then 2
  else 1

/-- A joiner without width of its own. -/
def joiner : Char := '\u200D'

def isFlagLetter (c : Char) : Bool := 0x1F1E6 ≤ c.toNat && c.toNat ≤ 0x1F1FF

def isTone (c : Char) : Bool := 0x1F3FB ≤ c.toNat && c.toNat ≤ 0x1F3FF

def isTagLetter (c : Char) : Bool := 0xE0061 ≤ c.toNat && c.toNat ≤ 0xE007A

def isTagDigit (c : Char) : Bool := 0xE0030 ≤ c.toNat && c.toNat ≤ 0xE0039

/-- The Arabic letters that join with an Alef. -/
def isLam (c : Char) : Bool :=
  inRanges #[(0x644, 0x644), (0x6B5, 0x6B8), (0x76A, 0x76A), (0x8A6, 0x8A6), (0x8C7, 0x8C7)] c

def isAlef (c : Char) : Bool :=
  inRanges #[(0x622, 0x623), (0x625, 0x625), (0x627, 0x627), (0x671, 0x673), (0x675, 0x675),
    (0x773, 0x774), (0x870, 0x882)] c

/-- The Khmer letters that can stand below another letter. -/
def isKhmerLetter (c : Char) : Bool :=
  inRanges #[(0x1780, 0x1782), (0x1784, 0x1787), (0x1789, 0x178C), (0x178E, 0x1793),
    (0x1795, 0x1798), (0x179B, 0x179D), (0x17A0, 0x17A0), (0x17A2, 0x17A2), (0x17A7, 0x17A7),
    (0x17AB, 0x17AC), (0x17AF, 0x17AF)] c

def isTifinaghConsonant (c : Char) : Bool := inRanges #[(0x2D31, 0x2D65), (0x2D6F, 0x2D6F)] c

def isCurlyQuote (c : Char) : Bool := ['\u2018', '\u2019', '\u201C', '\u201D'].contains c

/-- The character makes an emoji with a selector after it. -/
def startsEmoji (c : Char) : Bool := inRanges selectableRanges c

/-- The character is an emoji that a selector after it shows as a text of one cell. -/
def startsText (c : Char) : Bool :=
  inRanges selectableRanges c && inRanges emojiRanges c && !(0x1F200 ≤ c.toNat && c.toNat ≤ 0x1F2FF)

/-- A mark between an Arabic letter and the next one that does not part them. -/
def isTransparentMark (c : Char) : Bool :=
  inRanges zeroWidthRanges c && !inRanges partingRanges c

/-- A mark that changes nothing in the letters around it. -/
def isIgnoredMark (c : Char) : Bool :=
  inRanges #[(0x34F, 0x34F), (0x17B4, 0x17B5), (0x180B, 0x180D), (0x180F, 0x180F),
    (0x200D, 0x200D), (0xFE00, 0xFE0F), (0xE0100, 0xE01EF)] c

/-! ## What follows a character -/

/-- The start of the text after a character, as far as it can be shown as one with the character. -/
inductive Sequel where
  | none
  | lineFeed
  | tone
  | flagLetter
  | flagLetters
  | emoji
  /-- A joiner and an emoji. -/
  | joinedEmoji
  /-- The mark of a keycap before a joiner and an emoji. -/
  | joinedKeycap
  /-- Letters of flags before a joiner and an emoji, one or another number of them. -/
  | joinedFlagLetter
  | joinedFlagLetters (isEven : Bool)
  /-- The end of a flag of a region before a joiner and an emoji, with some letters or digits. -/
  | joinedTagLetters (count : Nat)
  | joinedTagDigits (count : Nat)
  | kiratRaiE
  | kiratRaiAi
  | alef
  | lamed (isJoined : Bool)
  | ya (isJoined : Bool)
  | yaAfterI
  | tifinagh (isJoined : Bool)
  | tifinaghJoiner
  | lisuTone
  | orkhonI (isJoined : Bool)
  | khmerLetter
deriving DecidableEq, Repr

namespace Sequel

/-- A letter that can be shown as one with a letter before it, whatever selector stands between. -/
def isLetter : Sequel → Bool
  | alef | lamed _ | ya _ | yaAfterI | tifinagh _ | tifinaghJoiner | lisuTone | orkhonI _
  | khmerLetter => true
  | _ => false

/-- The letter with a joiner before it. -/
def joined : Sequel → Sequel
  | lamed _ => lamed true
  | ya _ => ya true
  | tifinagh _ => tifinagh true
  | orkhonI _ => orkhonI true
  | s => s

/-- What a character is for the one before it, when nothing that follows it matters. -/
def ofChar (c : Char) : Sequel :=
  if c.toNat < 0x500 then none
  else if isAlef c then alef
  else if c = '\u05DC' then lamed false
  else if isKhmerLetter c then khmerLetter
  else if c = '\u1A10' then ya false
  else if isTifinaghConsonant c then tifinagh false
  else if c = '\uA4FC' || c = '\uA4FD' then lisuTone
  else if c.toNat = 0x10C03 then orkhonI false
  else if c.toNat = 0x16D67 then kiratRaiE
  else if c.toNat = 0x16D68 then kiratRaiAi
  else if isFlagLetter c then flagLetter
  else if isTone c then tone
  else if inRanges emojiRanges c then emoji
  else none

/-- The cells that a character adds, and what it is for the one before it, when the two are shown as
one. -/
def join? (s : Sequel) (c : Char) : Option (Int × Sequel) :=
  match s with
  | alef =>
    if isLam c then some (0, none) else if isTransparentMark c then some (0, alef) else .none
  | lamed true => if c = '\u05D0' then some (0, none) else .none
  | khmerLetter => if c = '\u17D2' then some (-1, none) else .none
  | ya true => if c = '\u1A17' then some (0, yaAfterI) else .none
  | yaAfterI => if c = '\u1A15' then some (0, none) else .none
  | tifinagh isJoined =>
    if c = '\u2D7F' then some (1, tifinaghJoiner)
    else if isJoined && isTifinaghConsonant c then some (0, none)
    else .none
  | tifinaghJoiner => if isTifinaghConsonant c then some (-1, none) else .none
  | lisuTone => if 0xA4F8 ≤ c.toNat && c.toNat ≤ 0xA4FB then some (0, none) else .none
  | orkhonI true => if c.toNat = 0x10C32 then some (0, none) else .none
  | tone =>
    if inRanges tonedRanges c then some (0, emoji)
    else if c = joiner then some (0, joinedEmoji)
    else .none
  | flagLetter => if isFlagLetter c then some (1, flagLetters) else .none
  | flagLetters =>
    if isFlagLetter c then some (1, flagLetters)
    else if c = joiner then some (0, joinedEmoji)
    else .none
  | emoji => if c = joiner then some (0, joinedEmoji) else .none
  | joinedEmoji =>
    if c = '\u20E3' then some (0, joinedKeycap)
    else if isFlagLetter c then some (1, joinedFlagLetter)
    else if isTone c then some (0, tone)
    else if c.toNat = 0xE007F then some (0, joinedTagLetters 0)
    else if inRanges emojiRanges c then some (0, emoji)
    else .none
  | joinedFlagLetter => if isFlagLetter c then some (-1, joinedFlagLetters true) else .none
  | joinedFlagLetters isEven =>
    if isFlagLetter c then some (if isEven then 3 else -1, joinedFlagLetters (!isEven))
    else if c = joiner then some (0, joinedEmoji)
    else .none
  | joinedTagLetters n =>
    if isTagLetter c && n < 6 then some (0, joinedTagLetters (n + 1))
    else if isTagDigit c && n < 5 then some (0, joinedTagDigits 1)
    else if c.toNat = 0x1F3F4 && 3 ≤ n then some (0, emoji)
    else .none
  | joinedTagDigits n =>
    if isTagDigit c && n < 3 then some (0, joinedTagDigits (n + 1))
    else if c.toNat = 0x1F3F4 && n = 3 then some (0, emoji)
    else .none
  | kiratRaiE =>
    if c.toNat = 0x16D63 || c.toNat = 0x16D69 then some (0, none)
    else if c.toNat = 0x16D67 then some (0, kiratRaiAi)
    else if c.toNat = 0x16D68 then some (1, kiratRaiE)
    else .none
  | kiratRaiAi => if c.toNat = 0x16D63 then some (0, none) else .none
  | _ => .none

end Sequel

/-- What follows a character: the selectors right after it, and what comes after them. -/
structure Following where
  sequel : Sequel := .none
  hasEmojiSelector : Bool := false
  hasTextSelector : Bool := false
  hasWideSelector : Bool := false
deriving DecidableEq, Repr

namespace Following

/-- A selector hides what follows it, unless that is a letter. -/
def underSelector (f : Following) : Following := if f.sequel.isLetter then f else {}

/-- The selector of emoji does not hide an emoji that is joined. -/
def underEmojiSelector (f : Following) : Following :=
  if f.sequel = .joinedEmoji || f.sequel = .joinedKeycap then
    { sequel := f.sequel, hasEmojiSelector := true }
  else { f.underSelector with hasEmojiSelector := true }

/-- After a selector of emoji that has no effect, only a letter counts. -/
def withoutEmojiSelector (f : Following) : Following :=
  if f.hasEmojiSelector then { f.underSelector with hasEmojiSelector := false } else f

/-- The cells that a character adds before what follows it when it has no part in an emoji with a
selector, and what it is for the one before it. -/
def addPlain (f : Following) (c : Char) : Int × Following :=
  if c.toNat ≤ 0xA0 then
    if c = '\n' then (1, { sequel := .lineFeed })
    else (if c = '\r' && f = { sequel := .lineFeed } then 0 else 1, {})
  else if c = '\uFE0F' then (0, f.underEmojiSelector)
  else if c = '\uFE0E' then (0, { f.underSelector with hasTextSelector := true })
  else if c = '\uFE01' then (0, { f.underSelector with hasWideSelector := true })
  else if f.hasTextSelector && startsText c then (1, {})
  else if f.hasWideSelector && isCurlyQuote c then (2, {})
  else
    let s := f.sequel
    if s.isLetter && s != .alef && isIgnoredMark c then
      (0, { sequel := if c = joiner then s.joined else s })
    else
      match s.join? c with
      | some (n, s) => (n, { sequel := s })
      | none => (charWidth c, { sequel := .ofChar c })

/-- The cells that a character adds before what follows it, and what it is for the one before it. -/
def add (f : Following) (c : Char) : Int × Following :=
  if f.hasEmojiSelector && startsEmoji c then
    (if f.sequel = .joinedEmoji || f.sequel = .joinedKeycap then 0 else 2, { sequel := .emoji })
  else f.withoutEmojiSelector.addPlain c

end Following

/-! ## Texts -/

/-- The number of cells of a text. -/
def width (s : List Char) : Nat :=
  (s.foldr (fun c (p : Int × Following) =>
    let (n, f) := p.2.add c
    (p.1 + n, f)) (0, {})).1.toNat

end TableCleaner.Text
