import Chip8.Text.Cluster
import Chip8.Text.Width

namespace Chip8

/-- How many columns a character takes by itself. The half-width voicing marks of katakana take as
many as a full-width letter. -/
def charColumns (c : Char) : Nat :=
  let n := c.toNat
  if n ≤ 0xA0 ∨ n = 0x2D7F then 1
  else if n = 0x115F ∨ n = 0x17A4 ∨ n = 0xFF9E ∨ n = 0xFF9F then 2
  else if n = 0x17D8 then 3
  else if CodeRanges.unseen.contains c || CodeRanges.extendingMarks.contains c then 0
  else if CodeRanges.wide.contains c then 2
  else 1

/-- What follows a character in its cluster, as far as that changes the columns it takes. -/
inductive Following
  /-- Nothing that matters. -/
  | nothing
  /-- A demand to show the character as text. -/
  | textStyle
  /-- A demand to show the character as a picture. -/
  | pictureStyle
  /-- A demand to give a quotation mark the width of an ideograph. -/
  | wideStyle
  /-- A picture. -/
  | picture
  /-- A skin tone. -/
  | skinTone
  /-- A joiner and a picture. -/
  | joined
  /-- A demand to show the character as a picture, before a joiner and a picture. -/
  | joinedStyle
  /-- The frame of a key, before a joiner and a picture. -/
  | joinedKey
  /-- The last letter of a flag, before a joiner and a picture. -/
  | joinedFlagLetter
  /-- The last tags of a regional flag, before a joiner and a picture: at the end so many letters,
  and before these so many digits. -/
  | joinedTags (digits letters : Nat)
  /-- A Khmer letter that can be written below another one. -/
  | subscript
  /-- The Kirat Rai vowel sign E. -/
  | vowelE
  /-- The Kirat Rai vowel sign AI. -/
  | vowelAI
deriving DecidableEq

namespace CodeRanges

/-- The Khmer letters that can be written below another one. -/
def subscripts : CodeRanges := .mk
  [(0x1780, 0x1782), (0x1784, 0x1787), (0x1789, 0x178C), (0x178E, 0x1793), (0x1795, 0x1798),
   (0x179B, 0x179D), (0x17A0, 0x17A0), (0x17A2, 0x17A2), (0x17A7, 0x17A7), (0x17AB, 0x17AC),
   (0x17AF, 0x17AF)]

/-- The marks that do not come between two letters that are written as one. -/
def transparent : CodeRanges := .mk
  [(0x034F, 0x034F), (0x17B4, 0x17B5), (0x180B, 0x180D), (0x180F, 0x180F), (0x200D, 0x200D),
   (0xFE00, 0xFE0F), (0xE0100, 0xE01EF)]

/-- The digits that spell the region of a flag. -/
def tagDigits : CodeRanges := .mk [(0xE0030, 0xE0039)]

/-- The letters that spell the region of a flag. -/
def tagLetters : CodeRanges := .mk [(0xE0061, 0xE007A)]

/-- The quotation marks that ideographic writing shares. -/
def sharedQuotes : CodeRanges := .mk [(0x2018, 0x2019), (0x201C, 0x201D)]

/-- The ideographs in frames. They keep their width whatever their style. -/
def framedIdeographs : CodeRanges := .mk [(0x1F200, 0x1F2FF)]

end CodeRanges

/-- What a character means for the one before it. -/
def following (c : Char) : Following :=
  if c.toNat ≤ 0xA0 then .nothing
  else if c = '\ufe0e' then .textStyle
  else if c = '\ufe0f' then .pictureStyle
  else if c = '\ufe01' then .wideStyle
  else if isSkinTone c then .skinTone
  else if CodeRanges.pictures.contains c then .picture
  else if CodeRanges.subscripts.contains c then .subscript
  else if c.toNat = 0x16D67 then .vowelE
  else if c.toNat = 0x16D68 then .vowelAI
  else .nothing

/-- The columns that a character adds before a joiner and a picture, and what all of them mean for
the character before, unless it stays apart from them. -/
def joinedColumns? (c : Char) : Option (Int × Following) :=
  if c = '\ufe0f' then some (0, .joinedStyle)
  else if c = '\u20e3' then some (0, .joinedKey)
  else if c.toNat = 0xE007F then some (0, .joinedTags 0 0)
  else if isSkinTone c then some (0, .skinTone)
  else if isFlagLetter c then some (1, .joinedFlagLetter)
  else if CodeRanges.pictures.contains c then some (0, .picture)
  else none

/-- The columns that a character adds before the tags of a regional flag, a joiner and a picture,
and what all of them mean for the character before, unless it stays apart from them. A region is
spelled with three to six letters, or with three digits and up to four letters. -/
def taggedColumns? (c : Char) (digits letters : Nat) : Option (Int × Following) :=
  if CodeRanges.tagLetters.contains c then
    if digits = 0 ∧ letters < 6 then some (0, .joinedTags 0 (letters + 1)) else none
  else if CodeRanges.tagDigits.contains c then
    if digits < 3 ∧ letters ≤ 4 then some (0, .joinedTags (digits + 1) letters) else none
  else if c.toNat = 0x1F3F4 ∧ (digits = 3 ∨ digits = 0 ∧ 3 ≤ letters) then some (0, .picture)
  else none

/-- The columns that a character adds when it changes what follows it or is changed by that, and
what all of them mean for the character before. -/
def alteredColumns? (c : Char) : Following → Option (Int × Following)
  | .nothing => none
  | .textStyle =>
    if CodeRanges.pictures.contains c && CodeRanges.stylable.contains c &&
        !CodeRanges.framedIdeographs.contains c then some (1, .nothing)
    else none
  | .pictureStyle => if CodeRanges.stylable.contains c then some (2, .picture) else none
  | .wideStyle => if CodeRanges.sharedQuotes.contains c then some (2, .nothing) else none
  | .picture => if c = '\u200d' then some (0, .joined) else none
  | .skinTone =>
    if c = '\u200d' then some (0, .joined)
    else if CodeRanges.toned.contains c then some (0, .picture)
    else none
  | .joined => joinedColumns? c
  | .joinedStyle => if CodeRanges.stylable.contains c then some (0, .picture) else none
  | .joinedKey => if c = '\ufe0f' then some (0, .joinedStyle) else none
  | .joinedFlagLetter => if isFlagLetter c then some (-1, .nothing) else none
  | .joinedTags digits letters => taggedColumns? c digits letters
  | .subscript =>
    if c.toNat = 0x17D2 then some (-1, .nothing)
    else if CodeRanges.transparent.contains c then some (0, .subscript)
    else none
  | .vowelE =>
    if c.toNat = 0x16D63 ∨ c.toNat = 0x16D69 then some (0, .nothing)
    else if c.toNat = 0x16D67 then some (0, .vowelAI)
    else if c.toNat = 0x16D68 then some (1, .vowelE)
    else none
  | .vowelAI => if c.toNat = 0x16D63 then some (0, .nothing) else none

namespace Cluster

/-- The columns of characters and what they mean for a character before them. -/
def measure (cluster : Cluster) : Int × Following :=
  cluster.foldr (fun c (total, after) =>
    let (columns, before) := (alteredColumns? c after).getD (charColumns c, following c)
    (columns + total, before)) (0, .nothing)

/-- How many columns a cluster takes. -/
def columns (cluster : Cluster) : Nat := cluster.measure.1.toNat

/-- A character up to the no-break space takes one column. -/
theorem columns_singleton {c : Char} (hc : c.toNat ≤ 0xA0) : columns [c] = 1 := by
  simp [columns, measure, alteredColumns?, charColumns, hc]

end Cluster

end Chip8
