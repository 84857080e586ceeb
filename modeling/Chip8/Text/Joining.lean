import Chip8.Text.Combining
import Chip8.Text.Conjunct
import Chip8.Text.Picture

namespace Chip8

/-- How a character goes together with the characters beside it. -/
inductive Joining
  /-- Belongs to no other character. -/
  | alone
  /-- Belongs to the character before it. -/
  | extending
  /-- Belongs to the character before it, and joins it to a picture after it. -/
  | joiner
  /-- Belongs to the character before it, and keeps it apart from a consonant after it. -/
  | nonJoiner
  /-- Belongs to the consonant before it, and joins it to a consonant after it. -/
  | conjunctMark
  /-- Stands beside the character before it, and belongs to it. -/
  | spacing
  /-- Belongs to the character after it. -/
  | leading
  /-- One of the two letters of a flag. -/
  | flagLetter
  /-- May be a part of a joined picture. -/
  | pictograph
  /-- May be a part of a joined consonant. -/
  | consonant
  /-- A letter that begins a syllable block. -/
  | initialLetter
  /-- A letter in the middle of a syllable block. -/
  | medialLetter
  /-- A letter that ends a syllable block. -/
  | finalLetter
  /-- A syllable block that goes on with a middle or a last letter. -/
  | openBlock
  /-- A syllable block that goes on with a last letter only. -/
  | closedBlock
  /-- None of these. -/
  | plain
deriving DecidableEq

/-- Whether a character is a control character. -/
def isControl (c : Char) : Bool := c.toNat < 0x20 || 0x7F ≤ c.toNat && c.toNat < 0xA0

/-- Whether a character gives the picture before it a skin tone. -/
def isSkinTone (c : Char) : Bool := 0x1F3FB ≤ c.toNat && c.toNat ≤ 0x1F3FF

/-- Whether a character is one of the two letters of a flag. -/
def isFlagLetter (c : Char) : Bool := 0x1F1E6 ≤ c.toNat && c.toNat ≤ 0x1F1FF

namespace CodeRanges

/-- The letters that begin a syllable block. -/
def initialLetters : CodeRanges := .mk [(0x1100, 0x115F), (0xA960, 0xA97C)]

/-- The letters in the middle of a syllable block. -/
def medialLetters : CodeRanges := .mk
  [(0x1160, 0x11A7), (0xD7B0, 0xD7C6), (0x16D63, 0x16D63), (0x16D67, 0x16D6A)]

/-- The letters that end a syllable block. -/
def finalLetters : CodeRanges := .mk [(0x11A8, 0x11FF), (0xD7CB, 0xD7FB)]

/-- The syllable blocks. Of each 28 that differ in the last letter, the first has none. -/
def blocks : CodeRanges := .mk [(0xAC00, 0xD7A3)]

end CodeRanges

/-- How a letter or block of syllable writing goes together with its neighbours; other characters
are plain. -/
def syllableJoining (c : Char) : Joining :=
  if CodeRanges.initialLetters.contains c then .initialLetter
  else if CodeRanges.medialLetters.contains c then .medialLetter
  else if CodeRanges.finalLetters.contains c then .finalLetter
  else if CodeRanges.blocks.contains c then
    if (c.toNat - 0xAC00) % 28 = 0 then .openBlock else .closedBlock
  else .plain

/-- How a character goes together with its neighbours. -/
def joining (c : Char) : Joining :=
  if isControl c then .alone
  else if c.toNat < 0xA9 then .plain
  else if CodeRanges.solitary.contains c then .alone
  else if c = '\u200c' then .nonJoiner
  else if c = '\u200d' then .joiner
  else if CodeRanges.conjunctMarks.contains c then .conjunctMark
  else if isSkinTone c || CodeRanges.extendingMarks.contains c then .extending
  else if CodeRanges.spacingMarks.contains c then .spacing
  else if CodeRanges.leadingSigns.contains c then .leading
  else if isFlagLetter c then .flagLetter
  else if CodeRanges.conjunctConsonants.contains c then .consonant
  else if CodeRanges.pictographs.contains c then .pictograph
  else syllableJoining c

/-- Letters, digits, signs and blanks of the ASCII range stay apart. -/
theorem joining_of_printable {c : Char} (hlo : 0x20 ≤ c.toNat) (hhi : c.toNat < 0x7F) :
    joining c = .plain := by
  have hcontrol : isControl c = false := by simp [isControl]; omega
  have hplain : c.toNat < 0xA9 := by omega
  simp [joining, hcontrol, hplain]

namespace Joining

/-- Whether a character belongs to the one before it. -/
def trails : Joining → Bool
  | extending | joiner | nonJoiner | conjunctMark | spacing => true
  | _ => false

/-- Whether a character may stand between a picture and the joiner after it. -/
def decorates : Joining → Bool
  | extending | nonJoiner | conjunctMark => true
  | _ => false

/-- Whether a character may stand between two consonants that are joined. -/
def links : Joining → Bool
  | extending | joiner | conjunctMark => true
  | _ => false

/-- Whether a syllable block goes on with a further letter or block. -/
def sharesBlock : Joining → Joining → Bool
  | initialLetter, next => next ∈ [initialLetter, medialLetter, openBlock, closedBlock]
  | medialLetter, next | openBlock, next => next ∈ [medialLetter, finalLetter]
  | finalLetter, next | closedBlock, next => next = finalLetter
  | _, _ => false

/-- Whether a text that ends in a picture and a joiner goes on with a picture. The text is given
from its end. -/
def sharesPicture : List Joining → Joining → Bool
  | joiner :: before, pictograph => (before.dropWhile decorates).head? = some pictograph
  | _, _ => false

/-- Whether a text that ends in a consonant and a mark that joins consonants goes on with a
consonant. The text is given from its end. -/
def sharesConsonant (before : List Joining) (next : Joining) : Bool :=
  next = consonant && conjunctMark ∈ before.takeWhile links &&
    (before.dropWhile links).head? = some consonant

/-- Whether a text that ends in the first letter of a flag goes on with the second. The text is
given from its end. -/
def sharesFlag (before : List Joining) (next : Joining) : Bool :=
  next = flagLetter && (before.takeWhile (· = flagLetter)).length % 2 = 1

/-- Whether a character belongs to the last characters of a text, which is given from its end. -/
def continues (before : List Joining) (next : Joining) : Bool :=
  match before with
  | [] => false
  | last :: _ =>
    last ≠ alone && next ≠ alone &&
      (trails next || last = leading || sharesBlock last next || sharesPicture before next ||
        sharesConsonant before next || sharesFlag before next)

/-- A plain character begins anew after another one. -/
theorem continues_plain (before : List Joining) : continues (plain :: before) plain = false := by
  simp [continues, trails, sharesBlock, sharesPicture, sharesConsonant, sharesFlag]

end Joining

end Chip8
