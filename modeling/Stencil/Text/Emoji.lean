import Stencil.Text.CodePoints
import Stencil.Text.EmojiTable

/-!
Emoji, and how one grows when a text is read from its end: a character in front of an emoji may
belong to it.

An emoji takes two columns, and what is joined to it takes no more. Regional indicators make flags,
two of them each, and take one column each.
-/

set_option autoImplicit false

namespace Stencil.Text

def emojiCharacters : CodePoints := ⟨emojiTable⟩

def emojiBases : CodePoints := ⟨emojiBaseTable⟩

def textBases : CodePoints := ⟨textBaseTable⟩

def modifierBases : CodePoints := ⟨modifierBaseTable⟩

def joiner : Char := '\u200D'

def isModifier (c : Char) : Bool := 0x1F3FB ≤ c.toNat && c.toNat ≤ 0x1F3FF

def isIndicator (c : Char) : Bool := 0x1F1E6 ≤ c.toNat && c.toNat ≤ 0x1F1FF

def keycapMark : Char := '\u20E3'

def isBlackFlag (c : Char) : Bool := c.toNat == 0x1F3F4

def isTagLetter (c : Char) : Bool := 0xE0061 ≤ c.toNat && c.toNat ≤ 0xE007A

def isTagDigit (c : Char) : Bool := 0xE0030 ≤ c.toNat && c.toNat ≤ 0xE0039

def isTagEnd (c : Char) : Bool := c.toNat == 0xE007F

/-- The emoji, or the part of one, with which a text begins. -/
inductive Emoji
  /-- An emoji that stands by itself. -/
  | whole
  /-- A skin tone. -/
  | modifier
  /-- One regional indicator. -/
  | indicator
  /-- Regional indicators, at least two. -/
  | indicators
  /-- A joiner in front of an emoji. -/
  | joined
  /-- A keycap in front of `joined`. -/
  | keycap
  /-- One regional indicator in front of `joined`. -/
  | joinedIndicator
  /-- An even number of regional indicators in front of `joined`. -/
  | evenIndicators
  /-- An odd number of regional indicators, at least three, in front of `joined`. -/
  | oddIndicators
  /-- An end of tags in front of `joined`, and in front of that so many letters. -/
  | tagLetters (count : Nat)
  /-- Digits, so many of them, in front of `tagLetters`. -/
  | tagDigits (count : Nat)
  deriving DecidableEq, Repr

namespace Emoji

def ofChar? (c : Char) : Option Emoji :=
  if isIndicator c then some .indicator
  else if isModifier c then some .modifier
  else if emojiCharacters.contains c then some .whole
  else none

def join? (c : Char) : Option (Int × Emoji) := if c = joiner then some (0,.joined) else none

/-- What a character adds to the columns of the emoji behind it, and the emoji that both make;
nothing where the character does not belong to the emoji.

Regional indicators pair from the front. One that is the second of a flag joined to an emoji takes a
column back, and one in front of a joined flag pays for it. A region is three to six letters, or
three digits with up to four letters. -/
def grow? (c : Char) : Emoji → Option (Int × Emoji)
  | whole => join? c
  | modifier => if modifierBases.contains c then some (0,.whole) else join? c
  | indicator => if isIndicator c then some (1,.indicators) else none
  | indicators => if isIndicator c then some (1,.indicators) else join? c
  | joined =>
    if c = keycapMark then some (0,.keycap)
    else if isTagEnd c then some (0,.tagLetters 0)
    else
      match ofChar? c with
      | some .indicator => some (1,.joinedIndicator)
      | some e => some (0,e)
      | none => none
  | keycap => none
  | joinedIndicator => if isIndicator c then some (-1,.evenIndicators) else none
  | evenIndicators => if isIndicator c then some (3,.oddIndicators) else join? c
  | oddIndicators => if isIndicator c then some (-1,.evenIndicators) else join? c
  | tagLetters n =>
    if isTagLetter c && n < 6 then some (0,.tagLetters (n + 1))
    else if isTagDigit c && n < 5 then some (0,.tagDigits 1)
    else if isBlackFlag c && 3 ≤ n then some (0,.whole)
    else none
  | tagDigits n =>
    if isTagDigit c && n < 3 then some (0,.tagDigits (n + 1))
    else if isBlackFlag c && n == 3 then some (0,.whole)
    else none

/-- Whether an emoji selector in front of it belongs to it. -/
def isJoined : Emoji → Bool
  | joined | keycap => true
  | _ => false

end Emoji

end Stencil.Text
