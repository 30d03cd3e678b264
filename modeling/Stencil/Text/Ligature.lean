import Stencil.Text.Emoji
import Stencil.Text.WidthTable

/-!
Letters that are written as one with the characters in front of them.

Most scripts ask for a joiner between the two; selectors and other marks that are ignored may stand
between them. The letters of Arabic need no joiner, and any mark that does not part them may stand
between them.
-/

set_option autoImplicit false

namespace Stencil.Text

def zeroWidth : CodePoints := ⟨zeroWidthTable⟩

def parting : CodePoints := ⟨partingTable⟩

/-- A letter that may fuse with characters in front of it. -/
inductive Letter
  /-- The Arabic alefs, with a lam. -/
  | alef
  /-- The Hebrew lamed, with an alef and a joiner. -/
  | lamed
  /-- The Buginese ya, with a vowel sign and a joiner. -/
  | ya
  /-- The Buginese ya with its vowel sign, with a letter a. -/
  | vowelYa
  /-- The consonants of Tifinagh, with another one and a joiner. -/
  | consonant
  /-- A consonant of Tifinagh behind the joiner of consonants, with another consonant. -/
  | joinedConsonant
  /-- The second tone letters of Lisu, with a first one. -/
  | tone
  /-- The Old Turkic i of Orkhon, with an ec and a joiner. -/
  | orkhonI
  /-- The Khmer letters that are written below another one, with the coeng sign. -/
  | subscriptLetter
  deriving DecidableEq, Repr

structure Ligature where
  letter : Letter
  joined : Bool := false
  deriving DecidableEq, Repr

def isLam (c : Char) : Bool :=
  let n := c.toNat
  n == 0x644 || (0x6B5 ≤ n && n ≤ 0x6B8) || n == 0x76A || n == 0x8A6 || n == 0x8C7

def isAlef (c : Char) : Bool :=
  let n := c.toNat
  n == 0x622 || n == 0x623 || n == 0x625 || n == 0x627 || (0x671 ≤ n && n ≤ 0x673) || n == 0x675
    || n == 0x773 || n == 0x774 || (0x870 ≤ n && n ≤ 0x882)

def isConsonant (c : Char) : Bool :=
  let n := c.toNat
  (0x2D31 ≤ n && n ≤ 0x2D65) || n == 0x2D6F

def isFirstTone (c : Char) : Bool := 0xA4F8 ≤ c.toNat && c.toNat ≤ 0xA4FB

def isSecondTone (c : Char) : Bool := c.toNat == 0xA4FC || c.toNat == 0xA4FD

def subscriptLetters : CodePoints := ⟨[
  (0x1780,0x1782),(0x1784,0x1787),(0x1789,0x178C),(0x178E,0x1793),(0x1795,0x1798),(0x179B,0x179D),
  (0x17A0,0x17A0),(0x17A2,0x17A2),(0x17A7,0x17A7),(0x17AB,0x17AC),(0x17AF,0x17AF)]⟩

/-- The marks that are ignored between the characters of a ligature. -/
def ignoredMarks : CodePoints := ⟨[
  (0x34F,0x34F),(0x17B4,0x17B5),(0x180B,0x180D),(0x180F,0x180F),(0xFE00,0xFE0F),(0xE0100,0xE01EF)]⟩

def isTransparent (c : Char) : Bool := zeroWidth.contains c && !parting.contains c

namespace Ligature

def ofChar? (c : Char) : Option Ligature :=
  let n := c.toNat
  if isAlef c then some ⟨.alef,false⟩
  else if n = 0x5DC then some ⟨.lamed,false⟩
  else if n = 0x1A10 then some ⟨.ya,false⟩
  else if isConsonant c then some ⟨.consonant,false⟩
  else if isSecondTone c then some ⟨.tone,false⟩
  else if n = 0x10C03 then some ⟨.orkhonI,false⟩
  else if subscriptLetters.contains c then some ⟨.subscriptLetter,false⟩
  else none

/-- What a letter or sign adds to the columns of the letter behind it, and what may fuse with both;
nothing where the two do not fuse. -/
def complete? (c : Char) (l : Ligature) : Option (Int × Option Ligature) :=
  match l.letter with
  | .alef => if isLam c then some (0,none) else none
  | .lamed => if l.joined && c == '\u05D0' then some (0,none) else none
  | .ya => if l.joined && c == '\u1A17' then some (0,some ⟨.vowelYa,true⟩) else none
  | .vowelYa => if c = '\u1A15' then some (0,none) else none
  | .consonant =>
    if c = '\u2D7F' then some (1,some ⟨.joinedConsonant,true⟩)
    else if l.joined && isConsonant c then some (0,none)
    else none
  | .joinedConsonant => if isConsonant c then some (-1,none) else none
  | .tone => if isFirstTone c then some (0,none) else none
  | .orkhonI => if l.joined && c.toNat == 0x10C32 then some (0,none) else none
  | .subscriptLetter => if c = '\u17D2' then some (-1,none) else none

/-- What a character adds to the columns of the letter behind it, and what may fuse with both;
nothing where the character does not belong to the letter. -/
def grow? (c : Char) (l : Ligature) : Option (Int × Option Ligature) :=
  if l.letter = .alef then
    if isTransparent c then some (0,some l) else complete? c l
  else if c = joiner then some (0,some ⟨l.letter,true⟩)
  else if ignoredMarks.contains c then some (0,some l)
  else complete? c l

end Ligature

end Stencil.Text
