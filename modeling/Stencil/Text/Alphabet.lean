/-!
The characters of names.

The tables of letters are not part of the language. Names are read with any alphabet that is the
usual one on ASCII; a name may also begin with a low line.
-/

set_option autoImplicit false

namespace Stencil

class Alphabet where
  starts : Char → Bool
  continues : Char → Bool
  starts_ascii {c : Char} : c.toNat < 0x80 → starts c = c.isAlpha
  continues_ascii {c : Char} : c.toNat < 0x80 → continues c = (c.isAlphanum || c == '_')

@[reducible] def Alphabet.ascii : Alphabet where
  starts := Char.isAlpha
  continues c := c.isAlphanum || c == '_'
  starts_ascii _ := rfl
  continues_ascii _ := rfl

namespace Text

variable [Alphabet]

def isNameStart (c : Char) : Bool := c == '_' || Alphabet.starts c

def isNamePart (c : Char) : Bool := Alphabet.continues c

end Text

end Stencil
