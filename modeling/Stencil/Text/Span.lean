set_option autoImplicit false

namespace Stencil

structure Span where
  start : Nat
  stop : Nat
  deriving DecidableEq, Repr, Inhabited

namespace Span

def cover (a b : Span) : Span := ⟨min a.start b.start,max a.stop b.stop⟩

end Span

structure Located (α : Type) where
  value : α
  span : Span
  deriving DecidableEq, Repr

namespace Text

def byteSize : List Char → Nat
  | [] => 0
  | c :: r => c.utf8Size + byteSize r

/-- The characters in front of the byte `n`, and the others; nothing where `n` splits a character or
lies behind the end. -/
def splitAtByte? : Nat → List Char → Option (List Char × List Char)
  | 0, cs => some ([],cs)
  | _ + 1, [] => none
  | n + 1, c :: r =>
    if n + 1 < c.utf8Size then none
    else (splitAtByte? (n + 1 - c.utf8Size) r).map fun (before,after) => (c :: before,after)

def upTo? (cs : List Char) (n : Nat) : Option (List Char) := (splitAtByte? n cs).map (·.1)

/-- The characters of a span; nothing where the span is reversed, splits a character or does not lie
inside the text. -/
def slice? (cs : List Char) (s : Span) : Option (List Char) :=
  if s.start ≤ s.stop then
    match splitAtByte? s.start cs with
    | some (_,rest) => upTo? rest (s.stop - s.start)
    | none => none
  else none

end Text

end Stencil
