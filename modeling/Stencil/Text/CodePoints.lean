/-!
Sets of characters, written as ranges of code points.

Tables list characters beyond ASCII only: a module that uses one says itself what holds for ASCII.
-/

set_option autoImplicit false

namespace Stencil

/-- A set of characters as closed ranges of code points, in their order. -/
structure CodePoints where
  ranges : List (Nat × Nat)

namespace CodePoints

def within (n : Nat) : List (Nat × Nat) → Bool
  | [] => false
  | (a,b) :: r => a ≤ n && (n ≤ b || within n r)

def contains (s : CodePoints) (c : Char) : Bool := within c.toNat s.ranges

end CodePoints

end Stencil
