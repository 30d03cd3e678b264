import Stencil.Number.Integer
import Stencil.Table
import Stencil.Value.Basic

set_option autoImplicit false

namespace Stencil.Value

/-- The value of a whole number: an integer, or the nearest float where it is out of range. -/
def ofInt (i : Int) : Value :=
  match Integer.ofInt? i with
  | some n => .int n
  | Option.none => .float (Binary64.ofInt i)

def ofEntries (entries : List (String × Value)) : Value := .map (Table.ofList entries)

end Stencil.Value
