import Stencil.Number.Binary64

set_option autoImplicit false

namespace Stencil

/-- A value. The entries of a map are kept in increasing order of their keys. -/
inductive Value where
  | none
  | bool (b : Bool)
  | int (n : Int64)
  | float (x : Binary64)
  | str (s : String)
  /-- a text that is shown without escaping -/
  | safe (s : String)
  | list (items : List Value)
  | map (entries : List (String × Value))
  deriving Inhabited

namespace Value

inductive Kind where
  | none | bool | integer | float | string | safe | list | map
  deriving DecidableEq, Repr

def Kind.name : Kind → String
  | .none => "none"
  | .bool => "bool"
  | .integer => "integer"
  | .float => "float"
  | .string => "string"
  | .safe => "safe string"
  | .list => "list"
  | .map => "map"

def kind : Value → Kind
  | .none => .none
  | .bool _ => .bool
  | .int _ => .integer
  | .float _ => .float
  | .str _ => .string
  | .safe _ => .safe
  | .list _ => .list
  | .map _ => .map

/-- Whether a condition holds: numbers other than zero, and texts, lists and maps that are not
empty. -/
def isTrue : Value → Bool
  | .none => false
  | .bool b => b
  | .int n => n != 0
  | .float x => !x.isZero
  | .str s | .safe s => !s.isEmpty
  | .list items => !items.isEmpty
  | .map entries => !entries.isEmpty

/-- Whether a value is a number itself; a text is none, even if it counts as one. -/
def isNumeric : Value → Bool
  | .int _ | .float _ => true
  | _ => false

def asText? : Value → Option String
  | .str s | .safe s => some s
  | _ => Option.none

end Value

end Stencil
