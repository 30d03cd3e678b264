import Stencil.Data

set_option autoImplicit false

namespace Stencil

/-- A JSON number: a natural number of 64 bits, a negative integer of 64 bits, or a float. -/
inductive JsonNumber where
  | nat (n : UInt64)
  | neg (n : Int64)
  | float (x : Binary64)
  deriving DecidableEq, Repr

/-- A JSON document. The entries of an object are in increasing order of their names. -/
inductive Json where
  | null
  | bool (b : Bool)
  | number (n : JsonNumber)
  | str (s : String)
  | arr (items : List Json)
  | obj (entries : List (String × Json))

namespace JsonNumber

def toValue : JsonNumber → Value
  | .nat n => Value.ofInt n.toNat
  | .neg n => .int n
  | .float x => .float x

def toData : JsonNumber → Data
  | .nat n => .integer n.toNat
  | .neg n => .integer n.toInt
  | .float x => .float x

end JsonNumber

namespace Json

mutual

def toValue : Json → Value
  | .null => .none
  | .bool b => .bool b
  | .number n => n.toValue
  | .str s => .str s
  | .arr items => .list (listToValues items)
  | .obj entries => Value.ofEntries (entriesToValues entries)

def listToValues : List Json → List Value
  | [] => []
  | j :: js => j.toValue :: listToValues js

def entriesToValues : List (String × Json) → List (String × Value)
  | [] => []
  | (k,j) :: es => (k,j.toValue) :: entriesToValues es

end

mutual

def toData : Json → Data
  | .null => .unit
  | .bool b => .bool b
  | .number n => n.toData
  | .str s => .str s
  | .arr items => .seq (listToData items)
  | .obj entries => .map (entriesToParts entries)

def listToData : List Json → List Data
  | [] => []
  | j :: js => j.toData :: listToData js

def entriesToParts : List (String × Json) → List (Slot × Data)
  | [] => []
  | (k,j) :: es => (.key,.str k) :: (.value,j.toData) :: entriesToParts es

end

end Json

end Stencil
