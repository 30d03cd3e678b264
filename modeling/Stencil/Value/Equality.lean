import Stencil.Value.Number

/-!
Two equalities of values.

`Value.isSame` compares values of the same kind part by part. `Value.isEqual` is the equality of the
language: it compares numbers by their order, does not see which texts are safe, and leaves what is
not a number, a text, a list or a map to `Value.isSame`. Both are given for any equality of floats.
-/

set_option autoImplicit false

namespace Stencil.Value

mutual

def isSameBy (floats : Binary64 → Binary64 → Bool) : Value → Value → Bool
  | .bool a, .bool b => a == b
  | .int m, .int n => m == n
  | .float x, .float y => floats x y
  | .str s, .str t => s == t
  | .safe s, .safe t => s == t
  | .list vs, .list ws => areSameBy floats vs ws
  | .map es, .map fs => entriesSameBy floats es fs
  | v, w => v.kind == w.kind

def areSameBy (floats : Binary64 → Binary64 → Bool) : List Value → List Value → Bool
  | [], [] => true
  | v :: vs, w :: ws => v.isSameBy floats w && areSameBy floats vs ws
  | _, _ => false

def entriesSameBy (floats : Binary64 → Binary64 → Bool) :
    List (String × Value) → List (String × Value) → Bool
  | [], [] => true
  | (k,v) :: es, (l,w) :: fs => k == l && v.isSameBy floats w && entriesSameBy floats es fs
  | _, _ => false

end

/-- Equality part by part, under which not-a-number is not the same as itself. -/
def isSame (v w : Value) : Bool := v.isSameBy Binary64.sameNumber w

/-- Whether neither value comes before the other; values that are no numbers are not compared. -/
def comparesEqual (v w : Value) : Bool :=
  match v.compareNumbers w with
  | .ok .eq => true
  | _ => false

mutual

def isEqualBy (floats : Binary64 → Binary64 → Bool) (v w : Value) : Bool :=
  match v.isNumeric, w.isNumeric with
  | true, true => v.comparesEqual w
  | true, false | false, true => false
  | false, false =>
    match v, w with
    | .str s, .str t | .str s, .safe t | .safe s, .str t | .safe s, .safe t => s == t
    | .list vs, .list ws => vs.length == ws.length && areEqualBy floats vs ws
    | .map es, .map fs => es.length == fs.length && entriesEqualBy floats es fs
    | v, w => v.isSameBy floats w

def areEqualBy (floats : Binary64 → Binary64 → Bool) : List Value → List Value → Bool
  | v :: vs, w :: ws => v.isEqualBy floats w && areEqualBy floats vs ws
  | _, _ => true

def entriesEqualBy (floats : Binary64 → Binary64 → Bool) :
    List (String × Value) → List (String × Value) → Bool
  | (k,v) :: es, (l,w) :: fs => k == l && v.isEqualBy floats w && entriesEqualBy floats es fs
  | _, _ => true

end

def isEqual (v w : Value) : Bool := v.isEqualBy Binary64.sameNumber w

end Stencil.Value
