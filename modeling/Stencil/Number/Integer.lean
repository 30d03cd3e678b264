import Stencil.Number.Decimal

/-!
The integers of the language: 64 bits with a sign. Arithmetic goes through the whole numbers, and a
result without a place among the 64-bit integers is no result.
-/

set_option autoImplicit false

namespace Stencil.Integer

def ofInt? (i : Int) : Option Int64 :=
  if (Int64.ofInt i).toInt = i then some (Int64.ofInt i) else none

theorem ofInt?_eq_some_iff {i : Int} {n : Int64} : ofInt? i = some n ↔ n.toInt = i := by
  unfold ofInt?
  constructor
  · intro h
    split at h
    · rename_i hi
      cases h
      exact hi
    · cases h
  · rintro rfl
    simp

def clamp (i : Int) : Int64 :=
  if i < Int64.minValue.toInt then Int64.minValue
  else if Int64.maxValue.toInt < i then Int64.maxValue
  else Int64.ofInt i

def textOfInt (i : Int) : String :=
  let ds := String.ofList (Decimal.toDigits i.natAbs)
  if i < 0 then "-" ++ ds else ds

def toText (n : Int64) : String := textOfInt n.toInt

def ofText? (s : String) : Option Int64 :=
  let (negative,ds) := Decimal.splitSign s.toList
  if ds ≠ [] ∧ ds.all Decimal.isDigit then
    ofInt? (if negative then -(Decimal.ofDigits ds : Int) else Decimal.ofDigits ds)
  else none

end Stencil.Integer
