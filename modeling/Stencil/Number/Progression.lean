import Stencil.Number.Integer

set_option autoImplicit false

namespace Stencil.Integer

def checkedAdd (a b : Int64) : Option Int64 := ofInt? (a.toInt + b.toInt)

def saturatingAdd (a b : Int64) : Int64 := clamp (a.toInt + b.toInt)

/-- The integers `i`, `i + step`, … that come before `stop` in the direction of `step`, up to the
first sum that is no 64-bit integer. -/
def progression (stop step i : Int64) : List Int64 :=
  if (0 < step ∧ i < stop) ∨ (step < 0 ∧ stop < i) then
    i :: match _h : checkedAdd i step with
      | some j => progression stop step j
      | none => []
  else []
termination_by (if 0 < step then stop.toInt - i.toInt else i.toInt - stop.toInt).toNat
decreasing_by
  have hj := ofInt?_eq_some_iff.1 _h
  simp only [Int64.lt_iff_toInt_lt,Int64.toInt_zero] at *
  split <;> omega

end Stencil.Integer
