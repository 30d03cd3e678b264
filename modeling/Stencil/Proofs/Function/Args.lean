import Stencil.Function.Basic
import Stencil.Proofs.Outcome

set_option autoImplicit false

namespace Stencil.Args

variable {args : Args} {k : Nat} {i : Int64} {v : Value} {s : String}

theorem get_eq_ok_iff : args.get k = .ok v ↔ args.values[k]? = some v := by
  unfold get
  cases args.values[k]? <;> simp

theorem withMessage_eq_ok_iff {α : Type} {r : Except Cause α} {a : α} :
    withMessage r = .ok a ↔ r = .ok a := by
  cases r <;> simp [withMessage]

theorem expect_eq_ok_iff : args.expect k = .ok () ↔ args.values.length = k := by
  unfold expect
  split <;> simp_all

theorem integer_eq_ok_iff : args.integer k = .ok i ↔
    ∃ v, args.values[k]? = some v ∧ v.toInteger = .ok i := by
  simp only [integer,bind_eq_ok_iff,get_eq_ok_iff,withMessage_eq_ok_iff]

theorem toInteger_of_integer (hv : args.values[k]? = some v) (h : args.integer k = .ok i) :
    v.toInteger = .ok i := by
  obtain ⟨u,hu,hi⟩ := integer_eq_ok_iff.mp h
  obtain rfl : v = u := Option.some.inj (hv.symm.trans hu)
  exact hi

theorem string_of_asText? (hv : args.values[k]? = some v) (h : v.asText? = some s) :
    args.string k = .ok s := by
  refine bind_eq_ok_iff.mpr ⟨v,get_eq_ok_iff.mpr hv,?_⟩
  rw [h]
  rfl

end Stencil.Args
