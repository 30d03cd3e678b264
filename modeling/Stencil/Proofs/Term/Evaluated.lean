import Stencil.Term.Evaluate

set_option autoImplicit false

namespace Stencil

namespace Except

variable {α β : Type} (source : String) (span : Span)

theorem enriched_ofFault (r : Except Fault α) :
    enriched source span (r.mapError (Error.ofFault source)) =
      r.mapError (Error.ofFault source) := by
  cases r <;> rfl

theorem enriched_raised (r : Except Cause α) :
    enriched source span (raised r) = (placedAt span r).mapError (Error.ofFault source) := by
  cases r <;> rfl

theorem enriched_bind (r : Except Fault α) (k : α → Except Error β) :
    enriched source span (r.mapError (Error.ofFault source) >>= k) =
      r.mapError (Error.ofFault source) >>= fun a => enriched source span (k a) := by
  cases r <;> rfl

theorem mapError_bind (r : Except Fault α) (k : α → Except Fault β) :
    (r >>= k).mapError (Error.ofFault source) =
      r.mapError (Error.ofFault source) >>= fun a => (k a).mapError (Error.ofFault source) := by
  cases r <;> rfl

end Except

namespace Term
open Stencil.Except

variable (env : Env) (source : String)

theorem evaluate_bound (v : Value) (span : Span) :
    (match v with
      | .none => (pure none : Except Error (Option Int64))
      | v => enriched source span (raised (v.toInteger.map some))) =
      (boundOf v span).mapError (Error.ofFault source) := by
  cases v <;> first | rfl | exact enriched_raised source span _

mutual

/-- Of the places that an error is given on its way, the one where it was raised counts. By induction
along the terms: what comes out of an operand has its place. -/
theorem evaluate_eq : ∀ t : Term,
    t.evaluate env source = (t.eval env).mapError (Error.ofFault source)
  | .literal _ _ => rfl
  | .var n => enriched_raised source n.span _
  | .unary op t span => by
    simp only [evaluate,eval,evaluate_eq t,enriched_bind,mapError_bind,enriched_raised]
  | .binary op l r span => by
    simp only [evaluate,eval,evaluate_eq l,evaluate_eq r,enriched_bind,mapError_bind]
    refine bind_congr fun a => ?_
    split
    · rfl
    · simp only [enriched_bind,mapError_bind,enriched_raised]
  | .call f args span => by
    simp only [evaluate,eval,evaluateList_eq args,enriched_bind,mapError_bind,enriched_ofFault]
  | .index c k span => by
    simp only [evaluate,eval,evaluate_eq c,evaluate_eq k,enriched_bind,mapError_bind,enriched_raised]
  | .slice c start stop step span => by
    simp only [evaluate,eval,evaluate_eq c,evaluateBound_eq start,evaluateBound_eq stop,
      evaluateBound_eq step,enriched_bind,mapError_bind,enriched_raised]
  | .list items span => by
    simp only [evaluate,eval,evaluateList_eq items,enriched_bind]
    cases evalList env items <;> rfl

theorem evaluateList_eq : ∀ ts : List Term,
    evaluateList env source ts = (evalList env ts).mapError (Error.ofFault source)
  | [] => rfl
  | t :: ts => by
    simp only [evaluateList,evalList,evaluate_eq t,evaluateList_eq ts,mapError_bind]
    rfl

theorem evaluateBound_eq : ∀ bound : Option Term,
    evaluateBound env source bound = (evalBound env bound).mapError (Error.ofFault source)
  | none => rfl
  | some t => by
    simp only [evaluateBound,evalBound,evaluate_eq t,mapError_bind]
    exact bind_congr fun v => evaluate_bound source v t.span

end

end Term

end Stencil
