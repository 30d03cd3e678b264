import Stencil.Error
import Stencil.Term.Eval

/-!
The value of a term, or an error in a source. On its way out of the terms that stand around the one
that fails, an error meets the span of each of them; it keeps the first place that it is given.
-/

set_option autoImplicit false

namespace Stencil

def Except.raised {α : Type} (r : Except Cause α) : Except Error α := r.mapError fun c => ⟨c,none,none⟩

def Except.enriched {α : Type} (source : String) (span : Span) (r : Except Error α) :
    Except Error α :=
  r.mapError fun e => e.placedAt source span

namespace Term

mutual

def evaluate (env : Env) (source : String) : Term → Except Error Value
  | .literal l span => Except.enriched source span (.ok l.toValue)
  | .var n => Except.enriched source n.span (Except.raised (env.scope.lookup n.value))
  | .unary op t span => Except.enriched source span do
    let v ← t.evaluate env source
    Except.raised (op.apply v)
  | .binary op l r span => Except.enriched source span do
    let a ← l.evaluate env source
    if op.isDecidedBy a then return a
    let b ← r.evaluate env source
    Except.raised (op.apply a b)
  | .call f args span => Except.enriched source span do
    let values ← evaluateList env source args
    (env.call f values span).mapError (Error.ofFault source)
  | .index c k span => Except.enriched source span do
    let container ← c.evaluate env source
    let key ← k.evaluate env source
    Except.raised (container.index key)
  | .slice c start stop step span => Except.enriched source span do
    let container ← c.evaluate env source
    let start ← evaluateBound env source start
    let stop ← evaluateBound env source stop
    let step ← evaluateBound env source step
    Except.raised (container.slice start stop step)
  | .list items span => Except.enriched source span do
    return .list (← evaluateList env source items)

def evaluateList (env : Env) (source : String) : List Term → Except Error (List Value)
  | [] => .ok []
  | t :: ts => do
    let v ← t.evaluate env source
    let vs ← evaluateList env source ts
    return v :: vs

def evaluateBound (env : Env) (source : String) : Option Term → Except Error (Option Int64)
  | none => .ok none
  | some t => do
    match ← t.evaluate env source with
    | .none => return none
    | v => Except.enriched source t.span (Except.raised (v.toInteger.map some))

end

end Term

end Stencil
