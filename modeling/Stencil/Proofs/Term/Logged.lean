import Stencil.Term.Eval
import Stencil.Term.Eval

set_option autoImplicit false

namespace Stencil

/-- Terms in the order in which their evaluation ended, and what they resulted in. -/
abbrev Log := List (Term × Except Fault Value)

structure Logged (α : Type) where
  log : Log
  result : Except Fault α

namespace Logged

variable {α β : Type}

instance : Monad Logged where
  pure a := ⟨[],.ok a⟩
  bind m k :=
    match m.result with
    | .ok a => ⟨m.log ++ (k a).log,(k a).result⟩
    | .error f => ⟨m.log,.error f⟩

def lift (r : Except Fault α) : Logged α := ⟨[],r⟩

def ended (t : Term) (m : Logged Value) : Logged Value := ⟨m.log ++ [(t,m.result)],m.result⟩

theorem result_bind (m : Logged α) (k : α → Logged β) :
    (m >>= k).result = m.result >>= fun a => (k a).result := by
  show (match m.result with | .ok a => _ | .error f => _ : Logged β).result = _
  cases m.result <;> rfl

theorem bind_of_ok {m : Logged α} {a : α} (h : m.result = .ok a) (k : α → Logged β) :
    m >>= k = ⟨m.log ++ (k a).log,(k a).result⟩ := by
  show (match m.result with | .ok a => _ | .error f => _ : Logged β) = _
  rw [h]

theorem bind_of_error {m : Logged α} {f : Fault} (h : m.result = .error f) (k : α → Logged β) :
    m >>= k = ⟨m.log,.error f⟩ := by
  show (match m.result with | .ok a => _ | .error f => _ : Logged β) = _
  rw [h]

end Logged

namespace Term
open Logged

mutual

def run (env : Env) : Term → Logged Value
  | .literal l s => ended (.literal l s) (pure l.toValue)
  | .var n => ended (.var n) (lift (Except.placedAt n.span (env.scope.lookup n.value)))
  | .unary op t s => ended (.unary op t s) do
    let v ← t.run env
    lift (Except.placedAt s (op.apply v))
  | .binary op l r s => ended (.binary op l r s) do
    let a ← l.run env
    if op.isDecidedBy a then return a
    let b ← r.run env
    lift (Except.placedAt s (op.apply a b))
  | .call f args s => ended (.call f args s) do
    let values ← runList env args
    lift (env.call f values s)
  | .index c k s => ended (.index c k s) do
    let container ← c.run env
    let key ← k.run env
    lift (Except.placedAt s (container.index key))
  | .slice c start stop step s => ended (.slice c start stop step s) do
    let container ← c.run env
    let first ← runBound env start
    let last ← runBound env stop
    let stride ← runBound env step
    lift (Except.placedAt s (container.slice first last stride))
  | .list items s => ended (.list items s) do
    let values ← runList env items
    return .list values

def runList (env : Env) : List Term → Logged (List Value)
  | [] => pure []
  | t :: ts => do
    let v ← t.run env
    let vs ← runList env ts
    return v :: vs

def runBound (env : Env) : Option Term → Logged (Option Int64)
  | none => pure none
  | some t => do
    let v ← t.run env
    lift (boundOf v t.span)

end

section Result

variable (env : Env)

mutual

/-- The log does not change what a term evaluates to. -/
theorem result_run : (t : Term) → (t.run env).result = t.eval env
  | .literal _ _ | .var _ => rfl
  | .unary _ t _ => by
    simp [run,eval,ended,result_bind,lift,result_run t]
  | .binary op l r s => by
    simp only [run,eval,ended,result_bind,lift,result_run l]
    congr 1
    funext a
    split
    · rfl
    · simp [result_bind,result_run r]
  | .call _ args _ => by
    simp [run,eval,ended,result_bind,lift,result_runList args]
  | .index c k _ => by
    simp [run,eval,ended,result_bind,lift,result_run c,result_run k]
  | .slice c start stop step _ => by
    simp [run,eval,ended,result_bind,lift,result_run c,result_runBound start,result_runBound stop,
      result_runBound step]
  | .list items _ => by
    simp only [run,eval,ended,result_bind,result_runList items]
    cases evalList env items <;> rfl

theorem result_runList : (ts : List Term) → (runList env ts).result = evalList env ts
  | [] => rfl
  | t :: ts => by
    simp only [runList,evalList,result_bind,result_run t,result_runList ts]
    rfl

theorem result_runBound : (b : Option Term) → (runBound env b).result = evalBound env b
  | none => rfl
  | some t => by
    simp only [runBound,evalBound,result_bind,result_run t]
    rfl

end

end Result

end Term

end Stencil
