import Stencil.Function.Basic
import Stencil.Term.Basic
import Stencil.Value.Access

/-!
The value of a term.

Operands are evaluated from left to right. A failure is placed at the innermost term that caused it:
at the term itself, at the name of a function that is not there, or at a bound of a slice that is no
number.
-/

set_option autoImplicit false

namespace Stencil

structure Env where
  functions : List (String × Function)
  scope : Scope

namespace UnaryOp

def apply : UnaryOp → Value → Except Cause Value
  | .not, v => .ok (.bool (!v.isTrue))
  | .neg, v => v.negate

end UnaryOp

namespace BinaryOp

/-- Whether the left operand alone decides the result, which then is that operand. -/
def isDecidedBy : BinaryOp → Value → Bool
  | .or, v => v.isTrue
  | .and, v => !v.isTrue
  | _, _ => false

def comparison (holds : Ordering → Bool) (a b : Value) : Except Cause Value :=
  (a.compareNumbers b).map fun o => .bool (holds o)

def apply : BinaryOp → Value → Value → Except Cause Value
  | .or, _, b => .ok b
  | .and, _, b => .ok b
  | .eq, a, b => .ok (.bool (a.isEqual b))
  | .ne, a, b => .ok (.bool (!a.isEqual b))
  | .lt, a, b => comparison Ordering.isLT a b
  | .gt, a, b => comparison Ordering.isGT a b
  | .le, a, b => comparison Ordering.isLE a b
  | .ge, a, b => comparison Ordering.isGE a b
  | .isIn, a, b => (b.contains a).map .bool
  | .add, a, b => a.add b
  | .sub, a, b => a.sub b
  | .mul, a, b => a.mul b
  | .div, a, b => a.div b
  | .rem, a, b => a.rem b

end BinaryOp

namespace Env

def call (env : Env) (function : Located String) (values : List Value) (span : Span) :
    Except Fault Value :=
  match Table.get? env.functions function.value with
  | none => .error ⟨.unknownFunction function.value,function.span⟩
  | some f =>
    match f ⟨values,env.scope⟩ with
    | .ok v => .ok v
    | .error message => .error ⟨.failedCall function.value message,span⟩

end Env

namespace Term

def boundOf (v : Value) (span : Span) : Except Fault (Option Int64) :=
  match v with
  | .none => .ok none
  | v => Except.placedAt span (v.toInteger.map some)

mutual

def eval (env : Env) : Term → Except Fault Value
  | .literal l _ => .ok l.toValue
  | .var n => Except.placedAt n.span (env.scope.lookup n.value)
  | .unary op t span => do
    let v ← t.eval env
    Except.placedAt span (op.apply v)
  | .binary op l r span => do
    let a ← l.eval env
    if op.isDecidedBy a then return a
    let b ← r.eval env
    Except.placedAt span (op.apply a b)
  | .call f args span => do
    let values ← evalList env args
    env.call f values span
  | .index c k span => do
    let container ← c.eval env
    let key ← k.eval env
    Except.placedAt span (container.index key)
  | .slice c start stop step span => do
    let container ← c.eval env
    let start ← evalBound env start
    let stop ← evalBound env stop
    let step ← evalBound env step
    Except.placedAt span (container.slice start stop step)
  | .list items _ => (evalList env items).map .list

def evalList (env : Env) : List Term → Except Fault (List Value)
  | [] => .ok []
  | t :: ts => do
    let v ← t.eval env
    let vs ← evalList env ts
    return v :: vs

def evalBound (env : Env) : Option Term → Except Fault (Option Int64)
  | none => .ok none
  | some t => do boundOf (← t.eval env) t.span

end

end Term

end Stencil
