import Stencil.Proofs.Outcome
import Stencil.Term.Eval

set_option autoImplicit false

namespace Stencil

namespace Term

mutual

/-- The second term is the first one, except that anything may stand in the place of operands that
the evaluation of the first one does not reach: of a right operand behind a left one that decides,
and of all that comes behind a failure. -/
inductive SameReached (env : Env) : Term → Term → Prop
  | literal {l s} : SameReached env (.literal l s) (.literal l s)
  | var {n} : SameReached env (.var n) (.var n)
  | unary {op t t' s} : SameReached env t t' → SameReached env (.unary op t s) (.unary op t' s)
  | binary {op l l' r r' s} : SameReached env l l' →
      (∀ a, l.eval env = .ok a → op.isDecidedBy a = false → SameReached env r r') →
      SameReached env (.binary op l r s) (.binary op l' r' s)
  | call {f args args' s} : SameReachedList env args args' →
      SameReached env (.call f args s) (.call f args' s)
  | index {c c' k k' s} : SameReached env c c' →
      (∀ v, c.eval env = .ok v → SameReached env k k') →
      SameReached env (.index c k s) (.index c' k' s)
  | slice {c c' start start' stop stop' step step' s} : SameReached env c c' →
      (∀ v, c.eval env = .ok v → SameReachedBound env start start') →
      (∀ v i, c.eval env = .ok v → evalBound env start = .ok i →
        SameReachedBound env stop stop') →
      (∀ v i j, c.eval env = .ok v → evalBound env start = .ok i → evalBound env stop = .ok j →
        SameReachedBound env step step') →
      SameReached env (.slice c start stop step s) (.slice c' start' stop' step' s)
  | list {items items' s} : SameReachedList env items items' →
      SameReached env (.list items s) (.list items' s)

inductive SameReachedList (env : Env) : List Term → List Term → Prop
  | nil : SameReachedList env [] []
  | cons {t t' ts ts'} : SameReached env t t' →
      (∀ v, t.eval env = .ok v → SameReachedList env ts ts') →
      SameReachedList env (t :: ts) (t' :: ts')

inductive SameReachedBound (env : Env) : Option Term → Option Term → Prop
  | none : SameReachedBound env none none
  | some {t t'} : SameReached env t t' → SameReachedBound env (some t) (some t')

end

variable {env : Env}

theorem SameReached.span_eq {t t' : Term} (h : t.SameReached env t') : t'.span = t.span := by
  cases h <;> rfl

mutual

/-- By induction on what is reached. -/
theorem SameReached.eval_eq {t t' : Term} : t.SameReached env t' → t'.eval env = t.eval env
  | .literal | .var => rfl
  | .unary h => by
    simp only [eval,h.eval_eq]
  | .binary hl hr => by
    simp only [eval,hl.eval_eq]
    refine bind_congr_of_ok fun a ha => ?_
    split
    · rfl
    · rename_i hop
      rw [(hr a ha (Bool.eq_false_iff.mpr hop)).eval_eq]
  | .call h => by
    simp only [eval,h.evalList_eq]
  | .index hc hk => by
    simp only [eval,hc.eval_eq]
    refine bind_congr_of_ok fun v hv => ?_
    rw [(hk v hv).eval_eq]
  | .slice hc hstart hstop hstep => by
    simp only [eval,hc.eval_eq]
    refine bind_congr_of_ok fun v hv => ?_
    rw [(hstart v hv).evalBound_eq]
    refine bind_congr_of_ok fun i hi => ?_
    rw [(hstop v i hv hi).evalBound_eq]
    refine bind_congr_of_ok fun j hj => ?_
    rw [(hstep v i j hv hi hj).evalBound_eq]
  | .list h => by
    simp only [eval,h.evalList_eq]

theorem SameReachedList.evalList_eq {ts ts' : List Term} :
    SameReachedList env ts ts' → evalList env ts' = evalList env ts
  | .nil => rfl
  | .cons h hs => by
    simp only [evalList,h.eval_eq]
    refine bind_congr_of_ok fun v hv => ?_
    rw [(hs v hv).evalList_eq]

theorem SameReachedBound.evalBound_eq {b b' : Option Term} :
    SameReachedBound env b b' → evalBound env b' = evalBound env b
  | .none => rfl
  | .some h => by
    simp only [evalBound,h.eval_eq,h.span_eq]

end

mutual

theorem sameReached_self : (t : Term) → t.SameReached env t
  | .literal _ _ => .literal
  | .var _ => .var
  | .unary _ t _ => .unary (sameReached_self t)
  | .binary _ l r _ => .binary (sameReached_self l) fun _ _ _ => sameReached_self r
  | .call _ args _ => .call (sameReachedList_self args)
  | .index c k _ => .index (sameReached_self c) fun _ _ => sameReached_self k
  | .slice c start stop step _ => .slice (sameReached_self c) (fun _ _ => sameReachedBound_self start)
    (fun _ _ _ _ => sameReachedBound_self stop) fun _ _ _ _ _ _ => sameReachedBound_self step
  | .list items _ => .list (sameReachedList_self items)

theorem sameReachedList_self : (ts : List Term) → SameReachedList env ts ts
  | [] => .nil
  | t :: ts => .cons (sameReached_self t) fun _ _ => sameReachedList_self ts

theorem sameReachedBound_self : (b : Option Term) → SameReachedBound env b b
  | none => .none
  | some t => .some (sameReached_self t)

end

theorem eval_logical {op : BinaryOp} (hop : op = .or ∨ op = .and) {l : Term} {a : Value}
    (ha : l.eval env = .ok a) (r : Term) (s : Span) :
    (Term.binary op l r s).eval env = if op.isDecidedBy a then .ok a else r.eval env := by
  have happly (b : Value) : Except.placedAt s (op.apply a b) = .ok b := by
    obtain rfl | rfl := hop <;> rfl
  rw [eval,ha]
  show (if op.isDecidedBy a then .ok a
    else r.eval env >>= fun b => Except.placedAt s (op.apply a b) : Except Fault Value) = _
  simp only [happly]
  cases r.eval env <;> rfl

end Term

end Stencil
