import Stencil.Proofs.Term.Derivable
import Stencil.Term.Eval

set_option autoImplicit false

namespace Stencil

section

variable {ε α β : Type}

theorem toOption_bind (r : Except ε α) (k : α → Except ε β) :
    (r >>= k).toOption = r.toOption.bind fun a => (k a).toOption := by
  cases r <;> rfl

theorem toOption_map (r : Except ε α) (g : α → β) : (r.map g).toOption = r.toOption.map g := by
  cases r <;> rfl

theorem toOption_placedAt (s : Span) (r : Except Cause α) :
    (Except.placedAt s r).toOption = r.toOption := by
  cases r <;> rfl

theorem toOption_eq_some_iff {r : Except ε α} {a : α} : r.toOption = some a ↔ r = .ok a := by
  cases r <;> simp [Except.toOption]

end

theorem Env.toOption_call (env : Env) {f g : Located String} (h : f.value = g.value)
    (values : List Value) (s s' : Span) :
    (env.call f values s).toOption = (env.call g values s').toOption := by
  unfold call
  rw [h]
  cases Table.get? env.functions g.value with
  | none => rfl
  | some function =>
    dsimp only
    cases function ⟨values,env.scope⟩ <;> rfl

namespace Term

theorem toOption_boundOf (v : Value) (s s' : Span) :
    (boundOf v s).toOption = (boundOf v s').toOption := by
  cases v <;> simp only [boundOf,toOption_placedAt]

variable (env : Env)

mutual

/-- By induction on the term: only the places of failures change. -/
theorem toOption_eval_bare : (t : Term) → (t.bare.eval env).toOption = (t.eval env).toOption
  | .literal _ _ => rfl
  | .var n => by
    simp only [bare,eval,toOption_placedAt]
  | .unary op t _ => by
    simp only [bare,eval,toOption_bind,toOption_placedAt,toOption_eval_bare t]
  | .binary op l r _ => by
    simp only [bare,eval,toOption_bind,toOption_eval_bare l]
    congr 1
    funext a
    split
    · rfl
    · simp only [toOption_bind,toOption_placedAt,toOption_eval_bare r]
  | .call f args s => by
    simp only [bare,eval,toOption_bind,toOption_evalList_bare args]
    congr 1
    funext values
    have hname : (⟨f.value,nowhere⟩ : Located String).value = f.value := rfl
    exact env.toOption_call hname values nowhere s
  | .index c k _ => by
    simp only [bare,eval,toOption_bind,toOption_placedAt,toOption_eval_bare c,toOption_eval_bare k]
  | .slice c start stop step _ => by
    simp only [bare,eval,toOption_bind,toOption_placedAt,toOption_eval_bare c,
      toOption_evalBound_bare start,toOption_evalBound_bare stop,toOption_evalBound_bare step]
  | .list items _ => by
    simp only [bare,eval,toOption_map,toOption_evalList_bare items]

theorem toOption_evalList_bare : (ts : List Term) →
    (evalList env (listBare ts)).toOption = (evalList env ts).toOption
  | [] => rfl
  | t :: ts => by
    simp only [listBare,evalList,toOption_bind,toOption_eval_bare t,toOption_evalList_bare ts]

theorem toOption_evalBound_bare : (b : Option Term) →
    (evalBound env (boundBare b)).toOption = (evalBound env b).toOption
  | none => rfl
  | some t => by
    simp only [boundBare,evalBound,toOption_bind,toOption_eval_bare t]
    congr 1
    funext v
    exact toOption_boundOf v t.bare.span t.span

end

variable {env}

theorem eval_eq_ok_of_bare {t u : Term} {v : Value} (h : u.bare = t.bare)
    (ht : t.eval env = .ok v) : u.eval env = .ok v := by
  rw [← toOption_eq_some_iff] at ht ⊢
  rw [← toOption_eval_bare,h,toOption_eval_bare,ht]

end Term

end Stencil
