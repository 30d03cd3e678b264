import Stencil.Proofs.Outcome
import Stencil.Proofs.Term.Logged

set_option autoImplicit false

namespace Stencil

namespace Term
open Logged

/-- The operands of a term, in the order in which they are evaluated. -/
def operands : Term → List Term
  | .literal _ _ | .var _ => []
  | .unary _ t _ => [t]
  | .binary _ l r _ => [l,r]
  | .call _ args _ => args
  | .index c k _ => [c,k]
  | .slice c start stop step _ => c :: (start.toList ++ (stop.toList ++ step.toList))
  | .list items _ => items

inductive Within (u : Term) : Term → Prop
  | refl : Within u u
  | operand {o t} : Within u o → o ∈ t.operands → Within u t

/-- What a term fails with itself, after those of its operands that it needs: at its own place, at the
name of a function that is not there, or at a bound of a slice that is no number. -/
inductive FailsItself (env : Env) : Term → Fault → Prop
  | var {n c} : env.scope.lookup n.value = .error c → FailsItself env (.var n) ⟨c,n.span⟩
  | unary {op t s v c} : t.eval env = .ok v → op.apply v = .error c →
      FailsItself env (.unary op t s) ⟨c,s⟩
  | binary {op l r s a b c} : l.eval env = .ok a → op.isDecidedBy a = false →
      r.eval env = .ok b → op.apply a b = .error c → FailsItself env (.binary op l r s) ⟨c,s⟩
  | unknown {f args s vs} : evalList env args = .ok vs → Table.get? env.functions f.value = none →
      FailsItself env (.call f args s) ⟨.unknownFunction f.value,f.span⟩
  | failed {f args s vs function message} : evalList env args = .ok vs →
      Table.get? env.functions f.value = some function →
      function ⟨vs,env.scope⟩ = .error message →
      FailsItself env (.call f args s) ⟨.failedCall f.value message,s⟩
  | index {c k s v w cause} : c.eval env = .ok v → k.eval env = .ok w →
      v.index w = .error cause → FailsItself env (.index c k s) ⟨cause,s⟩
  | start {c t stop step s v w cause} : c.eval env = .ok v → t.eval env = .ok w → w ≠ .none →
      w.toInteger = .error cause → FailsItself env (.slice c (some t) stop step s) ⟨cause,t.span⟩
  | stop {c start t step s v i w cause} : c.eval env = .ok v → evalBound env start = .ok i →
      t.eval env = .ok w → w ≠ .none → w.toInteger = .error cause →
      FailsItself env (.slice c start (some t) step s) ⟨cause,t.span⟩
  | step {c start stop t s v i j w cause} : c.eval env = .ok v → evalBound env start = .ok i →
      evalBound env stop = .ok j → t.eval env = .ok w → w ≠ .none → w.toInteger = .error cause →
      FailsItself env (.slice c start stop (some t) s) ⟨cause,t.span⟩
  | slice {c start stop step s v i j k cause} : c.eval env = .ok v → evalBound env start = .ok i →
      evalBound env stop = .ok j → evalBound env step = .ok k →
      v.slice i j k = .error cause → FailsItself env (.slice c start stop step s) ⟨cause,s⟩

def Succeeds (env : Env) (t : Term) : Prop := ∃ v, t.eval env = .ok v

def logs (env : Env) (ts : List Term) : Log := ts.flatMap fun t => (t.run env).log

theorem logs_append (env : Env) (ts us : List Term) :
    logs env (ts ++ us) = logs env ts ++ logs env us :=
  List.flatMap_append

/-- The computation evaluates operands one after the other. It succeeds behind all of them, or it
fails with one of them or by itself. -/
inductive Gathers {α : Type} (env : Env) (own : Fault → Prop) (ops : List Term) : Logged α → Prop
  | succeeds {a} : (∀ o ∈ ops, o.Succeeds env) → Gathers env own ops ⟨logs env ops,.ok a⟩
  | passes {before o f} : before ++ [o] <+: ops → (∀ p ∈ before, p.Succeeds env) →
      o.eval env = .error f → Gathers env own ops ⟨logs env (before ++ [o]),.error f⟩
  | fails {before f} : before <+: ops → (∀ o ∈ before, o.Succeeds env) → own f →
      Gathers env own ops ⟨logs env before,.error f⟩

theorem error_of_placedAt {α : Type} {s : Span} {r : Except Cause α} {f : Fault}
    (h : Except.placedAt s r = .error f) : ∃ c, r = .error c ∧ f = ⟨c,s⟩ := by
  cases r with
  | ok a => cases h
  | error c => exact ⟨c,rfl,(Except.error.inj h).symm⟩

theorem error_of_boundOf {v : Value} {s : Span} {f : Fault} (h : boundOf v s = .error f) :
    v ≠ .none ∧ ∃ c, v.toInteger = .error c ∧ f = ⟨c,s⟩ := by
  unfold boundOf at h
  split at h
  · cases h
  · rename_i hne
    obtain ⟨c,hc,rfl⟩ := error_of_placedAt h
    exact ⟨hne,c,error_of_map hc,rfl⟩

section Gathered

variable {α β : Type} {env : Env} {own : Fault → Prop} {ops ops' : List Term}

theorem gathers_pure (a : α) : Gathers env own [] (pure a) := .succeeds (by simp)

theorem gathers_lift {r : Except Fault α} (h : ∀ f, r = .error f → own f) :
    Gathers env own [] (lift r) := by
  cases r with
  | ok a => exact .succeeds (by simp)
  | error f => exact .fails (List.prefix_rfl : [] <+: []) (by simp) (h f rfl)

theorem Gathers.bind {m : Logged α} {k : α → Logged β} (hm : Gathers env own ops m)
    (hk : ∀ a, m.result = .ok a → Gathers env own ops' (k a)) :
    Gathers env own (ops ++ ops') (m >>= k) := by
  cases hm with
  | @succeeds a hops =>
    have hrest := hk a rfl
    rw [bind_of_ok rfl]
    generalize k a = m' at hrest
    have hshift {before : List Term} (h : before <+: ops') : ops ++ before <+: ops ++ ops' :=
      (List.prefix_append_right_inj ops).mpr h
    cases hrest with
    | succeeds hops' =>
      simp only [← logs_append]
      exact .succeeds (List.forall_mem_append.mpr ⟨hops,hops'⟩)
    | passes hfirst hbefore ho =>
      simp only [← logs_append,← List.append_assoc]
      refine .passes ?_ (List.forall_mem_append.mpr ⟨hops,hbefore⟩) ho
      rw [List.append_assoc]
      exact hshift hfirst
    | fails hfirst hbefore hown =>
      simp only [← logs_append]
      exact .fails (hshift hfirst) (List.forall_mem_append.mpr ⟨hops,hbefore⟩) hown
  | passes hfirst hbefore ho =>
    rw [bind_of_error rfl]
    exact .passes (hfirst.trans (List.prefix_append _ _)) hbefore ho
  | fails hfirst hbefore hown =>
    rw [bind_of_error rfl]
    exact .fails (hfirst.trans (List.prefix_append _ _)) hbefore hown

theorem Gathers.bind_idle {m : Logged α} {k : α → Logged β} (hm : Gathers env own ops m)
    (hk : ∀ a, m.result = .ok a → Gathers env own [] (k a)) : Gathers env own ops (m >>= k) := by
  have h := hm.bind hk
  rwa [List.append_nil] at h

theorem Gathers.bind_lift {m : Logged α} {r : α → Except Fault β} (hm : Gathers env own ops m)
    (hr : ∀ a f, m.result = .ok a → r a = .error f → own f) :
    Gathers env own ops (m >>= fun a => lift (r a)) :=
  hm.bind_idle fun a ha => gathers_lift fun f hf => hr a f ha hf

theorem gathers_run (t : Term) : Gathers env own [t] (t.run env) := by
  have hresult := result_run env t
  cases h : t.run env with
  | mk log result =>
    have hlog : logs env [t] = log := by simp [logs,h]
    rw [h] at hresult
    subst hlog
    cases result with
    | ok v => exact .succeeds (by simpa using ⟨v,hresult.symm⟩)
    | error f => exact .passes (List.prefix_rfl : [] ++ [t] <+: [t]) (by simp) hresult.symm

theorem gathers_runList (ts : List Term) : Gathers env own ts (runList env ts) := by
  induction ts with
  | nil => exact gathers_pure []
  | cons t ts ih => exact (gathers_run t).bind fun v _ => ih.bind_lift fun _ _ _ => nofun

theorem gathers_runBound {b : Option Term}
    (h : ∀ t v cause, b = some t → t.eval env = .ok v → v ≠ .none → v.toInteger = .error cause →
      own ⟨cause,t.span⟩) : Gathers env own b.toList (runBound env b) := by
  cases b with
  | none => exact gathers_pure none
  | some t =>
    refine (gathers_run t).bind_lift fun v f hv hf => ?_
    rw [result_run] at hv
    obtain ⟨hne,c,hc,rfl⟩ := error_of_boundOf hf
    exact h t v c rfl hv hne hc

end Gathered

/-- A term ends behind some of its operands, the first ones, and if it fails then with one of them
or itself. -/
theorem run_eq_ended (env : Env) (t : Term) : ∃ ops m, ops <+: t.operands ∧
    Gathers env (t.FailsItself env) ops m ∧ t.run env = ended t m := by
  cases t with
  | literal l s => exact ⟨[],_,List.prefix_rfl,gathers_pure _,rfl⟩
  | var n =>
    refine ⟨[],_,List.prefix_rfl,gathers_lift fun f hf => ?_,rfl⟩
    obtain ⟨c,hc,rfl⟩ := error_of_placedAt hf
    exact .var hc
  | unary op t s =>
    refine ⟨[t],_,List.prefix_rfl,(gathers_run t).bind_lift fun v f hv hf => ?_,rfl⟩
    obtain ⟨c,hc,rfl⟩ := error_of_placedAt hf
    exact .unary (result_run env t ▸ hv) hc
  | binary op l r s =>
    by_cases hdecided : ∃ a, l.eval env = .ok a ∧ op.isDecidedBy a = true
    · obtain ⟨a,ha,hop⟩ := hdecided
      refine ⟨[l],_,List.prefix_append [l] [r],?_,rfl⟩
      refine (gathers_run l).bind_idle fun a' ha' => ?_
      obtain rfl : a = a' := Except.ok.inj (ha.symm.trans (result_run env l ▸ ha'))
      rw [if_pos hop]
      exact gathers_pure a
    · refine ⟨[l,r],_,List.prefix_rfl,?_,rfl⟩
      refine (gathers_run l).bind fun a ha => ?_
      rw [result_run] at ha
      have hop : op.isDecidedBy a = false := by
        simpa using fun h => hdecided ⟨a,ha,h⟩
      rw [if_neg (by simp [hop])]
      refine (gathers_run r).bind_lift fun b f hb hf => ?_
      obtain ⟨c,hc,rfl⟩ := error_of_placedAt hf
      exact .binary ha hop (result_run env r ▸ hb) hc
  | call g args s =>
    refine ⟨args,_,List.prefix_rfl,(gathers_runList args).bind_lift fun vs f hvs hf => ?_,rfl⟩
    rw [result_runList] at hvs
    unfold Env.call at hf
    split at hf
    · cases hf
      exact .unknown hvs ‹_›
    · split at hf
      · cases hf
      · cases hf
        exact .failed hvs ‹_› ‹_›
  | index c k s =>
    refine ⟨[c,k],_,List.prefix_rfl,(gathers_run c).bind fun v hv => ?_,rfl⟩
    refine (gathers_run k).bind_lift fun w f hw hf => ?_
    obtain ⟨cause,hcause,rfl⟩ := error_of_placedAt hf
    exact .index (result_run env c ▸ hv) (result_run env k ▸ hw) hcause
  | slice c start stop step s =>
    refine ⟨c :: (start.toList ++ (stop.toList ++ step.toList)),_,List.prefix_rfl,?_,rfl⟩
    refine (gathers_run c).bind fun v hv => ?_
    rw [result_run] at hv
    refine (gathers_runBound ?_).bind fun i hi => ?_
    · rintro t w cause rfl hw hne hcause
      exact .start hv hw hne hcause
    rw [result_runBound] at hi
    refine (gathers_runBound ?_).bind fun j hj => ?_
    · rintro t w cause rfl hw hne hcause
      exact .stop hv hi hw hne hcause
    rw [result_runBound] at hj
    refine (gathers_runBound ?_).bind_lift fun k f hk hf => ?_
    · rintro t w cause rfl hw hne hcause
      exact .step hv hi hj hw hne hcause
    rw [result_runBound] at hk
    obtain ⟨cause,hcause,rfl⟩ := error_of_placedAt hf
    exact .slice hv hi hj hk hcause
  | list items s =>
    exact ⟨items,_,List.prefix_rfl,(gathers_runList items).bind_lift (r := fun vs => .ok (.list vs))
      fun _ _ _ => nofun,rfl⟩

theorem sizeOf_operand {o t : Term} (h : o ∈ t.operands) : sizeOf o < sizeOf t := by
  have hbound {b : Option Term} (hb : o ∈ b.toList) : sizeOf o < sizeOf b := by
    cases b with
    | none => cases hb
    | some u =>
      obtain rfl := List.mem_singleton.mp hb
      simp
  cases t with
  | literal | var => cases h
  | unary | binary | index =>
    simp only [operands,List.mem_cons,List.not_mem_nil,or_false] at h
    obtain rfl | rfl := h <;> simp <;> omega
  | call _ args _ | list args _ =>
    have hargs : sizeOf o < sizeOf args := List.sizeOf_lt_of_mem h
    simp
    omega
  | slice c start stop step _ =>
    simp only [operands,List.mem_cons,List.mem_append] at h
    obtain rfl | h | h | h := h
    · simp
      omega
    all_goals
      have hlt := hbound h
      simp
      omega

theorem operands_induction {motive : Term → Prop}
    (step : ∀ t, (∀ o ∈ t.operands, motive o) → motive t) (t : Term) : motive t :=
  step t fun o _ => operands_induction step o
termination_by sizeOf t
decreasing_by exact sizeOf_operand ‹_›

section Blame

variable {env : Env}

theorem log_run (env : Env) (t : Term) : ∃ evaluated, evaluated <+: t.operands ∧
    (t.run env).log = logs env evaluated ++ [(t,t.eval env)] := by
  obtain ⟨ops,m,hops,hm,hrun⟩ := run_eq_ended env t
  rw [← result_run,hrun]
  cases hm with
  | succeeds _ => exact ⟨ops,hops,rfl⟩
  | passes hfirst _ _ => exact ⟨_,hfirst.trans hops,rfl⟩
  | fails hfirst _ _ => exact ⟨_,hfirst.trans hops,rfl⟩

theorem mem_log (t : Term) : ∀ e ∈ (t.run env).log, e.1.Within t ∧ e.2 = e.1.eval env := by
  induction t using operands_induction with
  | step t ih =>
    obtain ⟨evaluated,hfirst,hlog⟩ := log_run env t
    rw [hlog,logs]
    refine List.forall_mem_append.mpr ⟨fun e he => ?_,by simp [Within.refl]⟩
    obtain ⟨o,ho,he⟩ := List.mem_flatMap.mp he
    obtain ⟨hwithin,heval⟩ := ih o (hfirst.subset ho) e he
    exact ⟨.operand hwithin (hfirst.subset ho),heval⟩

theorem succeeds_of_mem_log (t : Term) :
    t.Succeeds env → ∀ e ∈ (t.run env).log, e.1.Succeeds env := by
  induction t using operands_induction with
  | step t ih =>
    intro ht
    obtain ⟨v,hv⟩ := ht
    obtain ⟨ops,m,hops,hm,hrun⟩ := run_eq_ended env t
    have hresult : m.result = t.eval env := by rw [← result_run,hrun,ended]
    rw [hrun,ended,hresult]
    cases hm with
    | succeeds hall =>
      refine List.forall_mem_append.mpr ⟨fun e he => ?_,by simpa using ⟨v,hv⟩⟩
      obtain ⟨o,ho,he⟩ := List.mem_flatMap.mp he
      exact ih o (hops.subset ho) (hall o ho) e he
    | passes _ _ _ | fails _ _ _ =>
      rw [hv] at hresult
      cases hresult

theorem succeeds_of_mem_logs {ts : List Term} (h : ∀ t ∈ ts, t.Succeeds env) :
    ∀ e ∈ logs env ts, e.1.Succeeds env := by
  intro e he
  obtain ⟨t,ht,he⟩ := List.mem_flatMap.mp he
  exact succeeds_of_mem_log t (h t ht) e he

/-- The log of a failure: what succeeded, then the term that fails itself, then the terms around it,
which fail in the same way. -/
structure Blames (env : Env) (f : Fault) (log before : Log) (u : Term) (around : Log) : Prop where
  log_eq : log = before ++ (u,.error f) :: around
  fails : u.FailsItself env f
  succeeded : ∀ e ∈ before, e.1.Succeeds env
  handed : ∀ e ∈ around, u.Within e.1 ∧ e.2 = .error f

theorem Blames.within {f : Fault} {t u : Term} {before around : Log}
    (h : Blames env f (t.run env).log before u around) : u.Within t := by
  have hmem : (u,.error f) ∈ (t.run env).log := by
    rw [h.log_eq]
    exact List.mem_append_right _ List.mem_cons_self
  exact (mem_log t _ hmem).1

/-- By induction on the term: it fails itself, or with the last operand that is evaluated. -/
theorem exists_blames (t : Term) : ∀ f, t.eval env = .error f →
    ∃ before u around, Blames env f (t.run env).log before u around := by
  induction t using operands_induction with
  | step t ih =>
    intro f hf
    obtain ⟨ops,m,hops,hm,hrun⟩ := run_eq_ended env t
    have hresult : m.result = t.eval env := by rw [← result_run,hrun,ended]
    rw [hrun,ended,hresult,hf]
    rw [hf] at hresult
    cases hm with
    | succeeds _ => cases hresult
    | fails _ hall hown =>
      cases hresult
      exact ⟨_,t,[],rfl,hown,succeeds_of_mem_logs hall,by simp⟩
    | @passes operands o g hfirst hall ho =>
      cases hresult
      have hmem : o ∈ t.operands := hops.subset (hfirst.subset (by simp))
      obtain ⟨before,u,around,h⟩ := ih o hmem f ho
      refine ⟨logs env operands ++ before,u,around ++ [(t,.error f)],?_,h.fails,?_,?_⟩
      · simp [logs,h.log_eq]
      · exact List.forall_mem_append.mpr ⟨succeeds_of_mem_logs hall,h.succeeded⟩
      · refine List.forall_mem_append.mpr ⟨h.handed,?_⟩
        simpa using .operand h.within hmem

/-- The operands of a term are evaluated in their order, from the first one on, and then the term
itself ends. Where it fails, it fails as a term inside it does that fails itself: at its own place, at
the name of an unknown function or at a bound. All that was evaluated before has a value, and the
terms around hand the failure on as it is. -/
theorem eval_fails_innermost (env : Env) (t : Term) :
    (t.run env).result = t.eval env ∧
    (∃ evaluated, evaluated <+: t.operands ∧
      (t.run env).log = logs env evaluated ++ [(t,t.eval env)]) ∧
    (∀ e ∈ (t.run env).log, e.1.Within t ∧ e.2 = e.1.eval env) ∧
    ∀ f, t.eval env = .error f → ∃ before u around, u.Within t ∧
      Blames env f (t.run env).log before u around := by
  refine ⟨result_run env t,log_run env t,mem_log t,fun f hf => ?_⟩
  obtain ⟨before,u,around,h⟩ := exists_blames t f hf
  exact ⟨before,u,around,h.within,h⟩

/-- The second argument of a call is a slice with a bound that is no number. Neither its other bound,
nor the third argument, nor the function is there. -/
theorem eval_fails_innermost_of_bound :
    let bound : Term := .literal (.str "x") ⟨19,22⟩
    let u : Term := .slice (.literal (.str "ab") ⟨14,18⟩) (some bound)
      (some (.var ⟨"missing",⟨23,30⟩⟩)) none ⟨14,31⟩
    let t : Term := .call ⟨"nope",⟨3,7⟩⟩
      [.literal .null ⟨8,12⟩,u,.var ⟨"missing",⟨33,40⟩⟩] ⟨3,41⟩
    let env : Env := ⟨[],Scope.root []⟩
    let f : Fault := ⟨.notNumeric "x",⟨19,22⟩⟩
    t.eval env = .error f ∧ ∃ before u around, u.Within t ∧
      Blames env f (t.run env).log before u around := by
  intro bound u t env f
  have hf : t.eval env = .error f := by
    with_unfolding_all rfl
  exact ⟨hf,(eval_fails_innermost env t).2.2.2 f hf⟩

end Blame

end Term

end Stencil
