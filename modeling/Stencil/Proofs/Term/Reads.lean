import Stencil.Proofs.Term.Plain

set_option autoImplicit false

namespace Stencil.Term

mutual

def vars : Term → List String
  | .literal _ _ => []
  | .var n => [n.value]
  | .unary _ t _ => t.vars
  | .binary _ l r _ => l.vars ++ r.vars
  | .call _ args _ => listVars args
  | .index c k _ => c.vars ++ k.vars
  | .slice c start stop step _ =>
    c.vars ++ (boundVars start ++ (boundVars stop ++ boundVars step))
  | .list items _ => listVars items

def listVars : List Term → List String
  | [] => []
  | t :: ts => t.vars ++ listVars ts

def boundVars : Option Term → List String
  | none => []
  | some t => t.vars

end

/-- The term calls nothing, and its variables are among `N`. -/
def ReadsOnly (N : String → Prop) (t : Term) : Prop := t.calls = [] ∧ ∀ x ∈ t.vars, N x

def ListReadsOnly (N : String → Prop) (ts : List Term) : Prop :=
  listCalls ts = [] ∧ ∀ x ∈ listVars ts, N x

def BoundReadsOnly (N : String → Prop) (b : Option Term) : Prop :=
  boundCalls b = [] ∧ ∀ x ∈ boundVars b, N x

section

variable {N : String → Prop} {t l r c k : Term} {ts : List Term} {start stop step : Option Term}
  {span : Span}

@[simp] theorem readsOnly_var {n : Located String} : ReadsOnly N (.var n) ↔ N n.value := by
  simp [ReadsOnly,calls,vars]

@[simp] theorem readsOnly_unary {op : UnaryOp} :
    ReadsOnly N (.unary op t span) ↔ t.ReadsOnly N := by
  simp [ReadsOnly,calls,vars]

@[simp] theorem readsOnly_binary {op : BinaryOp} :
    ReadsOnly N (.binary op l r span) ↔ l.ReadsOnly N ∧ r.ReadsOnly N := by
  simp only [ReadsOnly,calls,vars,List.append_eq_nil_iff,List.forall_mem_append]
  exact and_and_and_comm

@[simp] theorem not_readsOnly_call {f : Located String} : ¬ReadsOnly N (.call f ts span) := by
  simp [ReadsOnly,calls]

@[simp] theorem readsOnly_index :
    ReadsOnly N (.index c k span) ↔ c.ReadsOnly N ∧ k.ReadsOnly N := by
  simp only [ReadsOnly,calls,vars,List.append_eq_nil_iff,List.forall_mem_append]
  exact and_and_and_comm

@[simp] theorem readsOnly_slice : ReadsOnly N (.slice c start stop step span) ↔
    c.ReadsOnly N ∧ BoundReadsOnly N start ∧ BoundReadsOnly N stop ∧ BoundReadsOnly N step := by
  simp only [ReadsOnly,BoundReadsOnly,calls,vars,List.append_eq_nil_iff,List.forall_mem_append]
  tauto

@[simp] theorem readsOnly_list : ReadsOnly N (.list ts span) ↔ ListReadsOnly N ts := by
  simp [ReadsOnly,ListReadsOnly,calls,vars]

@[simp] theorem listReadsOnly_cons :
    ListReadsOnly N (t :: ts) ↔ t.ReadsOnly N ∧ ListReadsOnly N ts := by
  simp only [ReadsOnly,ListReadsOnly,listCalls,listVars,List.append_eq_nil_iff,
    List.forall_mem_append]
  exact and_and_and_comm

@[simp] theorem boundReadsOnly_some : BoundReadsOnly N (some t) ↔ t.ReadsOnly N := by
  simp [ReadsOnly,BoundReadsOnly,boundCalls,boundVars]

end

section

variable {N : String → Prop} {env env' : Env}

mutual

theorem eval_congr (h : ∀ x, N x → env'.scope.get? x = env.scope.get? x) : (t : Term) →
    t.ReadsOnly N → t.eval env' = t.eval env
  | .literal _ _, _ => rfl
  | .var n, ht => by
    unfold eval Scope.lookup
    rw [h n.value (readsOnly_var.mp ht)]
  | .unary op t _, ht => by
    unfold eval
    rw [eval_congr h t (readsOnly_unary.mp ht)]
  | .binary op l r _, ht => by
    obtain ⟨hl,hr⟩ := readsOnly_binary.mp ht
    unfold eval
    rw [eval_congr h l hl,eval_congr h r hr]
  | .call _ _ _, ht => absurd ht not_readsOnly_call
  | .index c k _, ht => by
    obtain ⟨hc,hk⟩ := readsOnly_index.mp ht
    unfold eval
    rw [eval_congr h c hc,eval_congr h k hk]
  | .slice c start stop step _, ht => by
    obtain ⟨hc,hstart,hstop,hstep⟩ := readsOnly_slice.mp ht
    unfold eval
    rw [eval_congr h c hc,evalBound_congr h start hstart,evalBound_congr h stop hstop,
      evalBound_congr h step hstep]
  | .list items _, ht => by
    unfold eval
    rw [evalList_congr h items (readsOnly_list.mp ht)]

theorem evalList_congr (h : ∀ x, N x → env'.scope.get? x = env.scope.get? x) : (ts : List Term) →
    ListReadsOnly N ts → evalList env' ts = evalList env ts
  | [], _ => rfl
  | t :: ts, hts => by
    obtain ⟨ht,hrest⟩ := listReadsOnly_cons.mp hts
    unfold evalList
    rw [eval_congr h t ht,evalList_congr h ts hrest]

theorem evalBound_congr (h : ∀ x, N x → env'.scope.get? x = env.scope.get? x) :
    (b : Option Term) → BoundReadsOnly N b → evalBound env' b = evalBound env b
  | none, _ => rfl
  | some t, hb => by
    unfold evalBound
    rw [eval_congr h t (boundReadsOnly_some.mp hb)]

end

end

end Stencil.Term
