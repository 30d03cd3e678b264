import Mathlib.Data.List.Forall2
import Mathlib.Data.Option.Basic
import Stencil.Proofs.Render.Compared
import Stencil.Proofs.Render.Frames
import Stencil.Proofs.Term.Reads

set_option autoImplicit false

namespace Stencil

variable {N : String → Prop}

def Frame.AgreeOn (N : String → Prop) (f g : Frame) : Prop :=
  ∀ x, N x → Table.get? g x = Table.get? f x

namespace Frame.AgreeOn

variable {f g h : Frame} {x : String} {v : Value}

theorem refl (f : Frame) : AgreeOn N f f := fun _ _ => rfl

theorem symm (hfg : AgreeOn N f g) : AgreeOn N g f := fun x hx => (hfg x hx).symm

theorem trans (hfg : AgreeOn N f g) (hgh : AgreeOn N g h) : AgreeOn N f h :=
  fun x hx => (hgh x hx).trans (hfg x hx)

theorem contains_eq (h : AgreeOn N f g) (hx : N x) : Table.contains g x = Table.contains f x := by
  unfold Table.contains
  rw [h x hx]

theorem insert (h : AgreeOn N f g) (x : String) (v : Value) :
    AgreeOn N (Table.insert x v f) (Table.insert x v g) := by
  intro y hy
  by_cases hyx : y = x
  · subst hyx
    rw [Table.get?_insert_self,Table.get?_insert_self]
  · rw [Table.get?_insert_of_ne hyx,Table.get?_insert_of_ne hyx,h y hy]

theorem insert_self (hx : ¬N x) : AgreeOn N f (Table.insert x v f) := by
  intro y hy
  have hne : y ≠ x := by
    rintro rfl
    exact hx hy
  exact Table.get?_insert_of_ne hne v f

end Frame.AgreeOn

def Scope.AgreeOn (N : String → Prop) (s s' : Scope) : Prop :=
  Frame.AgreeOn N s.innermost s'.innermost ∧ List.Forall₂ (Frame.AgreeOn N) s.outer s'.outer

namespace Scope.AgreeOn

variable {s s' s'' : Scope} {fs gs hs : List Frame} {f : Frame} {x : String} {v : Value}

theorem frames_refl (fs : List Frame) : List.Forall₂ (Frame.AgreeOn N) fs fs :=
  List.forall₂_same.mpr fun f _ => .refl f

theorem frames_symm (h : List.Forall₂ (Frame.AgreeOn N) fs gs) :
    List.Forall₂ (Frame.AgreeOn N) gs fs :=
  h.flip.imp fun _ _ => Frame.AgreeOn.symm

theorem frames_trans (hfg : List.Forall₂ (Frame.AgreeOn N) fs gs)
    (hgh : List.Forall₂ (Frame.AgreeOn N) gs hs) : List.Forall₂ (Frame.AgreeOn N) fs hs :=
  Frame.forall₂_trans Frame.AgreeOn.trans hfg hgh

theorem symm (h : s.AgreeOn N s') : s'.AgreeOn N s := ⟨h.1.symm,frames_symm h.2⟩

theorem trans (h : s.AgreeOn N s') (h' : s'.AgreeOn N s'') : s.AgreeOn N s'' :=
  ⟨h.1.trans h'.1,frames_trans h.2 h'.2⟩

theorem findSome?_get? (hx : N x) (h : List.Forall₂ (Frame.AgreeOn N) fs gs) :
    (gs.findSome? fun g => Table.get? g x) = fs.findSome? fun f => Table.get? f x := by
  induction h with
  | nil => rfl
  | cons hf _ ih => rw [List.findSome?_cons,List.findSome?_cons,hf x hx,ih]

theorem get? (h : s.AgreeOn N s') (hx : N x) : s'.get? x = s.get? x :=
  findSome?_get? hx (.cons h.1 h.2)

theorem push (h : s.AgreeOn N s') (f : Frame) : (s.push f).AgreeOn N (s'.push f) :=
  ⟨.refl f,.cons h.1 h.2⟩

theorem pop (h : s.AgreeOn N s') : s.pop.AgreeOn N s'.pop := by
  obtain ⟨f,fs⟩ := s
  obtain ⟨g,gs⟩ := s'
  obtain ⟨hinnermost,houter⟩ := h
  cases houter with
  | nil => exact ⟨hinnermost,.nil⟩
  | cons hf hrest => exact ⟨hf,hrest⟩

theorem define (h : s.AgreeOn N s') (x : String) (v : Value) :
    (s.define x v).AgreeOn N (s'.define x v) :=
  ⟨h.1.insert x v,h.2⟩

theorem rebind? (hx : N x) (v : Value) (h : List.Forall₂ (Frame.AgreeOn N) fs gs) :
    Option.Rel (List.Forall₂ (Frame.AgreeOn N)) (Scope.rebind? x v fs) (Scope.rebind? x v gs) := by
  induction h with
  | nil => exact .none
  | @cons f g fs gs hf hrest ih =>
    simp only [Scope.rebind?,hf.contains_eq hx]
    split
    · exact .some (.cons (hf.insert x v) hrest)
    · generalize Scope.rebind? x v fs = a, Scope.rebind? x v gs = b at ih
      cases ih with
      | none => exact .none
      | some hrel => exact .some (.cons hf hrel)

theorem assign_self (hx : ¬N x) : s.AgreeOn N (s.assign x v) := by
  have hdefine : s.AgreeOn N (s.define x v) := ⟨.insert_self hx,frames_refl s.outer⟩
  unfold Scope.assign
  split
  · exact hdefine
  · split
    · rename_i outer houter
      exact ⟨.refl s.innermost,Scope.forall₂_rebind? .refl (fun _ _ => .insert_self hx) houter⟩
    · exact hdefine

theorem assign (h : s.AgreeOn N s') (x : String) (v : Value) :
    (s.assign x v).AgreeOn N (s'.assign x v) := by
  by_cases hx : N x
  · have hrel := rebind? hx v h.2
    unfold Scope.assign
    rw [h.1.contains_eq hx]
    split
    · exact h.define x v
    · generalize Scope.rebind? x v s.outer = a, Scope.rebind? x v s'.outer = b at hrel
      cases hrel with
      | none => exact h.define x v
      | some houter => exact ⟨h.1,houter⟩
  · -- the two assignments may go to different frames
    exact (symm (assign_self hx)).trans (h.trans (assign_self hx))

end Scope.AgreeOn

structure Rendering.AgreeOn {σ : Type} (N : String → Prop) (s s' : Rendering σ) : Prop where
  scope : s.scope.AgreeOn N s'.scope
  depth : s'.depth = s.depth
  sink : s'.sink = s.sink

namespace Render

variable {σ α β : Type} {m : Render σ α} {k : α → Render σ β}

/-- From states that agree, the step goes to states that agree, and with the same result. -/
def Respects (N : String → Prop) (m : Render σ α) : Prop :=
  ∀ s s', s.AgreeOn N s' → (m s').2 = (m s).2 ∧ (m s).1.AgreeOn N (m s').1

theorem respects_scope {g : Scope → Scope} {r : Except Error α}
    (hm : ∀ s, m s = ({ s with scope := g s.scope },r))
    (hg : ∀ c c', c.AgreeOn N c' → (g c).AgreeOn N (g c')) : Respects N m := by
  intro s s' h
  rw [hm,hm]
  exact ⟨rfl,hg _ _ h.scope,h.depth,h.sink⟩

theorem respects_write (sink : Sink σ) (text : String) : Respects N (write sink text) := by
  intro s s' h
  unfold write
  rw [h.sink]
  exact ⟨rfl,h.scope,h.depth,rfl⟩

theorem respects_bind (hm : Respects N m) (hk : ∀ a, Respects N (k a)) : Respects N (m >>= k) := by
  intro s s' h
  obtain ⟨hresult,hstate⟩ := hm s s' h
  cases hs : m s with
  | mk t r =>
    cases hs' : m s' with
    | mk t' r' =>
      simp only [hs,hs'] at hresult hstate
      subst hresult
      cases r' with
      | ok a =>
        rw [bind_apply hs,bind_apply hs']
        exact hk a t t' hstate
      | error err =>
        rw [bind_apply_error hs,bind_apply_error hs']
        exact ⟨rfl,hstate⟩

theorem respects_mapFailure (g : Error → Error) (hm : Respects N m) :
    Respects N (mapFailure g m) := by
  intro s s' h
  obtain ⟨hresult,hstate⟩ := hm s s' h
  rw [mapFailure_apply,mapFailure_apply,hresult]
  exact ⟨rfl,hstate⟩

theorem respects_inFrame (f : Frame) (hm : Respects N m) : Respects N (inFrame f m) := by
  intro s s' h
  obtain ⟨hresult,hstate⟩ := hm { s with scope := s.scope.push f }
    { s' with scope := s'.scope.push f } ⟨h.scope.push f,h.depth,h.sink⟩
  exact ⟨hresult,hstate.scope.pop,hstate.depth,hstate.sink⟩

theorem respects_getDepth : Respects N (getDepth : Render σ Nat) :=
  fun _ _ h => ⟨congrArg Except.ok h.depth,h⟩

theorem respects_deeper (hm : Respects N m) : Respects N (deeper m) := by
  intro s s' h
  obtain ⟨hresult,hstate⟩ := hm { s with depth := s.depth+1 } { s' with depth := s'.depth+1 }
    ⟨h.scope,congrArg (·+1) h.depth,h.sink⟩
  exact ⟨hresult,hstate.scope,congrArg (·-1) hstate.depth,hstate.sink⟩

def reading (N : String → Prop) : Comparison σ σ :=
  ⟨fun m _ => Respects N m,fun p => ∀ t ∈ p.terms, t.ReadsOnly N,fun _ => True⟩

theorem respects_closed (w : Surroundings σ) : (reading N).Closed w w where
  pure _ := respects_scope (fun _ => rfl) fun _ _ h => h
  bind := respects_bind
  inFrame _ := respects_inFrame _
  fault _ _ := respects_scope (fun _ => rfl) fun _ _ h => h
  eval {_ _ t _ _} hp ht hk := by
    refine respects_bind (fun s s' h => ?_) fun v => hk v trivial
    have heval : t.eval ⟨w.engine.functions,s'.scope⟩ = t.eval ⟨w.engine.functions,s.scope⟩ :=
      t.eval_congr (fun x hx => h.scope.get? hx) (hp t ht)
    rw [w.eval_apply,w.eval_apply,heval]
    exact ⟨rfl,h⟩
  write := respects_write w.sink
  assign _ := respects_scope (fun _ => rfl) fun _ _ h => h.assign _ _
  define _ := respects_scope (fun _ => rfl) fun _ _ h => h.define _ _
  items _ _ _ _ := trivial
  parts _ _ _ := trivial
  loopInfo _ _ := trivial
  name := rfl
  texts := rfl
  templates := rfl
  autoEscape := rfl

end Render

open Render

def Document.ReadsOnly (N : String → Prop) (doc : Document) : Prop :=
  ∀ t ∈ Node.listTerms doc.nodes, t.ReadsOnly N

theorem Document.ReadsOnly.pieces {doc : Document} (h : doc.ReadsOnly N) :
    ∀ p ∈ Node.listPieces doc.nodes, ∀ t ∈ p.terms, t.ReadsOnly N := by
  intro p hp t ht
  refine h t ?_
  rw [← Node.terms_listPieces]
  exact List.mem_flatMap.mpr ⟨p,hp,ht⟩

namespace Engine

variable {σ : Type} {e : Engine} {doc : Document}

theorem respects_render (hstored : ∀ t ∈ e.templates, t.2.ReadsOnly N) (sink : Sink σ)
    (levels : Nat) (doc : Document) (hdoc : doc.ReadsOnly N) :
    Respects N (doc.render e sink levels) := by
  induction levels generalizing doc with
  | zero => exact respects_scope (fun _ => rfl) fun _ _ h => h
  | succ levels ih =>
    have hclosed : (reading N).Closed (doc.surroundings e sink (Document.render e sink levels)) _ :=
      respects_closed _
    have hembeds := hclosed.embeds rfl respects_getDepth fun _ _ _ inner _ hget =>
      respects_deeper (ih inner (hstored _ (Table.mem_of_get? hget)))
    exact respects_mapFailure _ (Node.list_related hclosed hembeds doc.nodes hdoc.pieces)

/-- Where neither the document nor a stored one calls anything, contexts that agree on the variables
of their terms give the same output and the same result: to any sink, to one that is flushed at the
end, and to a text. -/
theorem rendering_congr (hdoc : doc.ReadsOnly N) (hstored : ∀ t ∈ e.templates, t.2.ReadsOnly N)
    {f g : Frame} (hagree : ∀ x, N x → Table.get? g x = Table.get? f x) :
    e.render doc (.map g) = e.render doc (.map f) ∧
    ∀ (σ : Type) (sink : Sink σ) (state : σ),
      e.run doc sink state (.map g) = e.run doc sink state (.map f) ∧
      e.renderTo doc sink state (.map g) = e.renderTo doc sink state (.map f) := by
  have hrun (σ : Type) (sink : Sink σ) (state : σ) :
      e.run doc sink state (.map g) = e.run doc sink state (.map f) := by
    have hrespects := respects_render hstored sink (e.maxIncludeDepth+1) doc hdoc
    obtain ⟨hresult,hstate⟩ := hrespects ⟨Scope.root f,0,state⟩ ⟨Scope.root g,0,state⟩
      ⟨⟨hagree,.nil⟩,rfl,rfl⟩
    exact Prod.ext hstate.sink hresult
  refine ⟨?_,fun σ sink state => ⟨hrun σ sink state,?_⟩⟩
  · unfold render
    rw [hrun]
  · unfold renderTo
    rw [hrun]

/-- The template assigns to a name that only one of the contexts binds, and embeds another one. -/
theorem rendering_congr_of_assignment :
    let inner : Document := ⟨some "a","\x7b\x7b x \x7d\x7d",[.echo (.var ⟨"x",⟨3,4⟩⟩) ⟨0,7⟩]⟩
    let doc : Document := ⟨none,"\x7b% set y = x %\x7d\x7b% include 'a' %\x7d",
      [.assign ⟨"y",⟨7,8⟩⟩ (.var ⟨"x",⟨11,12⟩⟩) ⟨0,15⟩,.embed ⟨"a",⟨26,29⟩⟩ [] ⟨15,32⟩]⟩
    let e : Engine := { empty with templates := [("a",inner)] }
    let f : Frame := [("x",.int 1)]
    let g : Frame := [("x",.int 1),("y",.int 2)]
    (doc.ReadsOnly (· = "x") ∧ ("a",inner) ∈ e.templates ∧ inner.ReadsOnly (· = "x") ∧
      ∀ x, x = "x" → Table.get? g x = Table.get? f x) ∧
      e.render doc (.map g) = e.render doc (.map f) := by
  intro inner doc e f g
  have hdoc : doc.ReadsOnly (· = "x") := by
    simp [Document.ReadsOnly,doc,Node.listTerms,Node.terms]
  have hinner : inner.ReadsOnly (· = "x") := by
    simp [Document.ReadsOnly,inner,Node.listTerms,Node.terms]
  have hstored : ∀ t ∈ e.templates, t.2.ReadsOnly (· = "x") := by
    intro t ht
    obtain rfl := List.mem_singleton.mp ht
    exact hinner
  have hagree : ∀ x, x = "x" → Table.get? g x = Table.get? f x := by
    rintro x rfl
    rfl
  exact ⟨⟨hdoc,List.mem_singleton_self _,hinner,hagree⟩,(rendering_congr hdoc hstored hagree).1⟩

end Engine

end Stencil
