import Stencil.Proofs.Render.Depth
import Stencil.Proofs.Render.Frames

set_option autoImplicit false

namespace Stencil
open Render

/-- What is to hold of the scope, of the pieces of templates and of the values that come up. -/
structure Invariant where
  scope : Scope → Prop
  piece : Piece → Prop
  value : Value → Prop

namespace Invariant

/-- Every change of a scope keeps the invariant, terms and iteration give such values, and the stored
templates are made of such pieces. -/
structure Kept (I : Invariant) (e : Engine) : Prop where
  push {s : Scope} {f : Frame} : I.scope s → f.Binds I.value → I.scope (s.push f)
  pop {s : Scope} : I.scope s → I.scope s.pop
  assign {s : Scope} {x : String} {v : Value} : I.scope s → I.value v → I.scope (s.assign x v)
  define {s : Scope} {x : String} {v : Value} : I.scope s → I.value v → I.scope (s.define x v)
  eval {s : Scope} {p : Piece} {t : Term} {v : Value} : I.scope s → I.piece p → t ∈ p.terms →
    t.eval ⟨e.functions,s⟩ = .ok v → I.value v
  items {v : Value} {vs : List Value} : I.value v → v.iterate = .ok vs → ∀ u ∈ vs, I.value u
  loopInfo (index length : Nat) : I.value (loopInfo index length)
  templates : ∀ t ∈ e.templates, ∀ p ∈ Node.listPieces t.2.nodes, I.piece p

variable {σ : Type} {I : Invariant} {e : Engine} {sink : Sink σ}

def Carries (I : Invariant) (s s' : Rendering σ) : Prop := I.scope s.scope → I.scope s'.scope

instance : Std.Refl (I.Carries (σ := σ)) := ⟨fun _ => id⟩

instance : Trans (I.Carries (σ := σ)) I.Carries I.Carries := ⟨fun h h' => h' ∘ h⟩

def comparison (I : Invariant) : Comparison σ σ :=
  ⟨fun m _ => Leaves I.Carries m,I.piece,I.value⟩

namespace Kept

theorem closed (h : I.Kept e) {doc : Document} {embed : Document → Render σ Unit} :
    I.comparison.Closed (doc.surroundings e sink embed) (doc.surroundings e sink embed) where
  pure _ := leaves_pure
  bind := leaves_bind
  inFrame hf hm s hs := h.pop (hm { s with scope := s.scope.push _ } (h.push hs hf))
  fault _ _ := leaves_placed
  eval {_ _ t _ _} hp ht hk := by
    intro s hs
    cases hv : t.eval ⟨e.functions,s.scope⟩ with
    | error f =>
      rw [bind_apply_error (Surroundings.eval_of_error hv)]
      exact hs
    | ok v =>
      rw [bind_apply (Surroundings.eval_of_ok hv)]
      exact hk v (h.eval hs hp ht hv) s hs
  write _ := fun _ => id
  assign hv _ hs := h.assign hs hv
  define hv _ hs := h.define hs hv
  items := h.items
  parts hv := h.items hv rfl
  loopInfo := h.loopInfo
  name := rfl
  texts := rfl
  templates := rfl
  autoEscape := rfl

theorem leaves_renderList (h : I.Kept e) {doc : Document} {embed : Document → Render σ Unit}
    (hembed : ∀ t ∈ e.templates, Leaves I.Carries (embed t.2)) (nodes : List Node)
    (hnodes : ∀ p ∈ Node.listPieces nodes, I.piece p) :
    Leaves I.Carries (Node.renderList (doc.surroundings e sink embed) nodes) := by
  have hembeds : I.comparison.Embeds (doc.surroundings e sink embed)
      (doc.surroundings e sink embed) :=
    h.closed.embeds rfl leaves_getDepth fun _ _ _ _ _ hget s hs =>
      hembed _ (Table.mem_of_get? hget) { s with depth := s.depth + 1 } hs
  exact Node.list_related h.closed hembeds nodes hnodes

theorem leaves_render (h : I.Kept e) (levels : Nat) :
    ∀ t ∈ e.templates, Leaves I.Carries (Document.render e sink levels t.2) := by
  induction levels with
  | zero => exact fun _ _ => leaves_pure
  | succ levels ih =>
    intro t ht
    exact leaves_mapFailure (h.leaves_renderList ih t.2.nodes (h.templates t ht))

theorem leaves_nodes (h : I.Kept e) (doc : Document) {nodes : List Node}
    (hnodes : ∀ p ∈ Node.listPieces nodes, I.piece p) :
    Leaves I.Carries (Node.renderList (e.surroundings sink doc) nodes) :=
  h.leaves_renderList (h.leaves_render _) nodes hnodes

theorem bindings (h : I.Kept e) {doc : Document} {p : Piece} (hp : I.piece p)
    {given : List (Located String × Term)} {frame frame' : Frame} {s s' : Rendering σ}
    (hs : I.scope s.scope) (hframe : frame.Binds I.value)
    (hgiven : ∀ b ∈ given, b.2 ∈ p.terms)
    (hrun : (e.surroundings sink doc).bindings frame given s = (s',.ok frame')) :
    frame'.Binds I.value := by
  induction given generalizing frame with
  | nil =>
    cases hrun
    exact hframe
  | cons b rest ih =>
    obtain ⟨hb,hrest⟩ := List.forall_mem_cons.mp hgiven
    unfold Surroundings.bindings at hrun
    cases hv : b.2.eval ⟨e.functions,s.scope⟩ with
    | error f =>
      rw [bind_apply_error (Surroundings.eval_of_error hv)] at hrun
      cases hrun
    | ok v =>
      rw [bind_apply (Surroundings.eval_of_ok hv)] at hrun
      exact ih (hframe.insert (h.eval hs hp hb hv)) hrest hrun

end Kept

/-- The scope at a site and the pieces that are to be rendered there are as they should be. -/
structure At (I : Invariant) (a : Site σ) : Prop where
  scope : I.scope a.state.scope
  pieces : ∀ p ∈ Node.listPieces a.nodes, I.piece p

variable {a b : Site σ}

theorem Kept.of_starts (h : I.Kept e) (hab : e.Starts sink a b) (ha : I.At a) : I.At b := by
  obtain ⟨hscope,hpieces⟩ := ha
  cases hab with
  | @next _ doc n ns s s' hrun =>
    obtain ⟨hn,hns⟩ : (∀ p ∈ n.pieces, I.piece p) ∧ ∀ p ∈ Node.listPieces ns, I.piece p := by
      simpa [Node.listPieces,or_imp,forall_and] using hpieces
    have hpieces' : ∀ p ∈ Node.listPieces [n], I.piece p := by simpa [Node.listPieces] using hn
    have hleaves : I.Carries s (Node.renderList (e.surroundings sink doc) [n] s).1 :=
      h.leaves_nodes doc hpieces' s
    have hone : Node.renderList (e.surroundings sink doc) [n] s = (s',.ok ()) :=
      bind_apply hrun _
    rw [hone] at hleaves
    exact ⟨hleaves hscope,hns⟩
  | body hchosen =>
    obtain ⟨p,ps,hn,hinside⟩ := Node.pieces_of_chosen? hchosen
    refine ⟨h.push hscope Frame.binds_nil,fun q hq => hpieces q ?_⟩
    simp only [Node.listPieces,hn]
    exact List.mem_append_left _ (List.mem_cons_of_mem _ (hinside.subset hq))
  | @round _ doc vars t span body rest ns v before item after frame s s' hv hitems hrun hbind =>
    have hloop : ∀ p ∈ (Node.loop vars t span body rest).pieces, I.piece p :=
      fun p hp => hpieces p (List.mem_append_left _ hp)
    have hbody : ∀ p ∈ Node.listPieces body, I.piece p :=
      fun p hp => hloop p (by simp [Node.pieces,hp])
    have htag := hloop (.tag (.forTag vars t) span) (by simp [Node.pieces])
    have hvalue := h.eval hscope htag (by simp [Piece.terms,Tag.terms]) hv
    have hvalues := h.items hvalue hitems
    have hclosed : I.comparison.Closed (e.surroundings sink doc) (e.surroundings sink doc) :=
      h.closed
    have hround : I.comparison.related (Node.renderList (e.surroundings sink doc) body)
        (Node.renderList (e.surroundings sink doc) body) := h.leaves_nodes doc hbody
    -- the rounds before this one have left a scope as it should be
    have hrounds : Leaves I.Carries ((e.surroundings sink doc).rounds vars
        (before ++ item :: after).length (Node.renderList (e.surroundings sink doc) body)
        0 before) :=
      hclosed.rounds htag hround before 0 fun u hu => hvalues u (List.mem_append_left _ hu)
    have hleaves := hrounds s hscope
    rw [hrun] at hleaves
    exact ⟨h.push hleaves (hclosed.roundFrame (hvalues item (by simp)) hbind),hbody⟩
  | @embed _ doc path given span ns inner frame s s' hget hlt hrun =>
    have hstate := Engine.bindings_state (e.surroundings sink doc) [] given s
    rw [hrun] at hstate
    subst hstate
    have htag := hpieces (.tag (.includeTag path given) span)
      (by simp [Node.listPieces,Node.pieces])
    have hgiven : ∀ b ∈ given, b.2 ∈ (Piece.tag (.includeTag path given) span).terms := by
      simp only [Piece.terms,Tag.terms]
      exact fun b hb => List.mem_map_of_mem hb
    have hframe := h.bindings htag hscope Frame.binds_nil hgiven hrun
    exact ⟨h.push hscope hframe,h.templates _ (Table.mem_of_get? hget)⟩

theorem Kept.of_visits (h : I.Kept e) (hab : e.Visits sink a b) (ha : I.At a) : I.At b := by
  induction hab with
  | refl => exact ha
  | tail _ hstart ih => exact h.of_starts hstart ih

end Invariant

end Stencil
