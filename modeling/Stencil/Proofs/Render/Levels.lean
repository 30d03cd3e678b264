import Stencil.Proofs.Render.Compared

/-!
How many documents stand inside each other: the limit on the depth ends the recursion, so that
rendering does not depend on the number of levels that it is given, as long as there are enough. It
is the one solution of the equation by which rendering a document comes down to rendering those that
it embeds.
-/

set_option autoImplicit false

namespace Stencil

namespace Render

variable {σ α β : Type} {d : Nat} {m m' : Render σ α} {k k' : α → Render σ β}

/-- At the depth `d` the steps do the same, and they leave the depth as it is. -/
def Agree (d : Nat) (m m' : Render σ α) : Prop :=
  ∀ s, s.depth = d → m s = m' s ∧ (m s).1.depth = d

theorem agree_self (h : ∀ s, (m s).1.depth = s.depth) : Agree d m m :=
  fun s hs => ⟨rfl,(h s).trans hs⟩

theorem agree_bind (hm : Agree d m m') (hk : ∀ a, Agree d (k a) (k' a)) :
    Agree d (m >>= k) (m' >>= k') := by
  intro s hs
  obtain ⟨heq,hdepth⟩ := hm s hs
  cases h : m s with
  | mk s' r =>
    rw [h] at heq hdepth
    cases r with
    | ok a =>
      rw [bind_apply h,bind_apply heq.symm]
      exact hk a s' hdepth
    | error f =>
      rw [bind_apply_error h,bind_apply_error heq.symm]
      exact ⟨rfl,hdepth⟩

theorem agree_mapFailure {g : Error → Error} (hm : Agree d m m') :
    Agree d (mapFailure g m) (mapFailure g m') := by
  intro s hs
  obtain ⟨heq,hdepth⟩ := hm s hs
  rw [mapFailure_apply,mapFailure_apply,← heq]
  exact ⟨rfl,hdepth⟩

theorem agree_inFrame {f : Frame} (hm : Agree d m m') : Agree d (inFrame f m) (inFrame f m') := by
  intro s hs
  obtain ⟨heq,hdepth⟩ := hm { s with scope := s.scope.push f } hs
  unfold inFrame
  rw [← heq]
  exact ⟨rfl,hdepth⟩

theorem agree_deeper (hm : Agree (d + 1) m m') : Agree d (deeper m) (deeper m') := by
  intro s hs
  obtain ⟨heq,hdepth⟩ := hm { s with depth := s.depth + 1 } (by simp [hs])
  unfold deeper
  rw [← heq]
  refine ⟨rfl,?_⟩
  show (m _).1.depth - 1 = d
  rw [hdepth]
  rfl

def agreement (d : Nat) : Comparison σ σ := ⟨Agree d,fun _ => True,fun _ => True⟩

end Render

open Render

namespace Surroundings

variable {σ : Type} {w : Surroundings σ} {path : Located String} {doc : Document} {s : Rendering σ}

theorem embedAt_of_get?_eq_none (given : List (Located String × Term))
    (hget : Table.get? w.engine.templates (Path.resolve w.name path.value) = none) :
    w.embedAt path given s =
      (s,.error (Error.ofFault w.source
        ⟨.unknownTemplate (Path.resolve w.name path.value),path.span⟩)) := by
  unfold embedAt
  simp only [hget]
  exact w.placed_apply _ s

theorem embedAt_of_lt (given : List (Located String × Term))
    (hget : Table.get? w.engine.templates (Path.resolve w.name path.value) = some doc)
    (hdepth : s.depth < w.engine.maxIncludeDepth) :
    w.embedAt path given s =
      (w.bindings [] given >>= fun frame => inFrame frame (deeper (w.embed doc))) s := by
  unfold embedAt
  simp only [hget]
  show (if w.engine.maxIncludeDepth ≤ s.depth then _ else _ : Render σ Unit) s = _
  rw [if_neg (Nat.not_le.mpr hdepth)]

theorem embedAt_of_le (given : List (Located String × Term))
    (hget : Table.get? w.engine.templates (Path.resolve w.name path.value) = some doc)
    (hdepth : w.engine.maxIncludeDepth ≤ s.depth) :
    w.embedAt path given s =
      (s,.error (Error.ofFault w.source ⟨.includeDepth w.engine.maxIncludeDepth,path.span⟩)) := by
  unfold embedAt
  simp only [hget]
  show (if w.engine.maxIncludeDepth ≤ s.depth then _ else _ : Render σ Unit) s = _
  rw [if_pos hdepth]
  exact w.placed_apply _ s

end Surroundings

variable {σ : Type} {d : Nat} {e : Engine} {sink : Sink σ} {doc : Document}
  {embed embed' : Document → Render σ Unit}

theorem Document.agree_closed : (agreement d).Closed (doc.surroundings e sink embed)
    (doc.surroundings e sink embed') where
  pure _ := agree_self fun _ => rfl
  bind := agree_bind
  inFrame _ := agree_inFrame
  fault _ _ := agree_self fun _ => rfl
  eval _ _ hk := by
    refine agree_bind (agree_self fun s => ?_) fun v => hk v trivial
    rw [Surroundings.eval_apply]
  write _ := agree_self fun _ => rfl
  assign _ := agree_self fun _ => rfl
  define _ := agree_self fun _ => rfl
  items _ _ _ _ := trivial
  parts _ _ _ := trivial
  loopInfo _ _ := trivial
  name := rfl
  texts := rfl
  templates := rfl
  autoEscape := rfl

theorem Document.agree_embeds
    (hembed : d < e.maxIncludeDepth → ∀ inner, Agree (d + 1) (embed inner) (embed' inner)) :
    (agreement d).Embeds (doc.surroundings e sink embed) (doc.surroundings e sink embed') := by
  by_cases hd : d < e.maxIncludeDepth
  · have hdepth : Agree d (getDepth : Render σ Nat) getDepth := agree_self fun _ => rfl
    refine agree_closed.embeds rfl hdepth fun _ _ _ inner _ _ => ?_
    exact agree_deeper (hembed hd inner)
  · -- every template is refused, so that it does not matter what `embed` and `embed'` do
    intro path given _ _ s hs
    have hfull : e.maxIncludeDepth ≤ s.depth := hs ▸ Nat.not_lt.mp hd
    cases hget : Table.get? e.templates (Path.resolve doc.name path.value) with
    | none =>
      rw [Surroundings.embedAt_of_get?_eq_none given hget,
        Surroundings.embedAt_of_get?_eq_none given hget]
      exact ⟨rfl,hs⟩
    | some inner =>
      rw [Surroundings.embedAt_of_le given hget hfull,Surroundings.embedAt_of_le given hget hfull]
      exact ⟨rfl,hs⟩

theorem Node.agree_renderList
    (hembed : d < e.maxIncludeDepth → ∀ inner, Agree (d + 1) (embed inner) (embed' inner))
    (nodes : List Node) : Agree d (Node.renderList (doc.surroundings e sink embed) nodes)
      (Node.renderList (doc.surroundings e sink embed') nodes) :=
  Node.list_related Document.agree_closed (Document.agree_embeds hembed) nodes fun _ _ => trivial

namespace Document

theorem agree_render {levels levels' : Nat} (hd : d ≤ e.maxIncludeDepth)
    (h : e.maxIncludeDepth < levels + d) (h' : e.maxIncludeDepth < levels' + d) (doc : Document) :
    Agree d (render e sink levels doc) (render e sink levels' doc) := by
  induction levels generalizing d levels' doc with
  | zero => omega
  | succ levels ih =>
    cases levels' with
    | zero => omega
    | succ levels' =>
      refine agree_mapFailure (Node.agree_renderList (fun hlt inner => ?_) doc.nodes)
      exact ih hlt (by omega) (by omega) inner

end Document

namespace Engine

def rendering (e : Engine) (sink : Sink σ) : Document → Render σ Unit :=
  Document.render e sink (e.maxIncludeDepth + 1)

def surroundings (e : Engine) (sink : Sink σ) (doc : Document) : Surroundings σ :=
  doc.surroundings e sink (e.rendering sink)

/-- Rendering a document comes down to rendering its nodes, among which a document that is embedded
is rendered in the same way. -/
theorem rendering_eq (e : Engine) (sink : Sink σ) (doc : Document) :
    e.rendering sink doc =
      mapFailure (·.named doc.name) (Node.renderList (e.surroundings sink doc) doc.nodes) := by
  funext s
  have hlevels : s.depth < e.maxIncludeDepth → ∀ inner, Agree (s.depth + 1)
      (Document.render e sink e.maxIncludeDepth inner) (e.rendering sink inner) :=
    fun hlt => Document.agree_render hlt (by omega) (by omega)
  exact (agree_mapFailure (Node.agree_renderList hlevels doc.nodes) s rfl).1

theorem rendering_of_nodes {s t : Rendering σ} {r : Except Error Unit}
    (h : Node.renderList (e.surroundings sink doc) doc.nodes s = (t,r)) :
    e.rendering sink doc s = (t,r.mapError (·.named doc.name)) := by
  rw [rendering_eq,mapFailure_apply,h]

theorem run_of_globals {context : Value} {frame : Frame} (h : globals context = .ok frame)
    {state : σ} : e.run doc sink state context =
      ((e.rendering sink doc ⟨Scope.root frame,0,state⟩).1.sink,
        (e.rendering sink doc ⟨Scope.root frame,0,state⟩).2) := by
  unfold run
  rw [h]
  rfl

/-- By induction on how far the depth is from the limit. -/
theorem agree_of_solves {f : Document → Render σ Unit}
    (hf : ∀ doc : Document, f doc =
      mapFailure (·.named doc.name) (Node.renderList (doc.surroundings e sink f) doc.nodes))
    (left : Nat) (hleft : e.maxIncludeDepth ≤ left + d) (doc : Document) :
    Agree d (f doc) (e.rendering sink doc) := by
  induction left generalizing d doc with
  | zero =>
    rw [hf,rendering_eq]
    exact agree_mapFailure (Node.agree_renderList (fun hlt => by omega) doc.nodes)
  | succ left ih =>
    rw [hf,rendering_eq]
    exact agree_mapFailure (Node.agree_renderList (fun _ => ih (by omega)) doc.nodes)

theorem solves_iff (e : Engine) (sink : Sink σ) (f : Document → Render σ Unit) :
    (∀ doc : Document, f doc =
      mapFailure (·.named doc.name) (Node.renderList (doc.surroundings e sink f) doc.nodes)) ↔
    f = e.rendering sink := by
  constructor
  · intro hf
    funext doc s
    exact (agree_of_solves hf e.maxIncludeDepth (Nat.le_add_right _ _) doc s rfl).1
  · rintro rfl
    exact rendering_eq e sink

end Engine

end Stencil
