import Stencil.Proofs.Render.Frames

set_option autoImplicit false

namespace Stencil
open Render Rendering

variable {σ : Type} {T : String → Prop} {w : Surroundings σ}

mutual

theorem Node.grows_render (hembed : ∀ t ∈ w.engine.templates, Leaves (Grows T) (w.embed t.2)) :
    (n : Node) → (∀ x ∈ n.targets, T x) →
      Leaves (Grows T) (n.render w) ∧ (n.isControl = true → Leaves (Keeps T) (n.render w))
  | .text _ _, _ => ⟨keeps_write.imp Keeps.grows,by simp [Node.isControl]⟩
  | .echo _ _, _ =>
    ⟨leaves_bind leaves_eval fun _ => (keeps_writeAll _).imp Keeps.grows,
      by simp [Node.isControl]⟩
  | .assign _ _ _, hT =>
    ⟨leaves_bind leaves_eval fun _ _ => .assign (hT _ (by simp [Node.targets])),
      by simp [Node.isControl]⟩
  | .define _ _ _, _ =>
    ⟨leaves_bind leaves_eval fun _ _ => .define,by simp [Node.isControl]⟩
  | .insert _ _, _ =>
    ⟨Surroundings.keeps_insertAt.imp Keeps.grows,by simp [Node.isControl]⟩
  | .embed path given _, _ => by
    have h : Leaves (Keeps T) (w.embedAt path given) := Surroundings.keeps_embedAt hembed
    exact ⟨h.imp Keeps.grows,fun _ => h⟩
  | .branch c s body rest, hT => by
    have hbody := Node.grows_renderList hembed body fun x hx => hT x (by simp [Node.targets,hx])
    have hrest := Alternatives.keeps_render hembed rest fun x hx => hT x (by simp [Node.targets,hx])
    have h : Leaves (Keeps T) ((Node.branch c s body rest).render w) := by
      refine leaves_bind leaves_eval fun v => ?_
      split
      · exact keeps_inFrame hbody
      · exact hrest
    exact ⟨h.imp Keeps.grows,fun _ => h⟩
  | .loop vars t s body rest, hT => by
    have hbody := Node.grows_renderList hembed body fun x hx => hT x (by simp [Node.targets,hx])
    have hrest := Tail.keeps_render hembed rest fun x hx => hT x (by simp [Node.targets,hx])
    have h : Leaves (Keeps T) ((Node.loop vars t s body rest).render w) := by
      refine leaves_bind leaves_eval fun v => leaves_bind leaves_placed fun items => ?_
      split
      · exact hrest
      · exact Surroundings.keeps_rounds hbody items 0
    exact ⟨h.imp Keeps.grows,fun _ => h⟩

theorem Node.grows_renderList
    (hembed : ∀ t ∈ w.engine.templates, Leaves (Grows T) (w.embed t.2)) :
    (nodes : List Node) → (∀ x ∈ Node.listTargets nodes, T x) →
      Leaves (Grows T) (Node.renderList w nodes)
  | [], _ => leaves_pure
  | n :: ns, hT => by
    have hn := (Node.grows_render hembed n fun x hx => hT x (by simp [Node.listTargets,hx])).1
    have hns := Node.grows_renderList hembed ns fun x hx => hT x (by simp [Node.listTargets,hx])
    exact leaves_bind hn fun _ => hns

theorem Alternatives.keeps_render
    (hembed : ∀ t ∈ w.engine.templates, Leaves (Grows T) (w.embed t.2)) :
    (alternatives : Alternatives) → (∀ x ∈ alternatives.targets, T x) →
      Leaves (Keeps T) (alternatives.render w)
  | .elif c s body rest, hT => by
    have hbody := Node.grows_renderList hembed body fun x hx =>
      hT x (by simp [Alternatives.targets,hx])
    have hrest := Alternatives.keeps_render hembed rest fun x hx =>
      hT x (by simp [Alternatives.targets,hx])
    refine leaves_bind leaves_eval fun v => ?_
    split
    · exact keeps_inFrame hbody
    · exact hrest
  | .last tail, hT => Tail.keeps_render hembed tail hT

theorem Tail.keeps_render (hembed : ∀ t ∈ w.engine.templates, Leaves (Grows T) (w.embed t.2)) :
    (tail : Tail) → (∀ x ∈ tail.targets, T x) → Leaves (Keeps T) (tail.render w)
  | .otherwise _ body _, hT => keeps_inFrame (Node.grows_renderList hembed body hT)
  | .close _, _ => leaves_pure

end

def Engine.IsTarget (e : Engine) (x : String) : Prop :=
  ∃ t ∈ e.templates, x ∈ Node.listTargets t.2.nodes

namespace Document

variable {e : Engine} {sink : Sink σ}

/-- By induction on how many documents stand inside each other. -/
theorem grows_render (hT : ∀ x, e.IsTarget x → T x) (levels : Nat) :
    ∀ t ∈ e.templates, Leaves (Grows T) (render e sink levels t.2) := by
  induction levels with
  | zero => exact fun _ _ => leaves_pure
  | succ levels ih =>
    intro t ht
    exact leaves_mapFailure (Node.grows_renderList ih t.2.nodes fun x hx => hT x ⟨t,ht,hx⟩)

/-- Behind a branch, a loop or an embedded template, the same frames bind the same names, and only
targets of `set` tags may have other values; behind a sequence of nodes only the innermost frame may
bind further names. The depth is the same. All of this holds where rendering fails too. -/
theorem render_keeps_frames (e : Engine) (sink : Sink σ) (levels : Nat) (doc : Document)
    (s : Rendering σ) :
    let w := doc.surroundings e sink (render e sink levels)
    (∀ n : Node, n.isControl = true →
      Keeps (fun x => x ∈ n.targets ∨ e.IsTarget x) s (n.render w s).1) ∧
    ∀ nodes : List Node,
      Grows (fun x => x ∈ Node.listTargets nodes ∨ e.IsTarget x) s (Node.renderList w nodes s).1 := by
  intro w
  constructor
  · intro n hn
    have hembed : ∀ t ∈ e.templates,
        Leaves (Grows fun x => x ∈ n.targets ∨ e.IsTarget x) (render e sink levels t.2) :=
      grows_render (fun _ => .inr) levels
    exact (Node.grows_render (w := w) hembed n fun _ => .inl).2 hn s
  · intro nodes
    have hembed : ∀ t ∈ e.templates,
        Leaves (Grows fun x => x ∈ Node.listTargets nodes ∨ e.IsTarget x)
          (render e sink levels t.2) :=
      grows_render (fun _ => .inr) levels
    exact Node.grows_renderList (w := w) hembed nodes (fun _ => .inl) s

theorem render_branch_keeps_frames :
    let x : Located String := ⟨"x",⟨19,20⟩⟩
    let n : Node := .branch (.literal (.bool true) ⟨6,10⟩) ⟨0,13⟩
      [.define x (.literal .null ⟨23,27⟩) ⟨13,30⟩] (.last (.close ⟨30,41⟩))
    let doc : Document := ⟨none,"\x7b% if true %\x7d\x7b% let x = null %\x7d\x7b% endif %\x7d",[n]⟩
    let w := doc.surroundings Engine.empty Sink.text (render Engine.empty Sink.text 1)
    let s : Rendering String := ⟨Scope.root [],0,""⟩
    n.isControl = true ∧
      Keeps (fun x => x ∈ n.targets ∨ Engine.empty.IsTarget x) s (n.render w s).1 := by
  intro x n doc w s
  exact ⟨rfl,(render_keeps_frames Engine.empty Sink.text 1 doc s).1 n rfl⟩

end Document

end Stencil
