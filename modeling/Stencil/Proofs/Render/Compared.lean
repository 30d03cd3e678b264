import Stencil.Proofs.Scope.Frames
import Stencil.Proofs.Template.Terms
import Stencil.Proofs.Term.Evaluated
import Stencil.Render

/-!
Renderings compared: what holds between the steps that rendering is made of holds between whole
renderings of the same nodes. With one rendering on both sides, this is what every step keeps.
-/

set_option autoImplicit false

namespace Stencil
open Render

section

variable {σ α β : Type} {m : Render σ α} {s s' : Rendering σ}

theorem Render.bind_apply {a : α} (h : m s = (s',.ok a)) (k : α → Render σ β) :
    (m >>= k) s = k a s' := by
  show Render.bind m k s = k a s'
  unfold Render.bind
  rw [h]

theorem Render.bind_apply_error {err : Error} (h : m s = (s',.error err)) (k : α → Render σ β) :
    (m >>= k) s = (s',.error err) := by
  show Render.bind m k s = (s',.error err)
  unfold Render.bind
  rw [h]

theorem Render.mapFailure_apply (g : Error → Error) (m : Render σ α) (s : Rendering σ) :
    mapFailure g m s = ((m s).1,(m s).2.mapError g) := by
  unfold mapFailure
  cases m s with
  | mk s' r => cases r <;> rfl

end

theorem Render.bind_assoc {σ α β γ : Type} (m : Render σ α) (f : α → Render σ β)
    (g : β → Render σ γ) : m >>= f >>= g = m >>= fun a => f a >>= g := by
  funext s
  show Render.bind (Render.bind m f) g s = Render.bind m (fun a => Render.bind (f a) g) s
  unfold Render.bind
  cases h : m s with
  | mk s' r => cases r <;> rfl

namespace Surroundings

variable {σ α : Type} (w : Surroundings σ)

theorem placed_apply (r : Except Fault α) (s : Rendering σ) :
    w.placed r s = (s,r.mapError (Error.ofFault w.source)) := by
  cases r <;> rfl

theorem eval_apply (t : Term) (s : Rendering σ) : w.eval t s =
    (s,(t.eval ⟨w.engine.functions,s.scope⟩).mapError (Error.ofFault w.source)) :=
  congrArg (s,·) (t.evaluate_eq _ _)

end Surroundings

/-- A relation between steps, and what is known of the pieces of a template and of the values that
come up. -/
structure Comparison (σ τ : Type) where
  related : {α : Type} → Render σ α → Render τ α → Prop
  piece : Piece → Prop
  value : Value → Prop

namespace Comparison

variable {σ τ : Type}

/-- The relation holds between the steps that rendering with `w` and with `w'` is made of, other
than embedding a template. -/
structure Closed (C : Comparison σ τ) (w : Surroundings σ) (w' : Surroundings τ) : Prop where
  pure {α : Type} (a : α) : C.related (Render.pure a) (Render.pure a)
  bind {α β : Type} {m : Render σ α} {m' : Render τ α} {k : α → Render σ β} {k' : α → Render τ β} :
    C.related m m' → (∀ a, C.related (k a) (k' a)) → C.related (m >>= k) (m' >>= k')
  inFrame {f : Frame} {m : Render σ Unit} {m' : Render τ Unit} : f.Binds C.value → C.related m m' →
    C.related (inFrame f m) (inFrame f m')
  fault {α : Type} {p : Piece} {f : Fault} : C.piece p → f.span ∈ p.places →
    C.related (α := α) (w.placed (.error f)) (w'.placed (.error f))
  eval {α : Type} {p : Piece} {t : Term} {k : Value → Render σ α} {k' : Value → Render τ α} :
    C.piece p → t ∈ p.terms → (∀ v, C.value v → C.related (k v) (k' v)) →
    C.related (w.eval t >>= k) (w'.eval t >>= k')
  write (text : String) : C.related (write w.sink text) (write w'.sink text)
  assign {n : String} {v : Value} : C.value v →
    C.related (modifyScope (·.assign n v)) (modifyScope (·.assign n v))
  define {n : String} {v : Value} : C.value v →
    C.related (modifyScope (·.define n v)) (modifyScope (·.define n v))
  items {v : Value} {vs : List Value} : C.value v → v.iterate = .ok vs → ∀ u ∈ vs, C.value u
  parts {vs : List Value} : C.value (.list vs) → ∀ u ∈ vs, C.value u
  loopInfo (index length : Nat) : C.value (loopInfo index length)
  name : w'.name = w.name
  texts : w'.engine.texts = w.engine.texts
  templates : w'.engine.templates = w.engine.templates
  autoEscape : w'.engine.autoEscape = w.engine.autoEscape

variable {C : Comparison σ τ} {w : Surroundings σ} {w' : Surroundings τ}

theorem Closed.bound (h : C.Closed w w') {vars : LoopVars} {item : Value} {f : Frame}
    (hitem : C.value item) (hbind : vars.bind item = .ok f) : f.Binds C.value := by
  unfold LoopVars.bind at hbind
  split at hbind
  · cases hbind
    exact Frame.binds_nil.insert hitem
  · split at hbind
    · split at hbind
      · cases hbind
        refine ⟨Table.sorted_ofList _,fun b hb => ?_⟩
        have hzip := Table.mem_ofList hb
        exact h.parts hitem b.2 (List.of_mem_zip hzip).2
      · cases hbind
    · cases hbind

theorem Closed.roundFrame (h : C.Closed w w') {vars : LoopVars} {item : Value} {f : Frame}
    {index length : Nat} (hitem : C.value item) (hbind : vars.bind item = .ok f) :
    Frame.Binds C.value (Table.insert "loop" (Stencil.loopInfo index length) f) :=
  (h.bound hitem hbind).insert (h.loopInfo index length)

theorem bind_places {vars : LoopVars} {item : Value} {t : Term} {s : Span} {f : Fault}
    (hbind : vars.bind item = .error f) : f.span ∈ (Piece.tag (.forTag vars t) s).places := by
  unfold LoopVars.bind at hbind
  split at hbind
  · cases hbind
  · split at hbind
    · split at hbind
      · cases hbind
      · cases hbind
        simp [Piece.places,Tag.places]
    · cases hbind
      simp [Piece.places,Tag.places]

theorem Closed.placed (h : C.Closed w w') {α β : Type} {p : Piece} {r : Except Fault α}
    {k : α → Render σ β} {k' : α → Render τ β} (hp : C.piece p)
    (hfault : ∀ f, r = .error f → f.span ∈ p.places)
    (hk : ∀ a, r = .ok a → C.related (k a) (k' a)) :
    C.related (w.placed r >>= k) (w'.placed r >>= k') := by
  cases r with
  | ok a => exact hk a rfl
  | error f => exact h.fault hp (hfault f rfl)

theorem Closed.rounds (h : C.Closed w w') {vars : LoopVars} {t : Term} {s : Span} {length : Nat}
    {body : Render σ Unit} {body' : Render τ Unit} (hp : C.piece (.tag (.forTag vars t) s))
    (hbody : C.related body body') (items : List Value) (index : Nat)
    (hitems : ∀ v ∈ items, C.value v) :
    C.related (w.rounds vars length body index items)
      (w'.rounds vars length body' index items) := by
  induction items generalizing index with
  | nil => exact h.pure ()
  | cons item items ih =>
    obtain ⟨hitem,hrest⟩ := List.forall_mem_cons.mp hitems
    unfold Surroundings.rounds
    refine h.placed hp (fun f => bind_places) fun frame hframe => ?_
    exact h.bind (h.inFrame (h.roundFrame hitem hframe) hbody) fun _ => ih (index+1) hrest

theorem Closed.echo (h : C.Closed w w') (v : Value) :
    C.related (writeAll w.sink (w.echoPieces v)) (writeAll w'.sink (w'.echoPieces v)) := by
  have hpieces : w'.echoPieces v = w.echoPieces v := by
    simp [Surroundings.echoPieces,h.autoEscape]
  rw [hpieces]
  induction w.echoPieces v with
  | nil => exact h.pure ()
  | cons p ps ih => exact h.bind (h.write p) fun _ => ih

theorem Closed.insertAt (h : C.Closed w w') {path : Located String} {s : Span}
    (hp : C.piece (.tag (.textTag path) s)) :
    C.related (w.insertAt path) (w'.insertAt path) := by
  unfold Surroundings.insertAt
  simp only [h.name,h.texts,h.templates]
  split
  · exact h.write _
  · split
    · exact h.write _
    · exact h.fault hp (by simp [Piece.places,Tag.places])

theorem Closed.bindings (h : C.Closed w w') {α : Type} {p : Piece} {k : Frame → Render σ α}
    {k' : Frame → Render τ α} (hp : C.piece p)
    (hk : ∀ f : Frame, f.Binds C.value → C.related (k f) (k' f))
    (given : List (Located String × Term)) (frame : Frame) (hgiven : ∀ b ∈ given, b.2 ∈ p.terms)
    (hframe : frame.Binds C.value) :
    C.related (w.bindings frame given >>= k) (w'.bindings frame given >>= k') := by
  induction given generalizing frame with
  | nil => exact hk frame hframe
  | cons b rest ih =>
    obtain ⟨hb,hrest⟩ := List.forall_mem_cons.mp hgiven
    unfold Surroundings.bindings
    rw [bind_assoc,bind_assoc]
    exact h.eval hp hb fun v hv => ih _ hrest (hframe.insert hv)

end Comparison

variable {σ τ : Type} {C : Comparison σ τ} {w : Surroundings σ} {w' : Surroundings τ}

def Comparison.Embeds (C : Comparison σ τ) (w : Surroundings σ) (w' : Surroundings τ) : Prop :=
  ∀ path given s, C.piece (.tag (.includeTag path given) s) →
    C.related (w.embedAt path given) (w'.embedAt path given)

/-- It is enough that embedded templates, one deeper each, are related. -/
theorem Comparison.Closed.embeds (h : C.Closed w w')
    (hmax : w'.engine.maxIncludeDepth = w.engine.maxIncludeDepth)
    (hdepth : C.related (getDepth : Render σ Nat) getDepth)
    (hinner : ∀ path given s doc, C.piece (.tag (.includeTag path given) s) →
      Table.get? w.engine.templates (Path.resolve w.name path.value) = some doc →
      C.related (deeper (w.embed doc)) (deeper (w'.embed doc))) : C.Embeds w w' := by
  intro path given s hp
  have hspan : path.span ∈ (Piece.tag (.includeTag path given) s).places := by
    simp [Piece.places,Tag.places]
  unfold Surroundings.embedAt
  simp only [h.name,h.templates,hmax]
  cases hget : Table.get? w.engine.templates (Path.resolve w.name path.value) with
  | none => exact h.fault hp hspan
  | some doc =>
    refine h.bind hdepth fun depth => ?_
    split
    · exact h.fault hp hspan
    · refine h.bindings hp (fun f hf => h.inFrame hf (hinner path given s doc hp hget)) given []
        (fun b hb => ?_) Frame.binds_nil
      simp only [Piece.terms,Tag.terms,List.mem_map]
      exact ⟨b,hb,rfl⟩

mutual

theorem Node.related (h : C.Closed w w') (he : C.Embeds w w') : (n : Node) →
    (∀ p ∈ n.pieces, C.piece p) → C.related (n.render w) (n.render w')
  | .text content s, hp => h.write content
  | .echo t s, hp =>
    h.eval (hp (.echo t s) (by simp [Node.pieces])) (by simp [Piece.terms]) fun v _ => h.echo v
  | .assign n t s, hp =>
    h.eval (hp (.tag (.setTag n t) s) (by simp [Node.pieces])) (by simp [Piece.terms,Tag.terms])
      fun _ hv => h.assign hv
  | .define n t s, hp =>
    h.eval (hp (.tag (.letTag n t) s) (by simp [Node.pieces])) (by simp [Piece.terms,Tag.terms])
      fun _ hv => h.define hv
  | .embed path given s, hp => he path given s (hp _ (by simp [Node.pieces]))
  | .insert path s, hp => h.insertAt (hp (.tag (.textTag path) s) (by simp [Node.pieces]))
  | .branch c s body rest, hp => by
    have hbody := Node.list_related h he body fun p hb => hp p (by simp [Node.pieces,hb])
    have hrest := Alternatives.related h he rest fun p hr => hp p (by simp [Node.pieces,hr])
    refine h.eval (hp (.tag (.ifTag c) s) (by simp [Node.pieces])) (by simp [Piece.terms,Tag.terms])
      fun v hv => ?_
    split
    · exact h.inFrame Frame.binds_nil hbody
    · exact hrest
  | .loop vars t s body rest, hp => by
    have hbody := Node.list_related h he body fun p hb => hp p (by simp [Node.pieces,hb])
    have hrest := Tail.related h he .endforTag rest fun p hr => hp p (by simp [Node.pieces,hr])
    have htag := hp (.tag (.forTag vars t) s) (by simp [Node.pieces])
    refine h.eval htag (by simp [Piece.terms,Tag.terms]) fun v hv => ?_
    refine h.placed htag (fun f hf => ?_) fun items hitems => ?_
    · cases hiterate : v.iterate with
      | ok items => simp [hiterate,Except.placedAt] at hf
      | error c =>
        simp only [hiterate,Except.placedAt,Except.error.injEq] at hf
        subst hf
        cases vars <;> simp [Piece.places,Tag.places]
    · have hvalues : ∀ u ∈ items, C.value u := by
        cases hiterate : v.iterate with
        | ok vs =>
          simp only [hiterate,Except.placedAt,Except.ok.injEq] at hitems
          subst hitems
          exact h.items hv hiterate
        | error c => simp [hiterate,Except.placedAt] at hitems
      split
      · exact hrest
      · exact h.rounds htag hbody items 0 hvalues

theorem Node.list_related (h : C.Closed w w') (he : C.Embeds w w') : (nodes : List Node) →
    (∀ p ∈ Node.listPieces nodes, C.piece p) →
    C.related (Node.renderList w nodes) (Node.renderList w' nodes)
  | [], _ => h.pure ()
  | n :: ns, hp => by
    have hn := Node.related h he n fun p hn => hp p (by simp [Node.listPieces,hn])
    have hns := Node.list_related h he ns fun p hns => hp p (by simp [Node.listPieces,hns])
    exact h.bind hn fun _ => hns

theorem Alternatives.related (h : C.Closed w w') (he : C.Embeds w w') :
    (alternatives : Alternatives) → (∀ p ∈ alternatives.pieces, C.piece p) →
    C.related (alternatives.render w) (alternatives.render w')
  | .elif c s body rest, hp => by
    have hbody := Node.list_related h he body fun p hb => hp p (by simp [Alternatives.pieces,hb])
    have hrest := Alternatives.related h he rest fun p hr => hp p (by simp [Alternatives.pieces,hr])
    refine h.eval (hp (.tag (.elifTag c) s) (by simp [Alternatives.pieces]))
      (by simp [Piece.terms,Tag.terms]) fun v hv => ?_
    split
    · exact h.inFrame Frame.binds_nil hbody
    · exact hrest
  | .last tail, hp => Tail.related h he .endifTag tail hp

theorem Tail.related (h : C.Closed w w') (he : C.Embeds w w') (closing : Tag) : (tail : Tail) →
    (∀ p ∈ tail.pieces closing, C.piece p) → C.related (tail.render w) (tail.render w')
  | .otherwise _ body _, hp =>
    h.inFrame Frame.binds_nil
      (Node.list_related h he body fun p hb => hp p (by simp [Tail.pieces,hb]))
  | .close _, _ => h.pure ()

end

end Stencil
