import Stencil.Proofs.Render.Visits
import Stencil.Proofs.Term.Unreached

set_option autoImplicit false

namespace Stencil
open Render

namespace Engine

def withNodes (e : Engine) (stored : String → List Node) : Engine :=
  { e with templates := e.templates.map fun t => (t.1,{ t.2 with nodes := stored t.1 }) }

theorem get?_withNodes (e : Engine) (stored : String → List Node) (key : String) :
    Table.get? (e.withNodes stored).templates key =
      (Table.get? e.templates key).map fun doc => { doc with nodes := stored key } := by
  unfold withNodes
  dsimp only
  induction e.templates with
  | nil => rfl
  | cons t ts ih =>
    simp only [List.map_cons,Table.get?]
    split
    · rename_i hkey
      rw [hkey]
      rfl
    · exact ih

end Engine

/-- The bindings of an embedded template are the same as far as they are reached. -/
inductive SameReachedBindings (env : Env) :
    List (Located String × Term) → List (Located String × Term) → Prop
  | nil : SameReachedBindings env [] []
  | cons {name t t' rest rest'} : t.SameReached env t' →
      (∀ v, t.eval env = .ok v → SameReachedBindings env rest rest') →
      SameReachedBindings env ((name,t) :: rest) ((name,t') :: rest')

section

variable {σ : Type}

namespace Render

variable {α β : Type} {s : Rendering σ}

theorem bind_congr {m m' : Render σ α} {k k' : α → Render σ β} (hm : m' s = m s)
    (hk : ∀ a s', m s = (s',.ok a) → k' a s' = k a s') : (m' >>= k') s = (m >>= k) s := by
  cases h : m s with
  | mk s' r =>
    rw [h] at hm
    cases r with
    | ok a =>
      rw [bind_apply h,bind_apply hm]
      exact hk a s' h
    | error err => rw [bind_apply_error h,bind_apply_error hm]

theorem inFrame_congr {m m' : Render σ α} {f : Frame}
    (h : m' { s with scope := s.scope.push f } = m { s with scope := s.scope.push f }) :
    inFrame f m' s = inFrame f m s := by
  unfold inFrame
  rw [h]

theorem deeper_congr {m m' : Render σ α}
    (h : m' { s with depth := s.depth + 1 } = m { s with depth := s.depth + 1 }) :
    deeper m' s = deeper m s := by
  unfold deeper
  rw [h]

end Render

/-- The second surroundings are the first ones, but for `stored` in the place of the nodes of stored
templates. -/
structure Surroundings.Renewed (stored : String → List Node) (w w' : Surroundings σ) : Prop where
  functions : w'.engine.functions = w.engine.functions
  templates (key : String) : Table.get? w'.engine.templates key =
    (Table.get? w.engine.templates key).map fun doc => { doc with nodes := stored key }
  texts : w'.engine.texts = w.engine.texts
  maxIncludeDepth : w'.engine.maxIncludeDepth = w.engine.maxIncludeDepth
  autoEscape : w'.engine.autoEscape = w.engine.autoEscape
  sink : w'.sink = w.sink
  name : w'.name = w.name
  source : w'.source = w.source

namespace Engine

section

variable (e : Engine) (sink : Sink σ) (doc : Document)

@[simp] theorem engine_surroundings : (e.surroundings sink doc).engine = e := rfl

@[simp] theorem sink_surroundings : (e.surroundings sink doc).sink = sink := rfl

@[simp] theorem name_surroundings : (e.surroundings sink doc).name = doc.name := rfl

@[simp] theorem source_surroundings : (e.surroundings sink doc).source = doc.source := rfl

end

theorem renewed_surroundings (e : Engine) (sink : Sink σ) (stored : String → List Node)
    (doc : Document) :
    (e.surroundings sink doc).Renewed stored ((e.withNodes stored).surroundings sink doc) where
  -- not by `rfl`, which would compare the renderings of embedded documents, and those differ
  functions := by simp [withNodes]
  templates key := by simp [get?_withNodes]
  texts := by simp [withNodes]
  maxIncludeDepth := by simp [withNodes]
  autoEscape := by simp [withNodes]
  sink := by simp
  name := by simp
  source := by simp

end Engine

namespace Surroundings.Renewed

variable {stored : String → List Node} {w w' : Surroundings σ} {s : Rendering σ}

theorem placed {α : Type} (hw : w.Renewed stored w') (r : Except Fault α) :
    w'.placed r s = w.placed r s := by
  rw [placed_apply,placed_apply,hw.source]

theorem eval_bind {α : Type} (hw : w.Renewed stored w') {t t' : Term} {k k' : Value → Render σ α}
    (h : t.SameReached ⟨w.engine.functions,s.scope⟩ t')
    (hk : ∀ v, t.eval ⟨w.engine.functions,s.scope⟩ = .ok v → k' v s = k v s) :
    (w'.eval t' >>= k') s = (w.eval t >>= k) s := by
  have heval : w'.eval t' s = w.eval t s := by
    rw [eval_apply,eval_apply,hw.source,hw.functions,h.eval_eq]
  cases hv : t.eval ⟨w.engine.functions,s.scope⟩ with
  | ok v =>
    rw [bind_apply (heval.trans (eval_of_ok hv)),bind_apply (eval_of_ok hv)]
    exact hk v hv
  | error f =>
    rw [bind_apply_error (heval.trans (eval_of_error hv)),bind_apply_error (eval_of_error hv)]

theorem echo (hw : w.Renewed stored w') (v : Value) :
    writeAll w'.sink (w'.echoPieces v) = writeAll w.sink (w.echoPieces v) := by
  simp only [echoPieces,hw.sink,hw.autoEscape]

theorem bindings (hw : w.Renewed stored w') {given given' : List (Located String × Term)}
    (h : SameReachedBindings ⟨w.engine.functions,s.scope⟩ given given') (frame : Frame) :
    w'.bindings frame given' s = w.bindings frame given s := by
  induction h generalizing frame with
  | nil => rfl
  | cons h _ ih =>
    unfold Surroundings.bindings
    exact hw.eval_bind h fun v hv => ih v hv _

theorem insertAt (hw : w.Renewed stored w') (path : Located String) :
    w'.insertAt path s = w.insertAt path s := by
  unfold Surroundings.insertAt
  simp only [hw.name,hw.texts,hw.sink,hw.templates]
  cases Table.get? w.engine.texts (Path.resolve w.name path.value) with
  | some text => rfl
  | none =>
    cases Table.get? w.engine.templates (Path.resolve w.name path.value) with
    | some doc => rfl
    | none => exact hw.placed _

theorem embedAt (hw : w.Renewed stored w') {path : Located String}
    {given given' : List (Located String × Term)}
    (hgiven : ∀ inner,
      Table.get? w.engine.templates (Path.resolve w.name path.value) = some inner →
      s.depth < w.engine.maxIncludeDepth →
      SameReachedBindings ⟨w.engine.functions,s.scope⟩ given given')
    (hinner : ∀ inner frame,
      Table.get? w.engine.templates (Path.resolve w.name path.value) = some inner →
      s.depth < w.engine.maxIncludeDepth → w.bindings [] given s = (s,.ok frame) →
      let inside := { s with scope := s.scope.push frame, depth := s.depth + 1 }
      w'.embed { inner with nodes := stored (Path.resolve w.name path.value) } inside =
        w.embed inner inside) :
    w'.embedAt path given' s = w.embedAt path given s := by
  have hget' : Table.get? w'.engine.templates (Path.resolve w'.name path.value) =
      (Table.get? w.engine.templates (Path.resolve w.name path.value)).map fun doc =>
        { doc with nodes := stored (Path.resolve w.name path.value) } := by
    rw [hw.name,hw.templates]
  cases hget : Table.get? w.engine.templates (Path.resolve w.name path.value) with
  | none =>
    rw [hget] at hget'
    rw [embedAt_of_get?_eq_none given' hget',embedAt_of_get?_eq_none given hget,hw.source,hw.name]
  | some inner =>
    rw [hget] at hget'
    obtain hlt | hle := Nat.lt_or_ge s.depth w.engine.maxIncludeDepth
    · rw [embedAt_of_lt given' hget' (hw.maxIncludeDepth ▸ hlt),embedAt_of_lt given hget hlt]
      refine bind_congr (hw.bindings (hgiven inner hget hlt) []) fun frame s' hframe => ?_
      have hstate := Engine.bindings_state w [] given s
      rw [hframe] at hstate
      cases hstate
      exact inFrame_congr (deeper_congr (hinner inner frame hget hlt hframe))
    · rw [embedAt_of_le given' hget' (hw.maxIncludeDepth ▸ hle),embedAt_of_le given hget hle,
        hw.source,hw.maxIncludeDepth]

theorem rounds (hw : w.Renewed stored w') {vars : LoopVars} {m m' : Render σ Unit}
    {items : List Value}
    (h : ∀ before item after t frame, items = before ++ item :: after →
      w.rounds vars items.length m 0 before s = (t,.ok ()) → vars.bind item = .ok frame →
      let f := Table.insert "loop" (loopInfo before.length items.length) frame
      inFrame f m' t = inFrame f m t) :
    w'.rounds vars items.length m' 0 items s = w.rounds vars items.length m 0 items s := by
  refine w.rounds_induction vars m
    (motive := fun before after t => w'.rounds vars items.length m' before.length after t =
      w.rounds vars items.length m before.length after t)
    (fun _ => rfl) fun before item after t hlist hbefore hlater => ?_
  unfold Surroundings.rounds
  refine bind_congr (hw.placed _) fun frame t' hframe => ?_
  rw [placed_apply] at hframe
  cases hbind : vars.bind item with
  | error f =>
    rw [hbind] at hframe
    cases hframe
  | ok frame' =>
    rw [hbind] at hframe
    cases hframe
    refine bind_congr (h before item after t frame hlist hbefore hbind) fun _ t' hround => ?_
    simpa using hlater frame t' hbind hround

end Surroundings.Renewed

variable {e : Engine} {sink : Sink σ} {stored : String → List Node} {doc : Document}

theorem Engine.rendering_renewed {nodes : List Node} {s : Rendering σ}
    (h : Node.renderList ((e.withNodes stored).surroundings sink doc) nodes s =
      Node.renderList (e.surroundings sink doc) doc.nodes s) :
    (e.withNodes stored).rendering sink { doc with nodes } s = e.rendering sink doc s := by
  cases hrun : Node.renderList (e.surroundings sink doc) doc.nodes s with
  | mk t r =>
    rw [rendering_of_nodes hrun]
    exact rendering_of_nodes (h.trans hrun)

end

end Stencil
