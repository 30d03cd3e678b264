import Mathlib.Logic.Relation
import Stencil.Proofs.Render.Levels

set_option autoImplicit false

namespace Stencil
open Render

def Tail.chosen? : Tail → Option (List Node)
  | .otherwise _ body _ => some body
  | .close _ => none

def Alternatives.chosen? (env : Env) : Alternatives → Option (List Node)
  | .elif c _ body rest =>
    match c.eval env with
    | .ok v => if v.isTrue then some body else rest.chosen? env
    | .error _ => none
  | .last tail => tail.chosen?

def Node.chosen? (env : Env) : Node → Option (List Node)
  | .branch c s body rest => (Alternatives.elif c s body rest).chosen? env
  | .loop _ t _ _ rest =>
    match t.eval env with
    | .ok v =>
      match v.iterate with
      | .ok [] => rest.chosen?
      | _ => none
    | .error _ => none
  | _ => none

section

variable {σ : Type} {w : Surroundings σ} {body : List Node}

theorem Surroundings.eval_of_ok {t : Term} {s : Rendering σ} {v : Value}
    (h : t.eval ⟨w.engine.functions,s.scope⟩ = .ok v) : w.eval t s = (s,.ok v) := by
  rw [w.eval_apply,h]
  rfl

theorem Surroundings.eval_of_error {t : Term} {s : Rendering σ} {f : Fault}
    (h : t.eval ⟨w.engine.functions,s.scope⟩ = .error f) :
    w.eval t s = (s,.error (Error.ofFault w.source f)) := by
  rw [w.eval_apply,h]
  rfl

theorem Tail.render_of_chosen? {t : Tail} (h : t.chosen? = some body) :
    t.render w = inFrame [] (Node.renderList w body) := by
  cases t with
  | otherwise _ inner _ =>
    cases h
    rfl
  | close _ => cases h

theorem Alternatives.render_of_chosen? {s : Rendering σ} : (a : Alternatives) →
    a.chosen? ⟨w.engine.functions,s.scope⟩ = some body →
    a.render w s = inFrame [] (Node.renderList w body) s
  | .elif c _ inner rest, h => by
    unfold chosen? at h
    unfold Alternatives.render
    cases hv : c.eval ⟨w.engine.functions,s.scope⟩ with
    | error f => simp [hv] at h
    | ok v =>
      simp only [hv] at h
      rw [bind_apply (w.eval_of_ok hv)]
      by_cases hc : v.isTrue
      · simp only [hc,if_true,Option.some.injEq] at h
        rw [if_pos hc,h]
      · simp only [hc] at h
        rw [if_neg hc]
        exact render_of_chosen? rest h
  | .last t, h => congrFun (t.render_of_chosen? h) s

theorem Node.render_of_chosen? {n : Node} {s : Rendering σ}
    (h : n.chosen? ⟨w.engine.functions,s.scope⟩ = some body) :
    n.render w s = inFrame [] (Node.renderList w body) s := by
  cases n with
  | branch c span inner rest => exact (Alternatives.elif c span inner rest).render_of_chosen? h
  | loop vars t span inner rest =>
    unfold chosen? at h
    unfold Node.render
    cases hv : t.eval ⟨w.engine.functions,s.scope⟩ with
    | error f => simp [hv] at h
    | ok v =>
      cases hitems : v.iterate with
      | error c => simp [hv,hitems] at h
      | ok items =>
        cases items with
        | cons item items => simp [hv,hitems] at h
        | nil =>
          simp only [hv,hitems] at h
          rw [bind_apply (w.eval_of_ok hv)]
          simp only [hitems,Except.placedAt]
          exact congrFun (rest.render_of_chosen? h) s
  | _ => cases h

theorem Surroundings.rounds_append {vars : LoopVars} {length : Nat} {m : Render σ Unit}
    (before after : List Value) (index : Nat) :
    w.rounds vars length m index (before ++ after) =
      w.rounds vars length m index before >>= fun _ =>
        w.rounds vars length m (index + before.length) after := by
  induction before generalizing index with
  | nil => rfl
  | cons item before ih =>
    simp only [List.cons_append,rounds,bind_assoc,ih,List.length_cons]
    rw [Nat.add_assoc,Nat.add_comm 1]

theorem Surroundings.rounds_snoc {vars : LoopVars} {length : Nat} {m : Render σ Unit}
    {before : List Value} {item : Value} {frame : Frame} {s s' s'' : Rendering σ}
    (hbefore : w.rounds vars length m 0 before s = (s',.ok ())) (hbind : vars.bind item = .ok frame)
    (hround : inFrame (Table.insert "loop" (loopInfo before.length length) frame) m s' =
      (s'',.ok ())) :
    w.rounds vars length m 0 (before ++ [item]) s = (s'',.ok ()) := by
  rw [rounds_append,bind_apply hbefore]
  simp only [rounds,hbind,Nat.zero_add]
  rw [bind_apply (w.placed_apply _ s'),bind_apply hround]
  rfl

/-- The rounds of a loop, as an induction: of what is to hold wherever rounds have been rendered, it
is enough that it holds behind the last item, and in front of an item if it holds behind its round. -/
theorem Surroundings.rounds_induction (w : Surroundings σ) (vars : LoopVars) (m : Render σ Unit)
    {items : List Value} {s : Rendering σ} {motive : List Value → List Value → Rendering σ → Prop}
    (last : ∀ s', motive items [] s')
    (round : ∀ before item after s', items = before ++ item :: after →
      w.rounds vars items.length m 0 before s = (s',.ok ()) →
      (∀ frame s'', vars.bind item = .ok frame →
        inFrame (Table.insert "loop" (loopInfo before.length items.length) frame) m s' =
          (s'',.ok ()) → motive (before ++ [item]) after s'') →
      motive before (item :: after) s') : motive [] items s := by
  suffices h : ∀ after before s', items = before ++ after →
      w.rounds vars items.length m 0 before s = (s',.ok ()) → motive before after s' from
    h items [] s rfl rfl
  intro after
  induction after with
  | nil =>
    intro before s' hitems _
    rw [List.append_nil] at hitems
    exact hitems ▸ last s'
  | cons item after ih =>
    intro before s' hitems hbefore
    refine round before item after s' hitems hbefore fun frame s'' hbind hround => ?_
    exact ih (before ++ [item]) s'' (by simp [hitems]) (rounds_snoc hbefore hbind hround)

theorem Node.render_loop {vars : LoopVars} {t : Term} {span : Span} {rest : Tail} {v : Value}
    {items : List Value} {s : Rendering σ} (hv : t.eval ⟨w.engine.functions,s.scope⟩ = .ok v)
    (hitems : v.iterate = .ok items) (hne : items ≠ []) :
    (Node.loop vars t span body rest).render w s =
      w.rounds vars items.length (Node.renderList w body) 0 items s := by
  unfold Node.render
  rw [bind_apply (w.eval_of_ok hv)]
  simp only [hitems,Except.placedAt]
  show (if items.isEmpty then _ else _ : Render σ Unit) s = _
  rw [if_neg (by simp [hne])]

theorem Surroundings.embedAt_of_embed {path : Located String}
    {given : List (Located String × Term)} {doc : Document} {frame : Frame}
    {s s' t : Rendering σ} {r : Except Error Unit}
    (hget : Table.get? w.engine.templates (Path.resolve w.name path.value) = some doc)
    (hlt : s.depth < w.engine.maxIncludeDepth) (hgiven : w.bindings [] given s = (s',.ok frame))
    (hembed : w.embed doc { s' with scope := s'.scope.push frame, depth := s'.depth + 1 } = (t,r)) :
    w.embedAt path given s = ({ t with depth := t.depth - 1, scope := t.scope.pop },r) := by
  rw [embedAt_of_lt given hget hlt,bind_apply hgiven]
  unfold inFrame deeper
  simp only [hembed]

end

/-- A sequence of nodes whose turn has come, in a document inside others, the innermost of these
first. -/
structure Site (σ : Type) where
  outer : List Document
  doc : Document
  nodes : List Node
  state : Rendering σ

namespace Engine

variable {σ : Type}

/-- Rendering the nodes of the first site starts rendering those of the second one. -/
inductive Starts (e : Engine) (sink : Sink σ) : Site σ → Site σ → Prop
  | next {outer doc n ns s s'} : n.render (e.surroundings sink doc) s = (s',.ok ()) →
      Starts e sink ⟨outer,doc,n :: ns,s⟩ ⟨outer,doc,ns,s'⟩
  | body {outer doc n ns body} {s : Rendering σ} :
      n.chosen? ⟨e.functions,s.scope⟩ = some body →
      Starts e sink ⟨outer,doc,n :: ns,s⟩
        ⟨outer,doc,body,{ s with scope := s.scope.push [] }⟩
  | round {outer doc vars t span body rest ns v before item after frame} {s s' : Rendering σ} :
      t.eval ⟨e.functions,s.scope⟩ = .ok v → v.iterate = .ok (before ++ item :: after) →
      (e.surroundings sink doc).rounds vars (before ++ item :: after).length
        (Node.renderList (e.surroundings sink doc) body) 0 before s = (s',.ok ()) →
      vars.bind item = .ok frame →
      Starts e sink ⟨outer,doc,.loop vars t span body rest :: ns,s⟩
        ⟨outer,doc,body,{ s' with
          scope := s'.scope.push (Table.insert "loop"
            (loopInfo before.length (before ++ item :: after).length) frame) }⟩
  | embed {outer doc path given span ns inner frame} {s s' : Rendering σ} :
      Table.get? e.templates (Path.resolve doc.name path.value) = some inner →
      s.depth < e.maxIncludeDepth →
      (e.surroundings sink doc).bindings [] given s = (s',.ok frame) →
      Starts e sink ⟨outer,doc,.embed path given span :: ns,s⟩
        ⟨doc :: outer,inner,inner.nodes,
          { s' with scope := s'.scope.push frame, depth := s'.depth + 1 }⟩

/-- Rendering the nodes of the first site comes to the second one. -/
def Visits (e : Engine) (sink : Sink σ) : Site σ → Site σ → Prop :=
  Relation.ReflTransGen (e.Starts sink)

variable {e : Engine} {sink : Sink σ} {doc : Document}

theorem agree_closed (d : Nat) :
    (agreement d).Closed (e.surroundings sink doc) (e.surroundings sink doc) :=
  Document.agree_closed

theorem agree_embeds (d : Nat) :
    (agreement d).Embeds (e.surroundings sink doc) (e.surroundings sink doc) :=
  Document.agree_embeds fun hlt _ => Document.agree_render hlt (by omega) (by omega) _

theorem depth_render (n : Node) (s : Rendering σ) :
    (n.render (e.surroundings sink doc) s).1.depth = s.depth :=
  (Node.related (agree_closed s.depth) (agree_embeds s.depth) n (fun _ _ => trivial) s rfl).2

theorem depth_rounds (vars : LoopVars) (length : Nat) (body : List Node) (index : Nat)
    (items : List Value) (s : Rendering σ) :
    ((e.surroundings sink doc).rounds vars length
      (Node.renderList (e.surroundings sink doc) body) index items s).1.depth = s.depth := by
  have hclosed : (agreement s.depth).Closed (e.surroundings sink doc) (e.surroundings sink doc) :=
    agree_closed s.depth
  have hbody := Node.list_related hclosed (agree_embeds s.depth) body fun _ _ => trivial
  exact (hclosed.rounds (t := .list [] ⟨0,0⟩) (s := ⟨0,0⟩) trivial hbody items index
    (fun _ _ => trivial) s rfl).2

theorem bindings_state (w : Surroundings σ) (frame : Frame)
    (given : List (Located String × Term)) (s : Rendering σ) :
    (w.bindings frame given s).1 = s := by
  induction given generalizing frame with
  | nil => rfl
  | cons b rest ih =>
    show (Render.bind (w.eval b.2) _ s).1 = s
    unfold Render.bind
    rw [w.eval_apply]
    cases b.2.eval ⟨w.engine.functions,s.scope⟩ with
    | ok v => exact ih _
    | error f => rfl

/-- The depth at a site is the number of documents around it. -/
theorem depth_of_starts {a b : Site σ} (h : e.Starts sink a b)
    (ha : a.state.depth = a.outer.length) : b.state.depth = b.outer.length := by
  cases h with
  | @next _ doc n _ s _ hrun =>
    have hdepth := congrArg (fun r => r.1.depth) hrun
    exact hdepth.symm.trans ((depth_render n s).trans ha)
  | body => exact ha
  | @round _ doc _ _ _ _ _ _ _ _ _ _ _ s _ _ _ hrun =>
    have hdepth := congrArg (fun r => r.1.depth) hrun
    exact hdepth.symm.trans ((depth_rounds _ _ _ 0 _ s).trans ha)
  | @embed _ doc _ given _ _ _ _ s _ _ _ hrun =>
    have hstate := bindings_state (e.surroundings sink doc) [] given s
    rw [hrun] at hstate
    subst hstate
    exact congrArg (· + 1) ha

end Engine

end Stencil
