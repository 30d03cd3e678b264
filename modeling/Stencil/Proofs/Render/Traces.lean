import Stencil.Proofs.Render.Depth

/-!
What the nodes that are visited do themselves: they write texts and fail. Whatever goes on while a
document is rendered to a text comes from that.
-/

set_option autoImplicit false

namespace Stencil
open Render

/-- What a node writes itself when its turn comes in this scope. -/
inductive Node.Writes {σ : Type} (w : Surroundings σ) (scope : Scope) : Node → String → Prop
  | text {content span} : Writes w scope (.text content span) content
  | echo {t span v} : t.eval ⟨w.engine.functions,scope⟩ = .ok v →
      Writes w scope (.echo t span) (String.join (w.echoPieces v))
  | inserted {path span text} :
      Table.get? w.engine.texts (Path.resolve w.name path.value) = some text →
      Writes w scope (.insert path span) text
  | source {path span doc} :
      Table.get? w.engine.texts (Path.resolve w.name path.value) = none →
      Table.get? w.engine.templates (Path.resolve w.name path.value) = some doc →
      Writes w scope (.insert path span) doc.source

/-- The condition of a chain that fails, behind conditions that do not hold. -/
inductive Alternatives.Fails (env : Env) : Alternatives → Fault → Prop
  | condition {c span body rest f} : c.eval env = .error f → Fails env (.elif c span body rest) f
  | later {c span body rest v f} : c.eval env = .ok v → v.isTrue = false → Fails env rest f →
      Fails env (.elif c span body rest) f

/-- What a node fails with itself when its turn comes in this state. -/
inductive Node.Fails {σ : Type} (w : Surroundings σ) (s : Rendering σ) : Node → Fault → Prop
  | echo {t span f} : t.eval ⟨w.engine.functions,s.scope⟩ = .error f → Fails w s (.echo t span) f
  | assign {name t span f} : t.eval ⟨w.engine.functions,s.scope⟩ = .error f →
      Fails w s (.assign name t span) f
  | define {name t span f} : t.eval ⟨w.engine.functions,s.scope⟩ = .error f →
      Fails w s (.define name t span) f
  | condition {c span body rest f} :
      (Alternatives.elif c span body rest).Fails ⟨w.engine.functions,s.scope⟩ f →
      Fails w s (.branch c span body rest) f
  | iterable {vars t span body rest f} : t.eval ⟨w.engine.functions,s.scope⟩ = .error f →
      Fails w s (.loop vars t span body rest) f
  | items {vars t span body rest v cause} : t.eval ⟨w.engine.functions,s.scope⟩ = .ok v →
      v.iterate = .error cause → Fails w s (.loop vars t span body rest) ⟨cause,t.span⟩
  | round {vars t span body rest v before item after s' f} :
      t.eval ⟨w.engine.functions,s.scope⟩ = .ok v → v.iterate = .ok (before ++ item :: after) →
      w.rounds vars (before ++ item :: after).length (Node.renderList w body) 0 before s =
        (s',.ok ()) →
      vars.bind item = .error f → Fails w s (.loop vars t span body rest) f
  | unknownTemplate {path given span} :
      Table.get? w.engine.templates (Path.resolve w.name path.value) = none →
      Fails w s (.embed path given span)
        ⟨.unknownTemplate (Path.resolve w.name path.value),path.span⟩
  | includeDepth {path given span doc} :
      Table.get? w.engine.templates (Path.resolve w.name path.value) = some doc →
      w.engine.maxIncludeDepth ≤ s.depth →
      Fails w s (.embed path given span) ⟨.includeDepth w.engine.maxIncludeDepth,path.span⟩
  | binding {path given span doc b f} :
      Table.get? w.engine.templates (Path.resolve w.name path.value) = some doc →
      s.depth < w.engine.maxIncludeDepth → b ∈ given →
      b.2.eval ⟨w.engine.functions,s.scope⟩ = .error f → Fails w s (.embed path given span) f
  | unknownText {path span} :
      Table.get? w.engine.texts (Path.resolve w.name path.value) = none →
      Table.get? w.engine.templates (Path.resolve w.name path.value) = none →
      Fails w s (.insert path span) ⟨.unknownText (Path.resolve w.name path.value),path.span⟩

section

variable {σ : Type} {w : Surroundings σ} {s : Rendering σ}

theorem Tail.render_of_chosen?_eq_none {t : Tail} (h : t.chosen? = none) :
    t.render w s = (s,.ok ()) := by
  cases t with
  | otherwise _ _ _ => cases h
  | close _ => rfl

theorem Alternatives.render_of_chosen?_eq_none : (a : Alternatives) →
    a.chosen? ⟨w.engine.functions,s.scope⟩ = none → a.render w s = (s,.ok ()) ∨
      ∃ f, a.Fails ⟨w.engine.functions,s.scope⟩ f ∧
        a.render w s = (s,.error (Error.ofFault w.source f))
  | .elif c _ body rest, h => by
    unfold chosen? at h
    unfold Alternatives.render
    cases hv : c.eval ⟨w.engine.functions,s.scope⟩ with
    | error f =>
      rw [bind_apply_error (w.eval_of_error hv)]
      exact .inr ⟨f,.condition hv,rfl⟩
    | ok v =>
      simp only [hv] at h
      rw [bind_apply (w.eval_of_ok hv)]
      by_cases hc : v.isTrue
      · simp [hc] at h
      · simp only [hc] at h
        rw [if_neg hc]
        obtain hok | ⟨f,hfails,hrun⟩ := render_of_chosen?_eq_none rest h
        · exact .inl hok
        · exact .inr ⟨f,.later hv (Bool.eq_false_iff.mpr hc) hfails,hrun⟩
  | .last t, h => .inl (t.render_of_chosen?_eq_none h)

theorem Surroundings.fails_of_bindings {given : List (Located String × Term)} {frame : Frame}
    {s' : Rendering σ} {err : Error} (h : w.bindings frame given s = (s',.error err)) :
    ∃ b ∈ given, ∃ f, b.2.eval ⟨w.engine.functions,s.scope⟩ = .error f ∧
      err = Error.ofFault w.source f := by
  induction given generalizing frame with
  | nil => cases h
  | cons b rest ih =>
    unfold bindings at h
    cases hv : b.2.eval ⟨w.engine.functions,s.scope⟩ with
    | error f =>
      rw [bind_apply_error (Surroundings.eval_of_error hv)] at h
      cases h
      exact ⟨b,by simp,f,hv,rfl⟩
    | ok v =>
      rw [bind_apply (Surroundings.eval_of_ok hv)] at h
      obtain ⟨b',hb',hfails⟩ := ih h
      exact ⟨b',List.mem_cons_of_mem _ hb',hfails⟩

end

theorem Render.writeAll_text (pieces : List String) (s : Rendering String) :
    writeAll Sink.text pieces s = ({ s with sink := s.sink ++ String.join pieces },.ok ()) := by
  induction pieces generalizing s with
  | nil => simp [writeAll,Render.pure]
  | cons p ps ih =>
    have hwrite : write Sink.text p s = ({ s with sink := s.sink ++ p },.ok ()) := rfl
    unfold writeAll
    rw [bind_apply hwrite,ih,String.join_cons,String.append_assoc]

namespace Engine

def firstSite {σ : Type} (doc : Document) (globals : Frame) (state : σ) : Site σ :=
  ⟨[],doc,doc.nodes,⟨Scope.root globals,0,state⟩⟩

/-- A relation between a site, the texts before and behind, and the result. It holds of whatever
goes on at a site if it holds of what the nodes do themselves. -/
structure Traces (e : Engine) (R : Site String → String → String → Except Error Unit → Prop) :
    Prop where
  pass (a : Site String) (s : String) : R a s s (.ok ())
  trans {a : Site String} {r s t : String} {x : Except Error Unit} : R a r s (.ok ()) →
    R a s t x → R a r t x
  writes {a : Site String} {n : Node} {rest : List Node} {x : String} (s : String) :
    a.nodes = n :: rest → n.Writes (e.surroundings Sink.text a.doc) a.state.scope x →
    R a s (s ++ x) (.ok ())
  fails {a : Site String} {n : Node} {rest : List Node} {f : Fault} (s : String) :
    a.nodes = n :: rest → n.Fails (e.surroundings Sink.text a.doc) a.state f →
    R a s s (.error ⟨f.cause,some ⟨a.doc.source,f.span⟩,a.doc.name⟩)
  starts {a b : Site String} {s t : String} {x : Except Error Unit} :
    e.Starts Sink.text a b → R b s t x → R a s t (x.mapError (·.named a.doc.name))

namespace Traces

variable {e : Engine} {R : Site String → String → String → Except Error Unit → Prop}
  {a : Site String}

def Holds (R : Site String → String → String → Except Error Unit → Prop) (a : Site String)
    (m : Render String Unit) (s : Rendering String) : Prop :=
  R a s.sink (m s).1.sink ((m s).2.mapError (·.named a.doc.name))

/-- The relation holds of the sites that rendering a site starts. -/
def HoldsInside (e : Engine) (R : Site String → String → String → Except Error Unit → Prop)
    (a : Site String) : Prop :=
  ∀ b, e.Starts Sink.text a b →
    Holds R b (Node.renderList (e.surroundings Sink.text b.doc) b.nodes) b.state

theorem holds_of_ok (he : e.Traces R) {m : Render String Unit} {s : Rendering String}
    (h : m s = (s,.ok ())) : Holds R a m s := by
  unfold Holds
  rw [h]
  exact he.pass a s.sink

theorem Holds.bind (he : e.Traces R) {m : Render String Unit} {k : Unit → Render String Unit}
    {s : Rendering String} (hm : Holds R a m s)
    (hk : ∀ s', m s = (s',.ok ()) → Holds R a (k ()) s') : Holds R a (m >>= k) s := by
  unfold Holds at hm hk ⊢
  cases hrun : m s with
  | mk s' r =>
    rw [hrun] at hm
    cases r with
    | error err =>
      rw [bind_apply_error hrun]
      exact hm
    | ok u =>
      rw [bind_apply hrun]
      exact he.trans hm (hk s' hrun)

theorem named_named (name : Option String) (x : Except Error Unit) :
    (x.mapError (·.named name)).mapError (·.named name) = x.mapError (·.named name) := by
  cases x with
  | ok _ => rfl
  | error err =>
    have htwice : (err.named name).named name = err.named name := by
      cases h : err.name <;> simp [Error.named,h]
    exact congrArg Except.error htwice

theorem Holds.inFrame (he : e.Traces R) {b : Site String} (hstart : e.Starts Sink.text a b)
    (hdoc : b.doc = a.doc) {m : Render String Unit} {s : Rendering String} {f : Frame}
    (hstate : b.state = { s with scope := s.scope.push f }) (h : Holds R b m b.state) :
    Holds R a (inFrame f m) s := by
  have hstarts := he.starts hstart h
  rw [hdoc,named_named,hstate] at hstarts
  exact hstarts

section

variable {outer : List Document} {doc : Document} {ns : List Node} {s : Rendering String}

theorem holds_of_fails (he : e.Traces R) {n : Node} {f : Fault}
    (hfails : n.Fails (e.surroundings Sink.text doc) s f) {m : Render String Unit}
    {s' : Rendering String} (h : m s' = (s',.error (Error.ofFault doc.source f))) :
    Holds R ⟨outer,doc,n :: ns,s⟩ m s' := by
  unfold Holds
  rw [h]
  exact he.fails s'.sink rfl hfails

theorem holds_eval (he : e.Traces R) {n : Node} {t : Term} {k : Value → Render String Unit}
    (hfails : ∀ f, t.eval ⟨e.functions,s.scope⟩ = .error f →
      n.Fails (e.surroundings Sink.text doc) s f)
    (hk : ∀ v, t.eval ⟨e.functions,s.scope⟩ = .ok v → Holds R ⟨outer,doc,n :: ns,s⟩ (k v) s) :
    Holds R ⟨outer,doc,n :: ns,s⟩ ((e.surroundings Sink.text doc).eval t >>= k) s := by
  cases hv : t.eval ⟨e.functions,s.scope⟩ with
  | error f =>
    exact holds_of_fails he (hfails f hv)
      (bind_apply_error (Surroundings.eval_of_error (w := e.surroundings Sink.text doc) hv) k)
  | ok v =>
    unfold Holds
    rw [bind_apply (Surroundings.eval_of_ok (w := e.surroundings Sink.text doc) hv)]
    exact hk v hv

theorem holds_chosen (he : e.Traces R) {n : Node} {body : List Node}
    (ih : HoldsInside e R ⟨outer,doc,n :: ns,s⟩)
    (h : n.chosen? ⟨e.functions,s.scope⟩ = some body) :
    Holds R ⟨outer,doc,n :: ns,s⟩ (n.render (e.surroundings Sink.text doc)) s := by
  have hstart : e.Starts Sink.text ⟨outer,doc,n :: ns,s⟩ _ := .body h
  have hbody := Holds.inFrame he hstart rfl rfl (ih _ hstart)
  unfold Holds at hbody ⊢
  rwa [Node.render_of_chosen? (w := e.surroundings Sink.text doc) h]

theorem holds_embed (he : e.Traces R) {path : Located String}
    {given : List (Located String × Term)} {span : Span}
    (ih : HoldsInside e R ⟨outer,doc,.embed path given span :: ns,s⟩) :
    Holds R ⟨outer,doc,.embed path given span :: ns,s⟩
      ((e.surroundings Sink.text doc).embedAt path given) s := by
  cases hget : Table.get? e.templates (Path.resolve doc.name path.value) with
  | none =>
    exact holds_of_fails he (.unknownTemplate hget)
      (Surroundings.embedAt_of_get?_eq_none (w := e.surroundings Sink.text doc) given hget)
  | some inner =>
    obtain hlt | hle := Nat.lt_or_ge s.depth e.maxIncludeDepth
    · have hstate := bindings_state (e.surroundings Sink.text doc) [] given s
      have hembed := Surroundings.embedAt_of_lt (w := e.surroundings Sink.text doc) given hget hlt
      cases hgiven : (e.surroundings Sink.text doc).bindings [] given s with
      | mk s' r =>
        rw [hgiven] at hstate
        cases hstate
        cases r with
        | error err =>
          obtain ⟨b,hb,f,hf,rfl⟩ := Surroundings.fails_of_bindings hgiven
          exact holds_of_fails he (.binding hget hlt hb hf)
            (hembed.trans (bind_apply_error hgiven _))
        | ok frame =>
          have hstart : e.Starts Sink.text ⟨outer,doc,.embed path given span :: ns,s'⟩ _ :=
            .embed hget hlt hgiven
          have hinner := he.starts hstart (ih _ hstart)
          unfold Holds
          rw [Surroundings.embedAt_of_embed (w := e.surroundings Sink.text doc) hget hlt hgiven
            (rendering_of_nodes rfl)]
          exact hinner
    · exact holds_of_fails he (.includeDepth hget hle)
        (Surroundings.embedAt_of_le (w := e.surroundings Sink.text doc) given hget hle)

theorem holds_insert (he : e.Traces R) {path : Located String} {span : Span} :
    Holds R ⟨outer,doc,.insert path span :: ns,s⟩
      ((e.surroundings Sink.text doc).insertAt path) s := by
  unfold Surroundings.insertAt
  dsimp only [surroundings,Document.surroundings]
  cases htext : Table.get? e.texts (Path.resolve doc.name path.value) with
  | some text => exact he.writes s.sink rfl (.inserted htext)
  | none =>
    cases hsource : Table.get? e.templates (Path.resolve doc.name path.value) with
    | some inner => exact he.writes s.sink rfl (.source htext hsource)
    | none =>
      exact holds_of_fails he (.unknownText htext hsource) (Surroundings.placed_apply _ _ s)

theorem holds_rounds (he : e.Traces R) {vars : LoopVars} {t : Term} {span : Span}
    {body : List Node} {rest : Tail} {v : Value} {items : List Value}
    (ih : HoldsInside e R ⟨outer,doc,.loop vars t span body rest :: ns,s⟩)
    (hv : t.eval ⟨e.functions,s.scope⟩ = .ok v) (hitems : v.iterate = .ok items) :
    Holds R ⟨outer,doc,.loop vars t span body rest :: ns,s⟩
      ((e.surroundings Sink.text doc).rounds vars items.length
        (Node.renderList (e.surroundings Sink.text doc) body) 0 items) s := by
  refine (e.surroundings Sink.text doc).rounds_induction vars
    (Node.renderList (e.surroundings Sink.text doc) body)
    (motive := fun before after s' => Holds R ⟨outer,doc,.loop vars t span body rest :: ns,s⟩
      ((e.surroundings Sink.text doc).rounds vars items.length
        (Node.renderList (e.surroundings Sink.text doc) body) before.length after) s')
    (fun _ => he.pass _ _) fun before item after s' hlist hbefore hlater => ?_
  subst hlist
  unfold Surroundings.rounds
  cases hbind : vars.bind item with
  | error f =>
    exact holds_of_fails he (.round hv hitems hbefore hbind)
      (bind_apply_error (Surroundings.placed_apply _ _ s') _)
  | ok frame =>
    have hstart : e.Starts Sink.text ⟨outer,doc,.loop vars t span body rest :: ns,s⟩ _ :=
      .round hv hitems hbefore hbind
    have hround := Holds.inFrame he hstart rfl rfl (ih _ hstart)
    unfold Holds
    rw [bind_apply (Surroundings.placed_apply _ _ s')]
    refine hround.bind he fun s'' hrun => ?_
    simpa using hlater frame s'' hbind hrun

theorem holds_node (he : e.Traces R) {n : Node} (ih : HoldsInside e R ⟨outer,doc,n :: ns,s⟩) :
    Holds R ⟨outer,doc,n :: ns,s⟩ (n.render (e.surroundings Sink.text doc)) s := by
  cases n with
  | text content span => exact he.writes s.sink rfl .text
  | echo t span =>
    refine holds_eval he (fun f hf => .echo hf) fun v hv => ?_
    show Holds R _ (writeAll Sink.text _) s
    unfold Holds
    rw [writeAll_text]
    exact he.writes s.sink rfl (.echo hv)
  | assign name t span => exact holds_eval he (fun f hf => .assign hf) fun v hv => he.pass _ _
  | define name t span => exact holds_eval he (fun f hf => .define hf) fun v hv => he.pass _ _
  | embed path given span => exact holds_embed he ih
  | insert path span => exact holds_insert he
  | branch c span body rest =>
    cases hchosen : (Node.branch c span body rest).chosen? ⟨e.functions,s.scope⟩ with
    | some inner => exact holds_chosen he ih hchosen
    | none =>
      obtain hok | ⟨f,hfails,hrun⟩ := (Alternatives.elif c span body rest).render_of_chosen?_eq_none
        (w := e.surroundings Sink.text doc) hchosen
      · exact holds_of_ok he hok
      · exact holds_of_fails he (.condition hfails) hrun
  | loop vars t span body rest =>
    cases hchosen : (Node.loop vars t span body rest).chosen? ⟨e.functions,s.scope⟩ with
    | some inner => exact holds_chosen he ih hchosen
    | none =>
      unfold Node.render
      refine holds_eval he (fun f hf => .iterable hf) fun v hv => ?_
      cases hitems : v.iterate with
      | error c =>
        simp only [Except.placedAt]
        exact holds_of_fails he (.items hv hitems)
          (bind_apply_error (Surroundings.placed_apply _ _ s) _)
      | ok items =>
        simp only [Except.placedAt]
        unfold Holds
        rw [bind_apply (Surroundings.placed_apply _ _ s)]
        cases items with
        | nil =>
          unfold Node.chosen? at hchosen
          simp only [hv,hitems] at hchosen
          rw [if_pos (by rfl)]
          exact holds_of_ok he (rest.render_of_chosen?_eq_none hchosen)
        | cons item items =>
          rw [if_neg (by simp)]
          exact holds_rounds he ih hv hitems

end

/-- By induction on what rendering a site starts, which has an end. -/
theorem holds_nodes (he : e.Traces R) (a : Site String) :
    Holds R a (Node.renderList (e.surroundings Sink.text a.doc) a.nodes) a.state := by
  induction a using (starts_wf e Sink.text).induction with
  | _ a ih =>
    obtain ⟨outer,doc,nodes,s⟩ := a
    cases nodes with
    | nil => exact he.pass _ _
    | cons n ns =>
      refine Holds.bind he (holds_node he ih) fun s' hrun => ?_
      have hstart : e.Starts Sink.text ⟨outer,doc,n :: ns,s⟩ _ := .next hrun
      have hstarts := he.starts hstart (ih _ hstart)
      rwa [named_named] at hstarts

theorem holds_run (he : e.Traces R) (doc : Document) {context : Value} {frame : Frame}
    (h : globals context = .ok frame) :
    R (firstSite doc frame "") "" (e.run doc Sink.text "" context).1
      (e.run doc Sink.text "" context).2 := by
  rw [run_of_globals h,rendering_of_nodes rfl]
  exact he.holds_nodes (firstSite doc frame "")

end Traces

end Engine

end Stencil
