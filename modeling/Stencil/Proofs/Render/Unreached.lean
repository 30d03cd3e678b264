import Stencil.Proofs.Render.Depth
import Stencil.Proofs.Render.Renewed

set_option autoImplicit false

namespace Stencil
open Render

section

variable {σ : Type}

mutual

/-- The second node is the first one, except that anything may stand in the place of what is not
reached when the first one is rendered in this state: of conditions and bodies behind the first
condition that holds, of the bodies of conditions that do not hold, of the other body of a loop over
items, of the body of a loop over nothing, of operands that are not reached, and of all that comes
behind a failure. What is reached in some round of a loop, or wherever a template is embedded, stays;
the nodes of stored templates are replaced by `stored`. -/
inductive Node.SameReached (e : Engine) (sink : Sink σ) (stored : String → List Node) :
    Document → Rendering σ → Node → Node → Prop
  | text {doc s content span} :
      Node.SameReached e sink stored doc s (.text content span) (.text content span)
  | echo {doc s t t' span} : t.SameReached ⟨e.functions,s.scope⟩ t' →
      Node.SameReached e sink stored doc s (.echo t span) (.echo t' span)
  | assign {doc s name t t' span} : t.SameReached ⟨e.functions,s.scope⟩ t' →
      Node.SameReached e sink stored doc s (.assign name t span) (.assign name t' span)
  | define {doc s name t t' span} : t.SameReached ⟨e.functions,s.scope⟩ t' →
      Node.SameReached e sink stored doc s (.define name t span) (.define name t' span)
  | insert {doc s path span} :
      Node.SameReached e sink stored doc s (.insert path span) (.insert path span)
  | embed {doc s path given given' span} :
      (∀ inner, Table.get? e.templates (Path.resolve doc.name path.value) = some inner →
        s.depth < e.maxIncludeDepth → SameReachedBindings ⟨e.functions,s.scope⟩ given given') →
      (∀ inner frame, Table.get? e.templates (Path.resolve doc.name path.value) = some inner →
        s.depth < e.maxIncludeDepth →
        (e.surroundings sink doc).bindings [] given s = (s,.ok frame) →
        Node.ListSameReached e sink stored inner
          { s with scope := s.scope.push frame, depth := s.depth + 1 }
          inner.nodes (stored (Path.resolve doc.name path.value))) →
      Node.SameReached e sink stored doc s (.embed path given span) (.embed path given' span)
  | branch {doc s c c' span body body' rest rest'} :
      Alternatives.SameReached e sink stored doc s (.elif c span body rest)
        (.elif c' span body' rest') →
      Node.SameReached e sink stored doc s (.branch c span body rest) (.branch c' span body' rest')
  | loop {doc s vars t t' span body body' rest rest'} : t.SameReached ⟨e.functions,s.scope⟩ t' →
      (∀ v, t.eval ⟨e.functions,s.scope⟩ = .ok v → v.iterate = .ok [] →
        Tail.SameReached e sink stored doc s rest rest') →
      (∀ v before item after s' frame, t.eval ⟨e.functions,s.scope⟩ = .ok v →
        v.iterate = .ok (before ++ item :: after) →
        (e.surroundings sink doc).rounds vars (before ++ item :: after).length
          (Node.renderList (e.surroundings sink doc) body) 0 before s = (s',.ok ()) →
        vars.bind item = .ok frame →
        Node.ListSameReached e sink stored doc { s' with
          scope := s'.scope.push (Table.insert "loop"
            (loopInfo before.length (before ++ item :: after).length) frame) } body body') →
      Node.SameReached e sink stored doc s (.loop vars t span body rest)
        (.loop vars t' span body' rest')

/-- The same of sequences of nodes: behind one that fails, anything may follow. -/
inductive Node.ListSameReached (e : Engine) (sink : Sink σ) (stored : String → List Node) :
    Document → Rendering σ → List Node → List Node → Prop
  | nil {doc s} : Node.ListSameReached e sink stored doc s [] []
  | cons {doc s n n' ns ns'} : Node.SameReached e sink stored doc s n n' →
      (∀ s', n.render (e.surroundings sink doc) s = (s',.ok ()) →
        Node.ListSameReached e sink stored doc s' ns ns') →
      Node.ListSameReached e sink stored doc s (n :: ns) (n' :: ns')

inductive Alternatives.SameReached (e : Engine) (sink : Sink σ) (stored : String → List Node) :
    Document → Rendering σ → Alternatives → Alternatives → Prop
  | elif {doc s c c' span body body' rest rest'} : c.SameReached ⟨e.functions,s.scope⟩ c' →
      (∀ v, c.eval ⟨e.functions,s.scope⟩ = .ok v → v.isTrue = true →
        Node.ListSameReached e sink stored doc { s with scope := s.scope.push [] } body body') →
      (∀ v, c.eval ⟨e.functions,s.scope⟩ = .ok v → v.isTrue = false →
        Alternatives.SameReached e sink stored doc s rest rest') →
      Alternatives.SameReached e sink stored doc s (.elif c span body rest)
        (.elif c' span body' rest')
  | last {doc s tail tail'} : Tail.SameReached e sink stored doc s tail tail' →
      Alternatives.SameReached e sink stored doc s (.last tail) (.last tail')

inductive Tail.SameReached (e : Engine) (sink : Sink σ) (stored : String → List Node) :
    Document → Rendering σ → Tail → Tail → Prop
  | otherwise {doc s opening body body' closing} :
      Node.ListSameReached e sink stored doc { s with scope := s.scope.push [] } body body' →
      Tail.SameReached e sink stored doc s (.otherwise opening body closing)
        (.otherwise opening body' closing)
  | close {doc s span} : Tail.SameReached e sink stored doc s (.close span) (.close span)

end

variable {e : Engine} {sink : Sink σ} {stored : String → List Node} {doc : Document}

mutual

/-- By induction on what is reached. -/
theorem Node.SameReached.render_eq {doc : Document} {s : Rendering σ} {n n' : Node} :
    Node.SameReached e sink stored doc s n n' →
    n'.render ((e.withNodes stored).surroundings sink doc) s = n.render (e.surroundings sink doc) s
  | .text => by
    simp only [Node.render,Engine.sink_surroundings]
  | .echo h => (e.renewed_surroundings sink stored doc).eval_bind h fun v _ =>
    congrFun ((e.renewed_surroundings sink stored doc).echo v) s
  | .assign h => (e.renewed_surroundings sink stored doc).eval_bind h fun _ _ => rfl
  | .define h => (e.renewed_surroundings sink stored doc).eval_bind h fun _ _ => rfl
  | .insert => (e.renewed_surroundings sink stored doc).insertAt _
  | .embed hgiven hinner => (e.renewed_surroundings sink stored doc).embedAt hgiven
    fun inner frame hget hlt hframe =>
      Engine.rendering_renewed (hinner inner frame hget hlt hframe).renderList_eq
  | .branch h => h.render_eq
  | .loop ht hrest hbody => by
    have hw := e.renewed_surroundings sink stored doc
    unfold Node.render
    rw [ht.span_eq]
    refine hw.eval_bind ht fun v hv => bind_congr (hw.placed _) fun items t hitems => ?_
    rw [Surroundings.placed_apply] at hitems
    cases hiterate : v.iterate with
    | error c =>
      rw [hiterate] at hitems
      cases hitems
    | ok items' =>
      rw [hiterate] at hitems
      cases hitems
      cases items with
      | nil => exact (hrest v hv hiterate).render_eq
      | cons item items =>
        refine hw.rounds fun before it after t frame hlist hrun hbind => ?_
        rw [hlist] at hiterate hrun ⊢
        exact inFrame_congr (hbody v before it after t frame hv hiterate hrun hbind).renderList_eq

theorem Node.ListSameReached.renderList_eq {doc : Document} {s : Rendering σ} {ns ns' : List Node} :
    Node.ListSameReached e sink stored doc s ns ns' →
    Node.renderList ((e.withNodes stored).surroundings sink doc) ns' s =
      Node.renderList (e.surroundings sink doc) ns s
  | .nil => by
    simp only [Node.renderList]
  | .cons h hs => bind_congr h.render_eq fun _ s' hrun => (hs s' hrun).renderList_eq

theorem Alternatives.SameReached.render_eq {doc : Document} {s : Rendering σ}
    {a a' : Alternatives} : Alternatives.SameReached e sink stored doc s a a' →
    a'.render ((e.withNodes stored).surroundings sink doc) s = a.render (e.surroundings sink doc) s
  | .elif hc hbody hrest => by
    unfold Alternatives.render
    refine (e.renewed_surroundings sink stored doc).eval_bind hc fun v hv => ?_
    split
    · exact inFrame_congr (hbody v hv ‹_›).renderList_eq
    · exact (hrest v hv (Bool.eq_false_iff.mpr ‹_›)).render_eq
  | .last h => h.render_eq

theorem Tail.SameReached.render_eq {doc : Document} {s : Rendering σ} {t t' : Tail} :
    Tail.SameReached e sink stored doc s t t' →
    t'.render ((e.withNodes stored).surroundings sink doc) s = t.render (e.surroundings sink doc) s
  | .otherwise h => inFrame_congr h.renderList_eq
  | .close => by
    simp only [Tail.render]

end

section

variable {outer : List Document} {n : Node} {ns : List Node} {s : Rendering σ}

theorem Tail.sameReached_self {t : Tail} (h : ∀ body, t.chosen? = some body →
    Node.ListSameReached e sink stored doc { s with scope := s.scope.push [] } body body) :
    Tail.SameReached e sink stored doc s t t := by
  cases t with
  | otherwise _ body _ => exact .otherwise (h body rfl)
  | close _ => exact .close

theorem Alternatives.sameReached_self : (a : Alternatives) →
    (∀ body, a.chosen? ⟨e.functions,s.scope⟩ = some body →
      Node.ListSameReached e sink stored doc { s with scope := s.scope.push [] } body body) →
    Alternatives.SameReached e sink stored doc s a a
  | .elif c _ body rest, h =>
    .elif c.sameReached_self (fun v hv htrue => h body (by simp [chosen?,hv,htrue]))
      fun v hv hfalse => rest.sameReached_self fun inner hinner =>
        h inner (by simpa [chosen?,hv,hfalse] using hinner)
  | .last t, h => .last (t.sameReached_self h)

theorem sameReachedBindings_self {env : Env} (given : List (Located String × Term)) :
    SameReachedBindings env given given := by
  induction given with
  | nil => exact .nil
  | cons b rest ih => exact .cons b.2.sameReached_self fun _ _ => ih

theorem Node.sameReached_self
    (hstored : ∀ key inner, Table.get? e.templates key = some inner → stored key = inner.nodes)
    (ih : ∀ b, e.Starts sink ⟨outer,doc,n :: ns,s⟩ b →
      Node.ListSameReached e sink stored b.doc b.state b.nodes b.nodes) :
    Node.SameReached e sink stored doc s n n := by
  cases n with
  | text => exact .text
  | echo t => exact .echo t.sameReached_self
  | assign _ t => exact .assign t.sameReached_self
  | define _ t => exact .define t.sameReached_self
  | insert => exact .insert
  | embed path given span =>
    refine .embed (fun _ _ _ => sameReachedBindings_self given) fun inner frame hget hlt hrun => ?_
    rw [hstored _ inner hget]
    exact ih _ (.embed hget hlt hrun)
  | branch c span body rest =>
    exact .branch (Alternatives.sameReached_self _ fun inner hinner => ih _ (.body hinner))
  | loop vars t span body rest =>
    refine .loop t.sameReached_self (fun v hv hitems => ?_) ?_
    · exact rest.sameReached_self fun inner hinner =>
        ih _ (.body (by simp [chosen?,hv,hitems,hinner]))
    · intro v before item after s' frame hv hitems hrun hbind
      exact ih _ (.round hv hitems hrun hbind)

end

/-- With nothing replaced, the nodes are the same as far as they are reached. By induction on what
rendering a site starts, which has an end. -/
theorem Node.listSameReached_self
    (hstored : ∀ key inner, Table.get? e.templates key = some inner → stored key = inner.nodes)
    (a : Site σ) : Node.ListSameReached e sink stored a.doc a.state a.nodes a.nodes := by
  induction a using (Engine.starts_wf e sink).induction with
  | _ a ih =>
    obtain ⟨outer,doc,nodes,s⟩ := a
    cases nodes with
    | nil => exact .nil
    | cons n ns =>
      exact .cons (Node.sameReached_self hstored ih) fun s' hrun => ih _ (.next hrun)

end

namespace Engine

theorem run_of_sameReached {σ : Type} {e : Engine} {sink : Sink σ} {stored : String → List Node}
    {doc : Document} {nodes : List Node} {state : σ} {context : Value}
    (h : ∀ frame, globals context = .ok frame →
      Node.ListSameReached e sink stored doc ⟨Scope.root frame,0,state⟩ doc.nodes nodes) :
    (e.withNodes stored).run { doc with nodes } sink state context =
      e.run doc sink state context := by
  cases hcontext : globals context with
  | error c =>
    unfold run
    rw [hcontext]
  | ok frame =>
    rw [run_of_globals hcontext,run_of_globals hcontext,
      rendering_renewed (h frame hcontext).renderList_eq]

/-- Parts that are not reached do not matter. A term whose operands are replaced where its evaluation
does not reach them has the same value or the same failure, and `or` and `and` result in the operand
that decides. A document whose terms and nodes, and those of stored templates, are replaced where its
rendering does not reach them is rendered to the same state, with the scope and the output in it, and
to the same result; so it is in a context, to a text and to any sink. Nothing has to be replaced. -/
theorem rendering_of_sameReached :
    (∀ (env : Env) (t t' : Term), t.SameReached env t' → t'.eval env = t.eval env) ∧
    (∀ (env : Env) (op : BinaryOp) (l r : Term) (span : Span) (a : Value), op = .or ∨ op = .and →
      l.eval env = .ok a →
      (Term.binary op l r span).eval env = if op.isDecidedBy a then .ok a else r.eval env) ∧
    (∀ (σ : Type) (e : Engine) (sink : Sink σ) (stored : String → List Node) (doc : Document)
      (nodes : List Node) (s : Rendering σ),
      Node.ListSameReached e sink stored doc s doc.nodes nodes →
      (e.withNodes stored).rendering sink { doc with nodes } s = e.rendering sink doc s) ∧
    (∀ (σ : Type) (e : Engine) (sink : Sink σ) (stored : String → List Node) (a : Site σ),
      (∀ key inner, Table.get? e.templates key = some inner → stored key = inner.nodes) →
      Node.ListSameReached e sink stored a.doc a.state a.nodes a.nodes) ∧
    ∀ (e : Engine) (stored : String → List Node) (doc : Document) (nodes : List Node)
      (context : Value),
      ((∀ frame, globals context = .ok frame →
          Node.ListSameReached e Sink.text stored doc ⟨Scope.root frame,0,""⟩ doc.nodes nodes) →
        (e.withNodes stored).render { doc with nodes } context = e.render doc context) ∧
      ∀ (σ : Type) (sink : Sink σ) (state : σ),
        (∀ frame, globals context = .ok frame →
          Node.ListSameReached e sink.keeping stored doc ⟨Scope.root frame,0,⟨state,none⟩⟩
            doc.nodes nodes) →
        (e.withNodes stored).renderTo { doc with nodes } sink state context =
          e.renderTo doc sink state context := by
  refine ⟨fun env t t' h => h.eval_eq,fun env op l r span a hop ha => ?_,?_,?_,?_⟩
  · exact Term.eval_logical hop ha r span
  · intro σ e sink stored doc nodes s h
    exact rendering_renewed h.renderList_eq
  · intro σ e sink stored a hstored
    exact Node.listSameReached_self hstored a
  · intro e stored doc nodes context
    refine ⟨fun h => ?_,fun σ sink state h => ?_⟩
    · unfold render
      rw [run_of_sameReached h]
    · unfold renderTo
      rw [run_of_sameReached h]

/-- An operand behind one that decides, the end of a chain whose condition holds and what follows a
failure are replaced. -/
theorem rendering_of_sameReached_of_failing :
    let l : Term := .literal (.bool true) ⟨6,10⟩
    let t : Term := .binary .or l (.var ⟨"x",⟨14,15⟩⟩) ⟨6,15⟩
    let t' : Term := .binary .or l (.call ⟨"g",⟨14,15⟩⟩ [] ⟨14,17⟩) ⟨6,15⟩
    let failing : Node := .echo (.call ⟨"f",⟨44,45⟩⟩ [] ⟨44,47⟩) ⟨41,50⟩
    let a : Node := .text "a" ⟨18,19⟩
    let source := "\x7b% if true or x %\x7da\x7b% else %\x7db\x7b% endif %\x7d" ++
      "\x7b\x7b f() \x7d\x7d\x7b\x7b x \x7d\x7d"
    let doc : Document := ⟨none,source,
      [.branch t ⟨0,18⟩ [a] (.last (.otherwise ⟨19,29⟩ [.text "b" ⟨29,30⟩] ⟨30,41⟩)),failing,
        .echo (.var ⟨"x",⟨53,54⟩⟩) ⟨50,57⟩]⟩
    let nodes : List Node :=
      [.branch t' ⟨0,18⟩ [a] (.last (.close ⟨30,41⟩)),failing,.text "c" ⟨50,51⟩]
    let s : Rendering String := ⟨Scope.root [],0,""⟩
    let stored : String → List Node := fun _ => []
    (t.SameReached ⟨[],Scope.root []⟩ t' ∧
      t'.eval ⟨[],Scope.root []⟩ = t.eval ⟨[],Scope.root []⟩) ∧
    (l.eval ⟨[],Scope.root []⟩ = .ok (.bool true) ∧
      t.eval ⟨[],Scope.root []⟩ = .ok (.bool true)) ∧
    Node.ListSameReached empty Sink.text stored doc s doc.nodes doc.nodes ∧
    Node.ListSameReached empty Sink.text stored doc s doc.nodes nodes ∧
      (empty.withNodes stored).rendering Sink.text { doc with nodes } s =
        empty.rendering Sink.text doc s ∧
      (empty.withNodes stored).render { doc with nodes } .none = empty.render doc .none := by
  intro l t t' failing a source doc nodes s stored
  have ht (env : Env) : t.SameReached env t' := by
    refine .binary .literal fun v hv hop => ?_
    cases hv
    cases hop
  have hnodes : Node.ListSameReached empty Sink.text stored doc s doc.nodes nodes := by
    refine .cons (.branch (.elif (ht _) (fun _ _ _ => .cons .text fun _ _ => .nil) ?_)) ?_
    · intro v hv hfalse
      cases hv
      cases hfalse
    · intro s' _
      refine .cons (.echo (Term.sameReached_self _)) fun s'' hrun => ?_
      have hfails : failing.render (empty.surroundings Sink.text doc) s' =
          (s',.error (Error.ofFault source ⟨.unknownFunction "f",⟨44,45⟩⟩)) :=
        bind_apply_error (Surroundings.eval_of_error rfl) _
      rw [hfails] at hrun
      cases hrun
  obtain ⟨hterms,hlogical,hrendering,hself,hcontexts⟩ := rendering_of_sameReached
  refine ⟨⟨ht _,hterms _ t t' (ht _)⟩,⟨rfl,?_⟩,?_,hnodes,hrendering _ _ _ _ _ _ _ hnodes,?_⟩
  · exact hlogical _ .or l _ _ (.bool true) (.inl rfl) rfl
  · exact hself _ empty Sink.text stored ⟨[],doc,doc.nodes,s⟩ nofun
  · refine (hcontexts empty stored doc nodes .none).1 fun frame hframe => ?_
    cases hframe
    exact hnodes

end Engine

end Stencil
