import Stencil.Proofs.Render.Visits

/-!
How deep templates are embedded: never deeper than the limit, and up to the limit without refusal,
so that rendering ends although templates may embed each other in cycles.
-/

set_option autoImplicit false

namespace Stencil
open Render

theorem Node.pieces_pos (n : Node) : 0 < n.pieces.length := by
  cases n <;> simp [pieces]

theorem Tail.pieces_of_chosen? {body : List Node} {t : Tail} (closing : Tag)
    (h : t.chosen? = some body) :
    ∃ p ps, t.pieces closing = p :: ps ∧ Node.listPieces body <:+: ps := by
  cases t with
  | otherwise _ inner _ =>
    cases h
    exact ⟨_,_,rfl,(List.prefix_append _ _).isInfix⟩
  | close _ => cases h

theorem Alternatives.pieces_of_chosen? {env : Env} {body : List Node} : (a : Alternatives) →
    a.chosen? env = some body → ∃ p ps, a.pieces = p :: ps ∧ Node.listPieces body <:+: ps
  | .elif c span inner rest, h => by
    refine ⟨_,_,rfl,?_⟩
    unfold chosen? at h
    cases hv : c.eval env with
    | error f => simp [hv] at h
    | ok v =>
      simp only [hv] at h
      by_cases hc : v.isTrue
      · simp only [hc,if_true,Option.some.injEq] at h
        subst h
        exact (List.prefix_append _ _).isInfix
      · simp only [hc] at h
        obtain ⟨p,ps,hpieces,hinside⟩ := pieces_of_chosen? rest h
        rw [hpieces]
        have hrest : ps <:+: p :: ps := (List.suffix_cons p ps).isInfix
        exact hinside.trans (hrest.trans (List.suffix_append _ _).isInfix)
  | .last t, h => t.pieces_of_chosen? .endifTag h

theorem Node.pieces_of_chosen? {env : Env} {body : List Node} {n : Node}
    (h : n.chosen? env = some body) :
    ∃ p ps, n.pieces = p :: ps ∧ Node.listPieces body <:+: ps := by
  cases n with
  | branch c span inner rest =>
    obtain ⟨p,ps,hpieces,hinside⟩ := (Alternatives.elif c span inner rest).pieces_of_chosen? h
    obtain ⟨rfl,rfl⟩ := List.cons.inj hpieces
    exact ⟨_,_,rfl,hinside⟩
  | loop vars t span inner rest =>
    refine ⟨_,_,rfl,?_⟩
    unfold chosen? at h
    cases hv : t.eval env with
    | error f => simp [hv] at h
    | ok v =>
      cases hitems : v.iterate with
      | error c => simp [hv,hitems] at h
      | ok items =>
        cases items with
        | cons item items => simp [hv,hitems] at h
        | nil =>
          simp only [hv,hitems] at h
          obtain ⟨p,ps,hpieces,hinside⟩ := rest.pieces_of_chosen? .endforTag h
          rw [hpieces]
          have hrest : ps <:+: p :: ps := (List.suffix_cons p ps).isInfix
          exact hinside.trans (hrest.trans (List.suffix_append _ _).isInfix)
  | _ => cases h

namespace Engine

variable {σ : Type} {e : Engine} {sink : Sink σ} {a b : Site σ}

/-- What is left at a site: the levels up to the limit, and the pieces. -/
def rank (e : Engine) (a : Site σ) : Nat × Nat :=
  (e.maxIncludeDepth - a.state.depth,(Node.listPieces a.nodes).length)

theorem rank_of_starts (h : e.Starts sink a b) :
    Prod.Lex (· < ·) (· < ·) (e.rank b) (e.rank a) := by
  have hright {m n k l : Nat} (hmn : m = n) (hkl : k < l) :
      Prod.Lex (· < ·) (· < ·) (m,k) (n,l) := by
    subst hmn
    exact .right _ hkl
  cases h with
  | @next _ doc n _ s _ hrun =>
    have hdepth := congrArg (fun r => r.1.depth) hrun
    refine hright (congrArg (e.maxIncludeDepth - ·) (hdepth.symm.trans (depth_render n s))) ?_
    have hpos := n.pieces_pos
    simp only [Node.listPieces,List.length_append]
    omega
  | body hchosen =>
    -- the pieces of the body are some of those behind the first piece of its node
    obtain ⟨p,ps,hpieces,hinside⟩ := Node.pieces_of_chosen? hchosen
    have hlength := hinside.length_le
    refine hright rfl ?_
    simp only [Node.listPieces,List.length_append,hpieces,List.length_cons]
    omega
  | @round _ doc _ _ _ _ _ _ _ _ _ _ _ s _ _ _ hrun =>
    have hdepth := congrArg (fun r => r.1.depth) hrun
    refine hright (congrArg (e.maxIncludeDepth - ·)
      (hdepth.symm.trans (depth_rounds _ _ _ 0 _ s))) ?_
    simp only [Node.listPieces,Node.pieces,List.length_append,List.length_cons]
    omega
  | @embed _ doc _ given _ _ _ _ s _ _ hlt hrun =>
    have hstate := bindings_state (e.surroundings sink doc) [] given s
    rw [hrun] at hstate
    subst hstate
    -- the embedded document may have more pieces, but one level less is left
    refine .left _ _ ?_
    simp only at hlt ⊢
    omega

/-- No rendering starts another one inside it without end. -/
theorem starts_wf (e : Engine) (sink : Sink σ) : WellFounded fun b a => e.Starts sink a b :=
  Subrelation.wf rank_of_starts
    (InvImage.wf e.rank (Prod.lex Nat.lt_wfRel Nat.lt_wfRel).wf)

theorem fails_of_starts (h : e.Starts sink a b) {t : Rendering σ} {err : Error}
    (hb : Node.renderList (e.surroundings sink b.doc) b.nodes b.state = (t,.error err)) :
    ∃ t' err', Node.renderList (e.surroundings sink a.doc) a.nodes a.state = (t',.error err') ∧
      t'.sink = t.sink ∧ err'.cause = err.cause ∧ err'.place = err.place := by
  cases h with
  | next hrun => exact ⟨t,err,(bind_apply hrun _).trans hb,rfl,rfl,rfl⟩
  | @body _ doc n _ _ s hchosen =>
    have hnode : n.render (e.surroundings sink doc) s =
        ({ t with scope := t.scope.pop },.error err) := by
      rw [Node.render_of_chosen? hchosen]
      unfold inFrame
      rw [hb]
    exact ⟨_,err,bind_apply_error hnode _,rfl,rfl,rfl⟩
  | @round _ doc vars iterable span body rest _ _ _ _ _ _ s s' hv hitems hrun hbind =>
    have hnode : (Node.loop vars iterable span body rest).render (e.surroundings sink doc) s =
        ({ t with scope := t.scope.pop },.error err) := by
      rw [Node.render_loop hv hitems (by simp),Surroundings.rounds_append,bind_apply hrun]
      simp only [Surroundings.rounds,hbind]
      rw [bind_apply (Surroundings.placed_apply _ _ s')]
      refine bind_apply_error ?_ _
      unfold inFrame
      simp only at hb
      rw [Nat.zero_add,hb]
    exact ⟨_,err,bind_apply_error hnode _,rfl,rfl,rfl⟩
  | @embed _ doc path given span _ inner frame s s' hget hlt hrun =>
    have hnode := Surroundings.embedAt_of_embed (w := e.surroundings sink doc) hget hlt hrun
      (rendering_of_nodes hb)
    exact ⟨_,_,bind_apply_error hnode _,rfl,rfl,rfl⟩

theorem fails_of_visits (h : e.Visits sink a b) {t : Rendering σ} {err : Error}
    (hb : Node.renderList (e.surroundings sink b.doc) b.nodes b.state = (t,.error err)) :
    ∃ t' err', Node.renderList (e.surroundings sink a.doc) a.nodes a.state = (t',.error err') ∧
      t'.sink = t.sink ∧ err'.cause = err.cause ∧ err'.place = err.place := by
  induction h using Relation.ReflTransGen.head_induction_on with
  | refl => exact ⟨t,err,hb,rfl,rfl,rfl⟩
  | head hstart _ ih =>
    obtain ⟨t₁,err₁,hrun₁,hsink₁,hcause₁,hplace₁⟩ := ih
    obtain ⟨t₂,err₂,hrun₂,hsink₂,hcause₂,hplace₂⟩ := fails_of_starts hstart hrun₁
    exact ⟨t₂,err₂,hrun₂,hsink₂.trans hsink₁,hcause₂.trans hcause₁,hplace₂.trans hplace₁⟩

theorem depth_of_visits (h : e.Visits sink a b) (ha : a.state.depth = a.outer.length)
    (hlimit : a.outer.length ≤ e.maxIncludeDepth) :
    b.state.depth = b.outer.length ∧ b.outer.length ≤ e.maxIncludeDepth := by
  induction h with
  | refl => exact ⟨ha,hlimit⟩
  | tail _ hstart ih =>
    refine ⟨depth_of_starts hstart ih.1,?_⟩
    cases hstart with
    | next => exact ih.2
    | body => exact ih.2
    | round => exact ih.2
    | embed _ hlt =>
      have hdepth := ih.1
      simp only at hdepth hlt
      simp only [List.length_cons]
      omega

/-- A node of a document that is rendered to a text in any state. -/
def Steady (e : Engine) (doc : Document) (n : Node) : Prop :=
  ∀ s, (n.render (e.surroundings Sink.text doc) s).2 = .ok ()

/-- The document is the first of a chain of so many embeddings, each in the one before, and nothing
else in the chain can fail. -/
inductive Chain (e : Engine) : Nat → Document → Prop
  | last {doc} : (∀ n ∈ doc.nodes, e.Steady doc n) → Chain e 0 doc
  | link {doc path given span before after inner n} :
      doc.nodes = before ++ .embed path given span :: after →
      (∀ n ∈ before ++ after, e.Steady doc n) →
      (∀ s, ∃ frame, (e.surroundings Sink.text doc).bindings [] given s = (s,.ok frame)) →
      Table.get? e.templates (Path.resolve doc.name path.value) = some inner →
      Chain e n inner → Chain e (n + 1) doc

theorem renderList_append (w : Surroundings σ) (before after : List Node) :
    Node.renderList w (before ++ after) =
      Node.renderList w before >>= fun _ => Node.renderList w after := by
  induction before with
  | nil => rfl
  | cons n before ih => simp only [List.cons_append,Node.renderList,bind_assoc,ih]

theorem renderList_of_steady {doc : Document} {nodes : List Node}
    (h : ∀ n ∈ nodes, e.Steady doc n) (s : Rendering String) :
    ∃ s', Node.renderList (e.surroundings Sink.text doc) nodes s = (s',.ok ()) ∧
      s'.depth = s.depth := by
  induction nodes generalizing s with
  | nil => exact ⟨s,rfl,rfl⟩
  | cons n ns ih =>
    obtain ⟨hn,hns⟩ := List.forall_mem_cons.mp h
    have hok := hn s
    have hdepth : (n.render (e.surroundings Sink.text doc) s).1.depth = s.depth := depth_render n s
    cases hrun : n.render (e.surroundings Sink.text doc) s with
    | mk s₁ r =>
      rw [hrun] at hok hdepth
      subst hok
      obtain ⟨s₂,hrest,hdepth₂⟩ := ih hns s₁
      exact ⟨s₂,(bind_apply hrun _).trans hrest,hdepth₂.trans hdepth⟩

/-- By induction on the chain: each embedding takes one of the levels that the limit leaves. -/
theorem rendering_of_chain {n : Nat} {doc : Document} (h : e.Chain n doc) (s : Rendering String)
    (hs : s.depth ≤ e.maxIncludeDepth) :
    (s.depth + n ≤ e.maxIncludeDepth → (e.rendering Sink.text doc s).2 = .ok ()) ∧
      (e.maxIncludeDepth < s.depth + n → ∃ err, (e.rendering Sink.text doc s).2 = .error err ∧
        err.cause = .includeDepth e.maxIncludeDepth) := by
  induction h generalizing s with
  | @last doc hsteady =>
    obtain ⟨s',hrun,_⟩ := renderList_of_steady hsteady s
    refine ⟨fun _ => ?_,fun hlt => by omega⟩
    rw [rendering_of_nodes hrun]
    rfl
  | @link doc path given span before after inner n hnodes hsteady hgiven hget _ ih =>
    obtain ⟨s₁,hbefore,hdepth₁⟩ :=
      renderList_of_steady (fun n hn => hsteady n (List.mem_append_left _ hn)) s
    have hlist : Node.renderList (e.surroundings Sink.text doc) doc.nodes s =
        ((e.surroundings Sink.text doc).embedAt path given >>= fun _ =>
          Node.renderList (e.surroundings Sink.text doc) after) s₁ := by
      rw [hnodes,renderList_append,bind_apply hbefore]
      rfl
    rw [rendering_eq,mapFailure_apply,hlist]
    -- at the limit the chain breaks off here; below it, the rest of the chain decides
    by_cases hfull : e.maxIncludeDepth ≤ s₁.depth
    · refine ⟨fun hle => by omega,fun _ => ?_⟩
      rw [bind_apply_error (Surroundings.embedAt_of_le given hget hfull)]
      exact ⟨_,rfl,rfl⟩
    · obtain ⟨frame,hframe⟩ := hgiven s₁
      obtain ⟨hok,herror⟩ := ih
        { s₁ with scope := s₁.scope.push frame, depth := s₁.depth + 1 } (by simp only; omega)
      simp only at hok herror
      cases hinner : e.rendering Sink.text inner
          { s₁ with scope := s₁.scope.push frame, depth := s₁.depth + 1 } with
      | mk s₂ r =>
        have hrun := Surroundings.embedAt_of_embed (w := e.surroundings Sink.text doc) hget
          (Nat.lt_of_not_le hfull) hframe hinner
        simp only [hinner] at hok herror
        constructor
        · intro hle
          obtain rfl := hok (by omega)
          obtain ⟨s₃,hafter,_⟩ :=
            renderList_of_steady (fun n hn => hsteady n (List.mem_append_right _ hn)) _
          rw [bind_apply hrun,hafter]
          rfl
        · intro hlt
          obtain ⟨err,rfl,hcause⟩ := herror (by omega)
          rw [bind_apply_error hrun]
          exact ⟨_,rfl,hcause⟩

theorem render_of_chain {n : Nat} {doc : Document} (h : e.Chain n doc) {context : Value}
    {frame : Frame} (hcontext : globals context = .ok frame) :
    (∃ text, e.render doc context = .ok text) ↔ n ≤ e.maxIncludeDepth := by
  obtain ⟨hok,herror⟩ := rendering_of_chain h ⟨Scope.root frame,0,""⟩ (Nat.zero_le _)
  simp only [Nat.zero_add] at hok herror
  unfold render
  rw [run_of_globals hcontext]
  constructor
  · intro hrender
    refine Nat.le_of_not_lt fun hlt => ?_
    obtain ⟨err,herr,_⟩ := herror hlt
    simp [herr] at hrender
  · intro hle
    simp [hok hle]

/-- What becomes of a stored template that a site embeds while a document is rendered. Where the
limit leaves a level, the template is rendered. Where it does not, the template is refused, which
ends the whole rendering with nothing more written. -/
structure EmbedsWithin (e : Engine) (sink : Sink σ) (doc : Document) (s : Rendering σ)
    (site : Site σ) (path : Located String) (given : List (Located String × Term))
    (inner : Document) : Prop where
  rendered : site.outer.length < e.maxIncludeDepth →
    (e.surroundings sink site.doc).embedAt path given site.state =
      ((e.surroundings sink site.doc).bindings [] given >>= fun frame =>
        inFrame frame (deeper (e.rendering sink inner))) site.state
  refused : site.outer.length = e.maxIncludeDepth → ∃ err t err',
    (e.surroundings sink site.doc).embedAt path given site.state = (site.state,.error err) ∧
    err.category = .render ∧
    err.message = "reached maximum include depth (" ++ Integer.textOfInt e.maxIncludeDepth ++ ")" ∧
    err.place = some ⟨site.doc.source,path.span⟩ ∧
    e.rendering sink doc s = (t,.error err') ∧ t.sink = site.state.sink ∧
    err'.cause = err.cause ∧ err'.place = err.place

theorem embedsWithin {doc : Document} {s : Rendering σ} {site : Site σ} (hs : s.depth = 0)
    (hvisits : e.Visits sink ⟨[],doc,doc.nodes,s⟩ site) {path : Located String}
    {given : List (Located String × Term)} {span : Span} {rest : List Node} {inner : Document}
    (hnodes : site.nodes = .embed path given span :: rest)
    (hget : Table.get? e.templates (Path.resolve site.doc.name path.value) = some inner) :
    e.EmbedsWithin sink doc s site path given inner := by
  obtain ⟨hdepth,_⟩ := depth_of_visits hvisits hs (Nat.zero_le _)
  constructor
  · intro hlt
    rw [← hdepth] at hlt
    exact Surroundings.embedAt_of_lt (w := e.surroundings sink site.doc) given hget hlt
  · intro heq
    have hfull : e.maxIncludeDepth ≤ site.state.depth := Nat.le_of_eq (hdepth.trans heq).symm
    have hembed := Surroundings.embedAt_of_le (w := e.surroundings sink site.doc) given hget hfull
    have hlist := bind_apply_error hembed fun _ =>
      Node.renderList (e.surroundings sink site.doc) rest
    obtain ⟨t,err,hrun,hsink,hcause,hplace⟩ :=
      fails_of_visits hvisits ((congrArg (Node.renderList _ · _) hnodes).trans hlist)
    exact ⟨_,t,err.named doc.name,hembed,rfl,rfl,rfl,rendering_of_nodes hrun,hsink,hcause,hplace⟩

/-- Rendering ends: no rendering starts another one inside it without end, and so its recursive
equation has one solution. There are never more documents around a site than the limit allows. Up to
the limit no stored template is refused, and at the limit every one is. A chain of embeddings is
rendered if and only if it is not longer than the limit. -/
theorem rendering_within_limit (e : Engine) (sink : Sink σ) :
    (WellFounded fun b a : Site σ => e.Starts sink a b) ∧
    (∀ f : Document → Render σ Unit,
      (∀ doc : Document, f doc = mapFailure (·.named doc.name)
        (Node.renderList (doc.surroundings e sink f) doc.nodes)) ↔ f = e.rendering sink) ∧
    (∀ (doc : Document) (s : Rendering σ) (site : Site σ), s.depth = 0 →
      e.Visits sink ⟨[],doc,doc.nodes,s⟩ site →
      site.outer.length ≤ e.maxIncludeDepth ∧
      ∀ path given span rest inner, site.nodes = .embed path given span :: rest →
        Table.get? e.templates (Path.resolve site.doc.name path.value) = some inner →
        e.EmbedsWithin sink doc s site path given inner) ∧
    (∀ (n : Nat) (doc : Document) (context : Value) (frame : Frame),
      globals context = .ok frame → e.Chain n doc →
      ((∃ text, e.render doc context = .ok text) ↔ n ≤ e.maxIncludeDepth)) := by
  refine ⟨starts_wf e sink,solves_iff e sink,?_,?_⟩
  · intro doc s site hs hvisits
    refine ⟨(depth_of_visits hvisits hs (Nat.zero_le _)).2,?_⟩
    intro path given span rest inner hnodes hget
    exact embedsWithin hs hvisits hnodes hget
  · intro n doc context frame hcontext hchain
    exact render_of_chain hchain hcontext

theorem rendering_within_limit_of_cycle :
    let path : Located String := ⟨"a",⟨11,14⟩⟩
    let doc : Document := ⟨some "a","\x7b% include 'a' %\x7d",[.embed path [] ⟨0,17⟩]⟩
    let e : Engine := { empty with templates := [("a",doc)], maxIncludeDepth := 1 }
    let s : Rendering String := ⟨Scope.root [],0,""⟩
    let site : Site String := ⟨[doc],doc,doc.nodes,⟨(Scope.root []).push [],1,""⟩⟩
    let text : Document := ⟨none,"text",[.text "text" ⟨0,4⟩]⟩
    e.EmbedsWithin Sink.text doc s site path [] doc ∧
      ((∃ text', e.render text .none = .ok text') ↔ 0 ≤ 1) := by
  intro path doc e s site text
  obtain ⟨_,_,hsites,hchains⟩ := rendering_within_limit e Sink.text
  have hget : Table.get? e.templates (Path.resolve (some "a") "a") = some doc := by
    have hpath : Path.resolve (some "a") "a" = "a" := by decide
    rw [hpath]
    rfl
  have hstart : e.Starts Sink.text ⟨[],doc,[.embed path [] ⟨0,17⟩],s⟩
      ⟨[doc],doc,doc.nodes,{ s with scope := s.scope.push [], depth := s.depth + 1 }⟩ :=
    .embed hget Nat.zero_lt_one rfl
  have htext : ∀ n ∈ text.nodes, e.Steady text n := by
    intro n hn s
    obtain rfl := List.mem_singleton.mp hn
    rfl
  constructor
  · exact (hsites doc s site rfl (.single hstart)).2 path [] ⟨0,17⟩ [] doc rfl hget
  · exact hchains 0 text .none [] rfl (.last htext)

end Engine

end Stencil
