import Stencil.Proofs.Function.Args
import Stencil.Proofs.Outcome
import Stencil.Proofs.Render.Invariant
import Stencil.Proofs.Render.Traces
import Stencil.Proofs.Scope.Views

set_option autoImplicit false

namespace Stencil

structure Engine.AsksScope (e : Engine) : Prop where
  defined : Table.get? e.functions "defined" = some Builtin.defined
  get : Table.get? e.functions "get" = some Builtin.get
  locals : Table.get? e.functions "locals" = some Builtin.locals

/-- What is said of a name: its value, or that it has none. The variable fails as undefined in the
second case and in no other; `get` gives its second argument, or nothing, in place of a value. -/
structure Env.Answers (env : Env) (x : String) (answer : Option Value) : Prop where
  var (span : Span) : (Term.var ⟨x,span⟩).eval env = match answer with
    | some v => .ok v
    | none => .error ⟨.undefinedName x,span⟩
  defined {t : Term} {u : Value} (place span : Span) : t.eval env = .ok u → u.asText? = some x →
    (Term.call ⟨"defined",place⟩ [t] span).eval env = .ok (.bool answer.isSome)
  get {t d : Term} {u w : Value} (place span : Span) : t.eval env = .ok u → u.asText? = some x →
    d.eval env = .ok w → (Term.call ⟨"get",place⟩ [t,d] span).eval env = .ok (answer.getD w)
  getAlone {t : Term} {u : Value} (place span : Span) : t.eval env = .ok u → u.asText? = some x →
    (Term.call ⟨"get",place⟩ [t] span).eval env = .ok (answer.getD .none)
  locals : ∃ entries, Table.get? entries x = answer ∧ (∀ v, (x,v) ∈ entries ↔ answer = some v) ∧
    ∀ place span, (Term.call ⟨"locals",place⟩ [] span).eval env = .ok (.map entries)

section

variable {functions : List (String × Function)} {scope : Scope}

theorem Env.call_of_get? {f : Function} {function : Located String} {values : List Value} {v : Value}
    (hget : Table.get? functions function.value = some f) (hv : f ⟨values,scope⟩ = .ok v)
    (span : Span) : Env.call ⟨functions,scope⟩ function values span = .ok v := by
  unfold Env.call
  simp only [hget,hv]

theorem Scope.Views.answers {e : Engine} (he : e.AsksScope) (h : scope.Views) (x : String) :
    Env.Answers ⟨e.functions,scope⟩ x (scope.get? x) := by
  constructor
  · intro span
    simp only [Term.eval,Scope.lookup]
    cases scope.get? x <;> rfl
  · intro t u place span ht hu
    have hcall : Builtin.defined ⟨[u],scope⟩ = .ok (.bool (scope.get? x).isSome) := by
      show (Args.string ⟨[u],scope⟩ 0).map _ = _
      rw [Args.string_of_asText? rfl hu]
      rfl
    simp only [Term.eval,Term.evalList,ht]
    exact Env.call_of_get? he.defined hcall span
  · intro t d u w place span ht hu hd
    have hcall : Builtin.get ⟨[u,w],scope⟩ = .ok ((scope.get? x).getD w) := by
      show (Args.string ⟨_,scope⟩ 0).map _ = _
      rw [Args.string_of_asText? rfl hu]
      rfl
    simp only [Term.eval,Term.evalList,ht,hd]
    exact Env.call_of_get? he.get hcall span
  · intro t u place span ht hu
    have hcall : Builtin.get ⟨[u],scope⟩ = .ok ((scope.get? x).getD .none) := by
      show (Args.string ⟨_,scope⟩ 0).map _ = _
      rw [Args.string_of_asText? rfl hu]
      rfl
    simp only [Term.eval,Term.evalList,ht]
    exact Env.call_of_get? he.get hcall span
  · refine ⟨scope.collect,(h.get x).symm,fun v => (h.entry x v).symm,fun place span => ?_⟩
    have hcall : Builtin.locals ⟨[],scope⟩ = .ok (.map scope.collect) := rfl
    simp only [Term.eval,Term.evalList]
    exact Env.call_of_get? he.locals hcall span

end

def Invariant.reached (globals : Frame) : Invariant :=
  ⟨Scope.Reached globals,fun _ => True,fun _ => True⟩

namespace Engine

variable {σ : Type} {sink : Sink σ}

theorem kept_reached (e : Engine) (globals : Frame) : (Invariant.reached globals).Kept e where
  push hs hf := .push hs hf.sorted
  pop := .pop
  assign hs _ := .assign _ _ hs
  define hs _ := .define _ _ hs
  eval _ _ _ _ := trivial
  items _ _ _ _ := trivial
  loopInfo _ _ := trivial
  templates _ _ _ _ := trivial

theorem reached_of_visits {e : Engine} {doc : Document} {globals : Frame} {state : σ}
    {site : Site σ} (h : e.Visits sink (firstSite doc globals state) site) :
    Scope.Reached globals site.state.scope :=
  ((e.kept_reached globals).of_visits h ⟨.root,fun _ _ => trivial⟩).scope

theorem standard_asksScope : standard.AsksScope := ⟨rfl,rfl,rfl⟩

/-- All views of a scope agree, wherever changes have led from a root frame: there is a frame, and
what a name stands for is its entry among all bindings in sight. Binding a name gives it the value,
leaves other names, and changes one frame: the innermost one, or for an assignment the innermost one
that binds the name already, if there is one. Leaving a frame that was entered goes back. Scopes in
templates are among these, and the variables, `defined`, `get` and `locals` agree on each name
there. -/
theorem scope_views_agree (e : Engine) {globals : Frame} (hglobals : Table.Sorted globals) :
    (∀ s, Scope.Reached globals s → s.Views ∧
      (∀ x v, (s.assign x v).get? x = some v ∧
        (∀ y, y ≠ x → (s.assign x v).get? y = s.get? y) ∧
        ∃ inner f outer, Scope.Rebinds x v s (s.assign x v) inner f outer ∧
          (Table.contains f x = true ∨ inner = [] ∧ s.contains x = false)) ∧
      (∀ x v, (s.define x v).get? x = some v ∧
        (∀ y, y ≠ x → (s.define x v).get? y = s.get? y) ∧
        Scope.Rebinds x v s (s.define x v) [] s.innermost s.outer) ∧
      ∀ f, (s.push f).pop = s ∧ (s.push f).popped? = some f) ∧
    ∀ (σ : Type) (sink : Sink σ) (doc : Document) (state : σ) (site : Site σ),
      e.Visits sink (firstSite doc globals state) site →
      Scope.Reached globals site.state.scope ∧
      (e.AsksScope → ∀ x,
        Env.Answers ⟨e.functions,site.state.scope⟩ x (site.state.scope.get? x)) := by
  refine ⟨fun s hs => ⟨(hs.sorted hglobals).views,fun x v => ?_,fun x v => ?_,s.pop_push⟩,
    fun σ sink doc state site hvisits => ?_⟩
  · obtain ⟨inner,f,outer,hrebinds,howner⟩ := s.rebinds_assign x v
    exact ⟨hrebinds.get?_self,fun y => hrebinds.get?_of_ne,inner,f,outer,hrebinds,howner⟩
  · have hrebinds := s.rebinds_define x v
    exact ⟨hrebinds.get?_self,fun y => hrebinds.get?_of_ne,hrebinds⟩
  · have hreached := reached_of_visits hvisits
    exact ⟨hreached,fun he => (hreached.sorted hglobals).views.answers he⟩

/-- In the body of a branch that binds a name of the globals anew. -/
theorem scope_views_agree_of_shadowed :
    let globals : Frame := [("x",.int 1)]
    let echo : Node := .echo (.var ⟨"x",⟨31,32⟩⟩) ⟨28,35⟩
    let binding : Node := .define ⟨"x",⟨20,21⟩⟩ (.literal (.int 2) ⟨24,25⟩) ⟨13,28⟩
    let doc : Document := ⟨none,
      "\x7b% if true %\x7d\x7b% let x = 2 %\x7d\x7b\x7b x \x7d\x7d\x7b% endif %\x7d",
      [.branch (.literal (.bool true) ⟨6,10⟩) ⟨0,13⟩ [binding,echo] (.last (.close ⟨35,46⟩))]⟩
    let s : Scope := ((Scope.root globals).push []).define "x" (.int 2)
    Table.Sorted globals ∧
      standard.Visits Sink.text (firstSite doc globals "") ⟨[],doc,[echo],⟨s,0,""⟩⟩ ∧
      Scope.Reached globals s ∧ s.Views ∧ s.pop.get? "x" = some (.int 1) ∧
      Env.Answers ⟨standard.functions,s⟩ "x" (some (.int 2)) := by
  intro globals echo binding doc s
  have hglobals : Table.Sorted globals := List.pairwise_singleton _ _
  have hbody : standard.Starts Sink.text (firstSite doc globals "")
      ⟨[],doc,[binding,echo],⟨(Scope.root globals).push [],0,""⟩⟩ := .body rfl
  have hnext : standard.Starts Sink.text
      ⟨[],doc,[binding,echo],⟨(Scope.root globals).push [],0,""⟩⟩ ⟨[],doc,[echo],⟨s,0,""⟩⟩ :=
    .next rfl
  have hvisits : standard.Visits Sink.text (firstSite doc globals "") ⟨[],doc,[echo],⟨s,0,""⟩⟩ :=
    (Relation.ReflTransGen.single hbody).tail hnext
  obtain ⟨hscopes,hsites⟩ := scope_views_agree standard hglobals
  obtain ⟨hreached,hanswers⟩ := hsites _ _ doc "" _ hvisits
  exact ⟨hglobals,hvisits,hreached,(hscopes s hreached).1,rfl,hanswers standard_asksScope "x"⟩

end Engine

end Stencil
