import Stencil.Proofs.Render.Invariant
import Stencil.Proofs.Render.Segments
import Stencil.Proofs.Term.Plain

set_option autoImplicit false

namespace Stencil
open Render

def Document.CallsNo (doc : Document) (name : String) : Prop :=
  ∀ t ∈ Node.listTerms doc.nodes, name ∉ t.calls

/-- The engine escapes, its functions are standard ones under their own names, and no stored
template declares a text safe. -/
structure Engine.Escapes (e : Engine) : Prop where
  autoEscape : e.autoEscape = true
  functions : ∀ f ∈ e.functions, f ∈ Builtin.all
  templates : ∀ t ∈ e.templates, t.2.CallsNo "safe"

def Invariant.plain : Invariant :=
  ⟨Scope.Plain,fun p => ∀ t ∈ p.terms, "safe" ∉ t.calls,Value.Plain⟩

/-- The variables at a site are plain, and no term there declares a text safe. -/
structure Site.Plain {σ : Type} (a : Site σ) : Prop where
  scope : a.state.scope.Plain
  pieces : ∀ p ∈ Node.listPieces a.nodes, ∀ t ∈ p.terms, "safe" ∉ t.calls

namespace Engine

variable {σ : Type} {e : Engine} {sink : Sink σ} {a b : Site σ}

theorem callsNo_iff {nodes : List Node} {name : String} :
    (∀ p ∈ Node.listPieces nodes, ∀ t ∈ p.terms, name ∉ t.calls) ↔
      ∀ t ∈ Node.listTerms nodes, name ∉ t.calls := by
  rw [← Node.terms_listPieces]
  simp only [List.mem_flatMap]
  constructor
  · rintro h t ⟨p,hp,ht⟩
    exact h p hp t ht
  · intro h p hp t ht
    exact h t ⟨p,hp,ht⟩

theorem Escapes.kept (he : e.Escapes) : Invariant.plain.Kept e where
  push hs hf := hs.push hf.values
  pop hs := hs.pop
  assign hs hv := hs.assign hv
  define hs hv := hs.define hv
  eval {s _ t v} hs hp ht hv := by
    have henv : Env.Plain ⟨e.functions,s⟩ := ⟨he.functions,hs⟩
    exact t.plain_eval henv (hp t ht) v hv
  items hv := Value.plain_iterate hv _
  loopInfo index length := by
    refine Value.plain_map.mpr fun e he => ?_
    have hmem := Table.mem_ofList he
    simp only [List.mem_cons,List.not_mem_nil,or_false] at hmem
    obtain rfl | rfl | rfl | rfl := hmem <;> simp
  templates t ht := callsNo_iff.mpr (he.templates t ht)

theorem Escapes.plain_of_visits (he : e.Escapes) (h : e.Visits sink a b) (ha : a.Plain) :
    b.Plain := by
  obtain ⟨hscope,hpieces⟩ := he.kept.of_visits h ⟨ha.scope,ha.pieces⟩
  exact ⟨hscope,hpieces⟩

end Engine

def Node.isRaw : Node → Bool
  | .text .. | .insert .. => true
  | _ => false

namespace Engine

variable {e : Engine} {doc : Document} {context : Value} {frame : Frame}

theorem plain_globals (hcontext : context.Plain) (h : globals context = .ok frame) :
    frame.Plain := by
  unfold globals at h
  split at h
  · cases h
    exact Value.plain_map.mp hcontext
  · cases h
    simp [Frame.Plain]
  · cases h

theorem Escapes.escaped_of_writes (he : e.Escapes) {σ : Type} {sink : Sink σ} {site : Site σ}
    (hsite : site.Plain) {n : Node} {rest : List Node} {x : String}
    (hnodes : site.nodes = n :: rest)
    (h : n.Writes (e.surroundings sink site.doc) site.state.scope x) :
    n.isRaw = true ∨ Text.IsEscaped x.toList := by
  cases h with
  | text => exact .inl rfl
  | inserted _ => exact .inl rfl
  | source _ _ => exact .inl rfl
  | @echo t span v hv =>
    right
    have hcalls : "safe" ∉ t.calls := hsite.pieces (.echo t span)
      (by simp [hnodes,Node.listPieces,Node.pieces]) t (by simp [Piece.terms])
    have hplain := t.plain_eval ⟨he.functions,hsite.scope⟩ hcalls v hv
    have hpieces : (e.surroundings sink site.doc).echoPieces v = v.markupPieces :=
      if_pos he.autoEscape
    rw [hpieces,Value.join_markupPieces]
    exact Value.isEscaped_toMarkup hplain

/-- Where no term declares a text safe, data and plain contexts give rise to plain values only, and
each echo writes an escaped text. Angle brackets in the output come from the texts of templates and
from inserted texts. -/
theorem Escapes.renders_escaped (he : e.Escapes) (hdoc : doc.CallsNo "safe") :
    (∀ (d : Data) (v : Value), d.toValue = .ok v → v.Plain) ∧
    ∀ context : Value, context.Plain →
      (∀ (frame : Frame) (σ : Type) (sink : Sink σ) (state : σ) (site : Site σ),
        globals context = .ok frame → e.Visits sink (firstSite doc frame state) site →
        site.state.scope.Plain ∧
        (∀ t ∈ Node.listTerms site.nodes, "safe" ∉ t.calls) ∧
        (∀ (t : Term) (v : Value), "safe" ∉ t.calls →
          t.eval ⟨e.functions,site.state.scope⟩ = .ok v → v.Plain) ∧
        ∀ (n : Node) (rest : List Node) (x : String), site.nodes = n :: rest →
          n.Writes (e.surroundings sink site.doc) site.state.scope x →
          n.isRaw = true ∨ Text.IsEscaped x.toList) ∧
      ∃ segments : List String, (e.run doc Sink.text "" context).1 = String.join segments ∧
        ∀ x ∈ segments, Text.IsEscaped x.toList ∨
          ∃ frame site n rest, globals context = .ok frame ∧
            e.Visits Sink.text (firstSite doc frame "") site ∧ site.nodes = n :: rest ∧
            n.isRaw = true ∧ n.Writes (e.surroundings Sink.text site.doc) site.state.scope x := by
  refine ⟨fun d => Data.plain_toValue d,fun context hcontext => ?_⟩
  have hfirst (frame : Frame) (hframe : globals context = .ok frame) (σ : Type) (state : σ) :
      (firstSite doc frame state).Plain :=
    ⟨.root (plain_globals hcontext hframe),callsNo_iff.mpr hdoc⟩
  constructor
  · intro frame σ sink state site hframe hvisits
    have hsite := he.plain_of_visits hvisits (hfirst frame hframe σ state)
    exact ⟨hsite.scope,callsNo_iff.mp hsite.pieces,
      fun t v hcalls => t.plain_eval ⟨he.functions,hsite.scope⟩ hcalls v,
      fun n rest x => he.escaped_of_writes hsite⟩
  · cases hframe : globals context with
    | error c => exact ⟨[],by simp [run,hframe],by simp⟩
    | ok frame =>
      obtain ⟨segments,hrun,hsegments⟩ := composes_run e doc hframe
      refine ⟨segments,by simpa using hrun,fun x hx => ?_⟩
      obtain ⟨site,n,rest,hvisits,hnodes,hwrites⟩ := hsegments x hx
      have hsite := he.plain_of_visits hvisits (hfirst frame hframe String "")
      obtain hraw | hescaped := he.escaped_of_writes hsite hnodes hwrites
      · exact .inr ⟨frame,site,n,rest,rfl,hvisits,hnodes,hraw,hwrites⟩
      · exact .inl hescaped

theorem standard_renders_escaped :
    let doc : Document := ⟨none,"\x7b\x7b x \x7d\x7d",[.echo (.var ⟨"x",⟨3,4⟩⟩) ⟨0,7⟩]⟩
    let context : Value := .map [("x",.list [.str "<b>"])]
    ∃ segments : List String, (standard.run doc Sink.text "" context).1 = String.join segments ∧
      ∀ x ∈ segments, Text.IsEscaped x.toList ∨
        ∃ frame site n rest, globals context = .ok frame ∧
          standard.Visits Sink.text (firstSite doc frame "") site ∧ site.nodes = n :: rest ∧
          n.isRaw = true ∧
            n.Writes (standard.surroundings Sink.text site.doc) site.state.scope x := by
  intro doc context
  have he : standard.Escapes := ⟨rfl,fun f hf => Table.mem_ofList hf,fun t ht => nomatch ht⟩
  have hdoc : doc.CallsNo "safe" := by
    intro t ht
    obtain rfl := List.mem_singleton.mp ht
    simp [Term.calls]
  exact ((he.renders_escaped hdoc).2 context (by simp [context])).2

end Engine

end Stencil
