import Stencil.Proofs.Outcome
import Stencil.Proofs.Render.Traces
import Stencil.Proofs.Template.Placed

/-!
Which document an error of rendering is told in: in that of the node that fails. An error that
comes out of an embedded template is neither told in another source nor given another name.
-/

set_option autoImplicit false

namespace Stencil
open Render

section

variable {σ : Type} {w : Surroundings σ} {s : Rendering σ} {f : Fault}

theorem Alternatives.Fails.tells {env : Env} {a : Alternatives} (h : a.Fails env f) :
    ∃ p ∈ a.pieces, p.Tells f.span := by
  induction h with
  | @condition c span body rest f hc =>
    refine ⟨.tag (.elifTag c) span,by simp [pieces],Piece.tells_of_eval ?_ hc⟩
    simp [Piece.terms,Tag.terms]
  | later _ _ _ ih =>
    obtain ⟨p,hp,htells⟩ := ih
    exact ⟨p,by simp [pieces,hp],htells⟩

theorem Node.Fails.tells {n : Node} (h : n.Fails w s f) : ∃ p ∈ n.pieces, p.Tells f.span := by
  cases h with
  | echo ht | assign ht | define ht =>
    refine ⟨_,List.mem_singleton_self _,Piece.tells_of_eval ?_ ht⟩
    simp [Piece.terms,Tag.terms]
  | condition hfails =>
    cases hfails with
    | condition hc =>
      refine ⟨_,List.mem_cons_self,Piece.tells_of_eval ?_ hc⟩
      simp [Piece.terms,Tag.terms]
    | later _ _ hrest =>
      obtain ⟨p,hp,htells⟩ := hrest.tells
      exact ⟨p,by simp [pieces,hp],htells⟩
  | iterable ht =>
    refine ⟨_,List.mem_cons_self,Piece.tells_of_eval ?_ ht⟩
    simp [Piece.terms,Tag.terms]
  | @items vars _ _ _ _ _ _ _ _ =>
    refine ⟨_,List.mem_cons_self,.inl ?_⟩
    cases vars <;> simp [Piece.places,Tag.places]
  | round _ _ _ hbind => exact ⟨_,List.mem_cons_self,.inl (Comparison.bind_places hbind)⟩
  | unknownTemplate | includeDepth | unknownText =>
    refine ⟨_,List.mem_singleton_self _,.inl ?_⟩
    simp [Piece.places,Tag.places]
  | binding _ _ hb ht =>
    refine ⟨_,List.mem_singleton_self _,Piece.tells_of_eval ?_ ht⟩
    exact List.mem_map_of_mem hb

end

theorem Place.upTo?_before {source : String} {span : Span}
    (h : Text.IsBoundary source span.start) :
    Text.upTo? source.toList span.start = some (before ⟨source,span⟩) := by
  obtain ⟨text,_,_,hupTo⟩ := Text.upTo?_of_isBoundary h
  simp [before,hupTo]

namespace Engine

variable {σ : Type} {e : Engine} {sink : Sink σ} {a b : Site σ}

theorem doc_of_visits (h : e.Visits sink a b) :
    b.doc = a.doc ∨ ∃ key, (key,b.doc) ∈ e.templates := by
  induction h with
  | refl => exact .inl rfl
  | tail _ hstart ih =>
    cases hstart with
    | next _ | body _ | round _ _ _ _ => exact ih
    | embed hget _ _ => exact .inr ⟨_,Table.mem_of_get? hget⟩

theorem subset_of_visits (h : e.Visits sink a b)
    (ha : Node.listPieces a.nodes ⊆ Node.listPieces a.doc.nodes) :
    Node.listPieces b.nodes ⊆ Node.listPieces b.doc.nodes := by
  induction h with
  | refl => exact ha
  | tail _ hstart ih =>
    cases hstart with
    | next _ => exact fun p hp => ih (List.mem_append_right _ hp)
    | body hchosen =>
      obtain ⟨p,ps,hn,hinside⟩ := Node.pieces_of_chosen? hchosen
      refine fun q hq => ih (List.mem_append_left _ ?_)
      rw [hn]
      exact List.mem_cons_of_mem _ (hinside.subset hq)
    | round _ _ _ _ =>
      refine fun q hq => ih (List.mem_append_left _ ?_)
      simp [Node.pieces,hq]
    | embed _ _ _ => exact List.Subset.refl _

/-- The error is what a node fails with itself whose turn comes, and is told in its document. -/
def Blames (e : Engine) (a : Site String) (err : Error) : Prop :=
  ∃ site n rest f, e.Visits Sink.text a site ∧ site.nodes = n :: rest ∧
    n.Fails (e.surroundings Sink.text site.doc) site.state f ∧
    err = ⟨f.cause,some ⟨site.doc.source,f.span⟩,site.doc.name⟩

/-- An error keeps its name on the way out: it has one, or it comes from the document itself. -/
theorem traces_blames (hnamed : ∀ t ∈ e.templates, t.2.name.isSome) :
    e.Traces fun a _ _ x => ∀ err, x = .error err → e.Blames a err where
  pass _ _ _ h := nomatch h
  trans _ h := h
  writes _ _ _ _ h := nomatch h
  fails _ hnodes hfails err h := by
    cases h
    exact ⟨_,_,_,_,.refl,hnodes,hfails,rfl⟩
  starts {a b _ _ x} hstart h err herr := by
    obtain ⟨err',rfl,rfl⟩ : ∃ err', x = .error err' ∧ err = err'.named a.doc.name := by
      cases x with
      | ok _ => cases herr
      | error err' => exact ⟨err',rfl,(Except.error.inj herr).symm⟩
    obtain ⟨site,n,rest,f,hvisits,hnodes,hfails,rfl⟩ := h err' rfl
    have hall : e.Visits Sink.text a site := .head hstart hvisits
    refine ⟨site,n,rest,f,hall,hnodes,hfails,?_⟩
    -- a document that is not the one at hand is stored, and so has a name of its own
    have hname : site.doc.name.or a.doc.name = site.doc.name := by
      obtain hdoc | ⟨key,hmem⟩ := doc_of_visits hall
      · rw [hdoc,Option.or_self]
      · exact Option.or_of_isSome (hnamed _ hmem)
    simp only [Error.named,hname]

theorem blames_render (hnamed : ∀ t ∈ e.templates, t.2.name.isSome) {doc : Document}
    {context : Value} {frame : Frame} {err : Error} (hframe : globals context = .ok frame)
    (h : e.render doc context = .error err) : e.Blames (firstSite doc frame "") err := by
  refine (traces_blames hnamed).holds_run doc hframe err ?_
  unfold render at h
  split at h
  · cases h
  · rename_i hrun
    rw [hrun]
    exact congrArg Except.error (Except.error.inj h)

section
variable [Alphabet]

inductive Made : Engine → Prop
  | empty : Made .empty
  | standard : Made .standard
  | addFunction {e : Engine} (name : String) (f : Function) : Made e → Made (e.addFunction name f)
  | removeFunction {e : Engine} (name : String) : Made e → Made (e.removeFunction name)
  | addTemplate {e e' : Engine} {path source : String} : Made e →
      e.addTemplate path source = .ok e' → Made e'
  | removeTemplate {e : Engine} (path : String) : Made e → Made (e.removeTemplate path)
  | addText {e : Engine} (path text : String) : Made e → Made (e.addText path text)
  | limit {e : Engine} (n : Nat) : Made e → Made { e with maxIncludeDepth := n }
  | escape {e : Engine} (yes : Bool) : Made e → Made { e with autoEscape := yes }

theorem Made.stored (h : e.Made) :
    ∀ t ∈ e.templates, Document.compile (some t.1) t.2.source = .ok t.2 := by
  induction h with
  | empty | standard => exact fun t ht => nomatch ht
  | addFunction | removeFunction | addText | limit | escape => assumption
  | removeTemplate _ _ ih => exact fun t ht => ih t (List.mem_of_mem_filter ht)
  | @addTemplate e e' path source _ hadd ih =>
    obtain ⟨doc,hcompile,rfl⟩ := addTemplate_eq_ok_iff.mp hadd
    intro t ht
    obtain rfl | ht := Table.mem_insert ht
    · obtain ⟨nodes,_,rfl⟩ := Document.parse_of_compile hcompile
      exact hcompile
    · exact ih t ht

theorem Made.named (h : e.Made) {key : String} {doc : Document} (hmem : (key,doc) ∈ e.templates) :
    doc.name = some key := by
  obtain ⟨nodes,_,hdoc⟩ := Document.parse_of_compile (h.stored _ hmem)
  exact congrArg Document.name hdoc

/-- Wherever rendering comes to, the document at hand is the rendered one or is stored under its
name, and lies in its source. -/
theorem Made.document (h : e.Made) {doc : Document} (hdoc : doc.Placed) {frame : Frame} {state : σ}
    {site : Site σ} (hvisits : e.Visits sink (firstSite doc frame state) site) :
    (site.doc = doc ∨ ∃ key, (key,site.doc) ∈ e.templates ∧ site.doc.name = some key) ∧
      site.doc.Placed := by
  obtain hsame | ⟨key,hmem⟩ := doc_of_visits hvisits
  · exact ⟨.inl hsame,hsame ▸ hdoc⟩
  · exact ⟨.inr ⟨key,hmem,h.named hmem⟩,Document.placed_of_compile (h.stored _ hmem)⟩

end

theorem globals_of_map_or_none {context : Value}
    (h : context = .none ∨ ∃ entries, context = .map entries) :
    ∃ frame, globals context = .ok frame := by
  obtain rfl | ⟨entries,rfl⟩ := h
  · exact ⟨[],rfl⟩
  · exact ⟨entries,rfl⟩

theorem compile_undefined : Document.compile (some "a") "\x7b\x7b x \x7d\x7d" =
    .ok ⟨some "a","\x7b\x7b x \x7d\x7d",[.echo (.var ⟨"x",⟨3,4⟩⟩) ⟨0,7⟩]⟩ := by
  with_unfolding_all rfl

theorem compile_embedding : (Document.compile none "\x7b% include 'a' %\x7d").isOk = true := by
  decide +kernel

theorem render_embedding : (do
    let e ← empty.addTemplate "a" "\x7b\x7b x \x7d\x7d"
    let doc ← Document.compile none "\x7b% include 'a' %\x7d"
    e.render doc .none) =
      .error ⟨.undefinedName "x",some ⟨"\x7b\x7b x \x7d\x7d",⟨3,4⟩⟩,some "a"⟩ := by
  decide +kernel

/-- What compiling fails with is told in the source, and what rendering fails with is told in the
source, and under the name, of the one document whose node fails: of the rendered one or of one that
is stored. There is some text at the place, and the text in front of it is not cut. -/
theorem errors_told_in_source [Alphabet] :
    (∀ (name : Option String) (source : String) (err : Error),
      Document.compile name source = .error err →
      (err.category = .lex ∨ err.category = .syntactic) ∧ err.name = name ∧
        ∃ span : Span, err.place = some ⟨source,span⟩ ∧ span.Within source ∧
          span.stop ≤ source.utf8ByteSize ∧
          Text.upTo? source.toList span.start = some (Place.before ⟨source,span⟩)) ∧
    ∀ (e : Engine) (doc : Document) (context : Value) (err : Error), e.Made →
      (∃ name source, Document.compile name source = .ok doc) →
      (context = .none ∨ ∃ entries, context = .map entries) → e.render doc context = .error err →
      ∃ frame site n rest span, globals context = .ok frame ∧
        e.Visits Sink.text (firstSite doc frame "") site ∧ site.nodes = n :: rest ∧
        n.Fails (e.surroundings Sink.text site.doc) site.state ⟨err.cause,span⟩ ∧
        (site.doc = doc ∨ ∃ key, (key,site.doc) ∈ e.templates ∧ site.doc.name = some key) ∧
        err.place = some ⟨site.doc.source,span⟩ ∧ err.name = site.doc.name ∧
        (err.name = none → site.doc = doc) ∧ span.Proper site.doc.source ∧
        span.stop ≤ site.doc.source.utf8ByteSize ∧
        Text.upTo? site.doc.source.toList span.start =
          some (Place.before ⟨site.doc.source,span⟩) ∧
        ∃ text, Text.slice? site.doc.source.toList span = some text ∧ text ≠ [] := by
  constructor
  · intro name source err h
    obtain ⟨f,⟨hwithin,hcategory⟩,rfl⟩ := Document.fault_of_compile h
    exact ⟨hcategory,rfl,f.span,rfl,hwithin,Text.le_of_isBoundary hwithin.stop,
      Place.upTo?_before hwithin.start⟩
  · rintro e doc context err he ⟨_,_,hcompile⟩ hcontext h
    obtain ⟨frame,hframe⟩ := globals_of_map_or_none hcontext
    have hnamed : ∀ t ∈ e.templates, t.2.name.isSome := fun t ht => by simp [he.named ht]
    obtain ⟨site,n,rest,f,hvisits,hnodes,hfails,rfl⟩ := blames_render hnamed hframe h
    obtain ⟨hdoc,hplaced⟩ := he.document (Document.placed_of_compile hcompile) hvisits
    have hsubset := subset_of_visits hvisits (List.Subset.refl _)
    -- the node that fails belongs to a compiled document, all places of which lie in its source
    obtain ⟨p,hp,htells⟩ := hfails.tells
    have hpiece : p ∈ Node.listPieces site.nodes := hnodes ▸ List.mem_append_left _ hp
    have hproper : f.span.Proper site.doc.source := hplaced p (hsubset hpiece) _ htells
    refine ⟨frame,site,n,rest,f.span,hframe,hvisits,hnodes,hfails,hdoc,rfl,rfl,fun hnone => ?_,
      hproper,Text.le_of_isBoundary hproper.stop,Place.upTo?_before hproper.start,hproper.slice?⟩
    obtain hsame | ⟨key,_,hkey⟩ := hdoc
    · exact hsame
    · exact absurd (hkey.symm.trans hnone) (by simp)

theorem errors_told_in_source_of_embedded :
    let inner : Document := ⟨some "a","\x7b\x7b x \x7d\x7d",[.echo (.var ⟨"x",⟨3,4⟩⟩) ⟨0,7⟩]⟩
    let e : Engine := { empty with templates := [("a",inner)] }
    let unclosed : Error := ⟨.unclosedRegion .expression,some ⟨"\x7b\x7b",⟨0,2⟩⟩,some "a"⟩
    let undefined : Error := ⟨.undefinedName "x",some ⟨inner.source,⟨3,4⟩⟩,some "a"⟩
    (Document.compile (some "a") "\x7b\x7b" = .error unclosed ∧
      (unclosed.category = .lex ∨ unclosed.category = .syntactic)) ∧
    ∃ doc site, Document.compile none "\x7b% include 'a' %\x7d" = .ok doc ∧
      e.render doc .none = .error undefined ∧ e.Visits Sink.text (firstSite doc [] "") site ∧
      (site.doc = doc ∨ ∃ key, (key,site.doc) ∈ e.templates ∧ site.doc.name = some key) ∧
      site.doc.source = inner.source ∧ site.doc.name = some "a" ∧
      Span.Proper site.doc.source ⟨3,4⟩ := by
  intro inner e unclosed undefined
  have hunclosed : Document.compile (some "a") "\x7b\x7b" = .error unclosed := by
    with_unfolding_all rfl
  have hadd : empty.addTemplate "a" inner.source = .ok e := by
    have hpath : Path.normalize "a" = "a" := by decide
    simp only [addTemplate,storeTemplate,hpath,inner,compile_undefined]
    rfl
  have hrun := render_embedding
  cases hdoc : Document.compile none "\x7b% include 'a' %\x7d" with
  | error err => simpa [hdoc,Except.isOk,Except.toBool] using compile_embedding
  | ok doc =>
    rw [hadd,hdoc] at hrun
    have hundefined : e.render doc .none = .error undefined := hrun
    obtain ⟨hcompiling,hrendering⟩ := errors_told_in_source
    obtain ⟨hcategory,_,_⟩ := hcompiling _ _ _ hunclosed
    obtain ⟨frame,site,n,rest,span,hframe,hvisits,_,_,hstored,hplace,hname,_,hproper,_,_,_⟩ :=
      hrendering e doc .none undefined (.addTemplate .empty hadd) ⟨none,_,hdoc⟩ (.inl rfl)
        hundefined
    cases hframe
    obtain ⟨hsource,rfl⟩ : inner.source = site.doc.source ∧ ⟨3,4⟩ = span := by
      simpa [undefined] using hplace
    exact ⟨⟨hunclosed,hcategory⟩,doc,site,rfl,hundefined,hvisits,hstored,hsource.symm,
      hname.symm,hproper⟩

end Engine

end Stencil
