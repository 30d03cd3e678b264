import Stencil.Proofs.Template.Terms
import Stencil.Proofs.Template.Tree
import Stencil.Proofs.Term.Inherited
import Stencil.Template.Document

set_option autoImplicit false

namespace Stencil.Inheritance

variable {I : Inheritance} {e : Ending} {ts : List Token}

def vars (I : Inheritance) : LoopVars → Prop
  | .single _ => True
  | .several _ s => I.span s

def tag (I : Inheritance) (t : Tag) : Prop := (∀ u ∈ t.terms, I.term u) ∧ ∀ s ∈ t.places, I.span s

structure piece (I : Inheritance) (p : Piece) : Prop where
  span : I.span p.span
  terms : ∀ t ∈ p.terms, I.term t
  places : ∀ s ∈ p.places, I.span s

section

variable (hI : I.Closed e)
include hI

theorem Closed.yields_keyword {k : Keyword} (h : I.Tokens ts) :
    I.Yields (e.keyword k ts) fun _ => True := by
  refine (hI.yields_expectWith h).bind fun ⟨found,s⟩ rest _ ⟨t,ht,_,hspan⟩ hrest => ?_
  cases hspan
  dsimp only
  split
  · exact settles_ok ⟨trivial,hrest⟩
  · exact settles_error (hI.refused ht rfl)

theorem Closed.yields_readPath (h : I.Tokens ts) :
    I.Yields (Tag.readPath e ts) fun path => I.span path.span := by
  refine (hI.yields_expectWith h).bind fun ⟨body,s⟩ rest _ ⟨t,ht,haccepts,hspan⟩ hrest => ?_
  cases hspan
  split at haccepts
  · rename_i hbody
    cases haccepts
    exact (hI.settles_readString ht hbody).bind fun s hs =>
      settles_pure ⟨hI.term (hI.atom ht hs),hrest⟩
  · cases haccepts

theorem Closed.yields_readAssignment {wide : Bool} (h : I.Tokens ts) :
    I.Yields (Tag.readAssignment e wide ts) fun b => I.term b.2 := by
  refine (hI.yields_name h).bind fun name r₁ _ _ hr₁ => ?_
  refine (hI.yields_expect (by simp) hr₁).bind fun _ r₂ _ _ hr₂ => ?_
  cases wide with
  | false =>
    exact (hI.yields_readLevel .or hr₂).bind fun t r₃ _ ht hr₃ => settles_pure ⟨ht,hr₃⟩
  | true => exact (hI.yields_readList hr₂).bind fun t r₃ _ ht hr₃ => settles_pure ⟨ht,hr₃⟩

theorem Closed.yields_readMoreVars {s : Span} {ts : List Token} (hs : I.span s)
    (h : I.Tokens ts) : I.Yields (Tag.readMoreVars e s ts) fun p => I.span p.2 := by
  rw [Tag.readMoreVars]
  refine (hI.settles_isNext _).bind fun more _ => ?_
  split
  · refine (hI.yields_expect (by simp) h).bind fun _ r₁ h₁ _ hr₁ => ?_
    refine (hI.yields_name hr₁).bind fun name r₂ h₂ ⟨_,hname⟩ hr₂ => ?_
    exact (Closed.yields_readMoreVars (hI.cover hs hname) hr₂).bind
      fun ⟨names,last⟩ r₃ _ hlast hr₃ => settles_pure ⟨hlast,hr₃⟩
  · exact settles_pure ⟨hs,h⟩
termination_by ts.length

theorem Closed.yields_readVars (h : I.Tokens ts) : I.Yields (Tag.readVars e ts) I.vars := by
  refine (hI.yields_name h).bind fun first r₁ _ ⟨_,hfirst⟩ hr₁ => ?_
  refine (hI.settles_isNext _).bind fun more _ => ?_
  dsimp only
  split
  · exact (hI.yields_readMoreVars hfirst hr₁).bind fun ⟨names,s⟩ r₂ _ hs hr₂ =>
      settles_pure ⟨hs,hr₂⟩
  · exact settles_pure ⟨trivial,hr₁⟩

theorem Closed.yields_readBindings {ts : List Token} (h : I.Tokens ts) :
    I.Yields (Tag.readBindings e ts) fun bs => ∀ b ∈ bs, I.term b.2 := by
  rw [Tag.readBindings]
  refine (hI.yields_readAssignment h).bind fun first r₁ h₁ hfirst hr₁ => ?_
  refine (hI.settles_isNext _).bind fun more _ => ?_
  split
  · refine (hI.yields_expect (by simp) hr₁).bind fun _ r₂ h₂ _ hr₂ => ?_
    exact (Closed.yields_readBindings hr₂).bind fun bs r₃ _ hbs hr₃ =>
      settles_pure ⟨List.forall_mem_cons.mpr ⟨hfirst,hbs⟩,hr₃⟩
  · exact settles_pure ⟨by simpa using hfirst,hr₁⟩
termination_by ts.length

theorem Closed.yields_readTag (h : I.Tokens ts) : I.Yields (Tag.read e ts) I.tag := by
  have hplain {t : Tag} (hterms : t.terms = []) (hplaces : t.places = []) : I.tag t := by
    simp [tag,hterms,hplaces]
  have hsingle {t : Tag} {u : Term} (hu : I.term u) (hterms : t.terms = [u])
      (hplaces : t.places = []) : I.tag t := by
    simpa [tag,hterms,hplaces] using hu
  refine (hI.yields_name h).bind fun name r _ ⟨_,hname⟩ hr => ?_
  dsimp only
  split
  · exact (hI.yields_readList hr).bind fun t rest _ ht hrest =>
      settles_pure ⟨hsingle ht rfl rfl,hrest⟩
  · exact (hI.yields_readList hr).bind fun t rest _ ht hrest =>
      settles_pure ⟨hsingle ht rfl rfl,hrest⟩
  · exact settles_pure ⟨hplain rfl rfl,hr⟩
  · exact settles_pure ⟨hplain rfl rfl,hr⟩
  · refine (hI.yields_readVars hr).bind fun vars r₁ _ hvars hr₁ => ?_
    refine (hI.yields_keyword hr₁).bind fun _ r₂ _ _ hr₂ => ?_
    refine (hI.yields_readList hr₂).bind fun t r₃ _ ht hr₃ => settles_pure ⟨⟨?_,?_⟩,hr₃⟩
    · simpa [Tag.terms] using ht
    · cases vars with
      | single _ => simpa [Tag.places] using hI.term ht
      | several _ s => simpa [Tag.places] using ⟨hvars,hI.term ht⟩
  · exact settles_pure ⟨hplain rfl rfl,hr⟩
  · exact (hI.yields_readAssignment hr).bind fun b rest _ hb hrest =>
      settles_pure ⟨hsingle hb rfl rfl,hrest⟩
  · exact (hI.yields_readAssignment hr).bind fun b rest _ hb hrest =>
      settles_pure ⟨hsingle hb rfl rfl,hrest⟩
  · refine (hI.yields_readPath hr).bind fun path r₁ _ hpath hr₁ => ?_
    refine (hI.settles_isNext _).bind fun more _ => ?_
    dsimp only
    split
    · refine (hI.yields_expect (by simp) hr₁).bind fun _ r₂ _ _ hr₂ => ?_
      refine (hI.yields_readBindings hr₂).bind fun bs r₃ _ hbs hr₃ => settles_pure ⟨⟨?_,?_⟩,hr₃⟩
      · exact List.forall_mem_map.mpr hbs
      · simpa [Tag.places] using hpath
    · exact settles_pure ⟨by simpa [tag,Tag.terms,Tag.places] using hpath,hr₁⟩
  · exact (hI.yields_readPath hr).bind fun path rest _ hpath hrest =>
      settles_pure ⟨by simpa [tag,Tag.terms,Tag.places] using hpath,hrest⟩
  · exact settles_error (hI.misplaced hname rfl)

theorem Closed.settles_readComment (h : I.Tokens ts) :
    I.Settles (Piece.readComment e ts) fun rest => I.Tokens rest.1 := by
  cases ts with
  | nil => exact settles_error (hI.ending _)
  | cons t r =>
    rw [Piece.readComment]
    split
    · exact (hI.yields_expect (by simp) (tokens_cons_iff.mp h).2).map fun _ hrest => hrest.2
    · exact (hI.yields_expect (by simp) h).map fun _ hrest => hrest.2

theorem Closed.yields_readPiece {t : Token} (ht : I.token t) (h : I.Tokens ts) :
    I.Yields (Piece.read e t ts) fun piece => ∀ p ∈ piece, I.piece p := by
  have hspan (hraw : ∀ text, t.lexeme ≠ .raw text) : I.span t.span :=
    hI.span ht fun text htext => absurd htext (hraw text)
  unfold Piece.read
  split
  · rename_i content hcontent
    refine settles_ok ⟨?_,h⟩
    split
    · simp
    · rename_i hne
      simpa using ⟨hI.span ht fun _ _ => hne,by simp [Piece.terms],by simp [Piece.places]⟩
  · exact (hI.settles_readComment h).map fun rest hrest => ⟨by simp,hrest⟩
  · rename_i hopen
    refine (hI.yields_readList h).bind fun term r₁ _ hterm hr₁ => ?_
    refine (hI.yields_expect (by simp) hr₁).bind fun stop r₂ _ hstop hr₂ => ?_
    refine settles_pure ⟨?_,hr₂⟩
    have hcover := hI.cover (hspan (by simp [hopen])) hstop
    simpa using ⟨hcover,by simpa [Piece.terms] using hterm,by simp [Piece.places]⟩
  · rename_i hopen
    refine (hI.yields_readTag h).bind fun tag r₁ _ ⟨hterms,hplaces⟩ hr₁ => ?_
    refine (hI.yields_expect (by simp) hr₁).bind fun stop r₂ _ hstop hr₂ => ?_
    refine settles_pure ⟨?_,hr₂⟩
    have hcover := hI.cover (hspan (by simp [hopen])) hstop
    simpa using ⟨hcover,hterms,hplaces⟩
  · exact settles_error (hI.refused ht rfl)

theorem Closed.inherits_readAll (h : I.Tokens ts) : (∀ p ∈ (Piece.readAll e ts).pieces, I.piece p) ∧
    ∀ f, (Piece.readAll e ts).fault = some f → I.fault f := by
  fun_induction Piece.readAll e ts with
  | case1 =>
    refine ⟨by simp,fun f hf => ?_⟩
    simp only at hf
    simpa [Ending.missing,hf] using hI.ending ""
  | case2 t r f hread =>
    obtain ⟨ht,hr⟩ := tokens_cons_iff.mp h
    refine ⟨by simp,fun g hg => ?_⟩
    obtain rfl := Option.some.inj hg
    exact (hI.yields_readPiece ht hr).error _ hread
  | case3 t r piece rest hrest hread tail ih =>
    obtain ⟨ht,hr⟩ := tokens_cons_iff.mp h
    obtain ⟨hpiece,htokens⟩ := (hI.yields_readPiece ht hr).ok _ hread
    obtain ⟨hpieces,hfault⟩ := ih htokens
    refine ⟨fun p hp => ?_,hfault⟩
    obtain hp | hp := List.mem_append.mp hp
    · exact hpiece p (Option.mem_toList.mp hp)
    · exact hpieces p hp

end

def pieces (I : Inheritance) (ps : List Piece) : Prop := ∀ p ∈ ps, I.piece p

@[simp] theorem pieces_cons_iff {p : Piece} {ps : List Piece} :
    I.pieces (p :: ps) ↔ I.piece p ∧ I.pieces ps := List.forall_mem_cons

structure stop (I : Inheritance) (s : Stop) : Prop where
  tag : ∀ t, s.tag = some t → I.span t.2
  rest : I.pieces s.rest

theorem Settles.next {α β γ : Type} {P : γ → Prop} {x : Except Fault (α × { c : γ // P c })}
    {k : α × { c : γ // P c } → Except Fault β} {good : γ → Prop} {good' : β → Prop}
    (hx : I.Settles x fun p => good p.2.1)
    (hk : ∀ a c h, good c → I.Settles (k (a,⟨c,h⟩)) good') : I.Settles (x >>= k) good' :=
  hx.bind fun ⟨a,c,h⟩ hc => hk a c h hc

section

variable {fault : Option Fault} {opening : Span}

theorem Closed.settles_readClose (hI : I.Closed e) {chain : Node.Chain} {stop : Stop}
    (hopening : I.span opening) (h : I.stop stop) :
    I.Settles (Node.readClose chain opening stop) fun p => I.pieces p.2.1 := by
  unfold Node.readClose
  split
  · exact settles_error (hI.misplaced hopening rfl)
  · rename_i tag span htag
    split
    · exact settles_ok h.rest
    · exact settles_error (hI.misplaced (h.tag _ htag) rfl)

mutual

theorem Closed.settles_readNodes (hI : I.Closed e) (hfault : ∀ f, fault = some f → I.fault f)
    {ps : List Piece} (h : I.pieces ps) :
    I.Settles (Node.readNodes fault ps) fun p => I.stop p.2.1 := by
  match ps with
  | [] =>
    rw [Node.readNodes.eq_def]
    dsimp only
    split
    · exact settles_error (hfault _ rfl)
    · exact settles_ok ⟨by simp,by simp [pieces]⟩
  | p :: r =>
    obtain ⟨hp,hr⟩ := pieces_cons_iff.mp h
    have hbehind (n : Node) : I.Settles (Node.readBehind fault n r) fun q => I.stop q.2.1 :=
      hI.settles_readBehind hfault hr
    cases p with
    | text _ _ | echo _ _ =>
      rw [Node.readNodes]
      exact hbehind _
    | tag t s =>
      cases t with
      | setTag _ _ | letTag _ _ | includeTag _ _ | textTag _ =>
        rw [Node.readNodes]
        exact hbehind _
      | ifTag c =>
        rw [Node.readNodes]
        refine (hI.settles_readNodes hfault hr).next fun body stop hle hstop => ?_
        refine (hI.settles_readAlternatives hfault hp.span hstop).next fun _ rest hlt hrest => ?_
        exact (hI.settles_readNodes hfault hrest).next fun nodes stop' _ hstop' =>
          settles_pure hstop'
      | forTag vars t =>
        rw [Node.readNodes]
        refine (hI.settles_readNodes hfault hr).next fun body stop hle hstop => ?_
        refine (hI.settles_readTail hfault hp.span hstop).next fun _ rest hlt hrest => ?_
        exact (hI.settles_readNodes hfault hrest).next fun nodes stop' _ hstop' =>
          settles_pure hstop'
      | elifTag _ | elseTag | endifTag | endforTag =>
        rw [Node.readNodes.eq_def]
        exact settles_ok ⟨fun t ht => Option.some.inj ht ▸ hp.span,hr⟩
termination_by 4 * ps.length + 1

theorem Closed.settles_readBehind (hI : I.Closed e) (hfault : ∀ f, fault = some f → I.fault f)
    {n : Node} {r : List Piece} (h : I.pieces r) :
    I.Settles (Node.readBehind fault n r) fun p => I.stop p.2.1 := by
  rw [Node.readBehind]
  exact (hI.settles_readNodes hfault h).next fun nodes stop _ hstop => settles_pure hstop
termination_by 4 * r.length + 2

theorem Closed.settles_readAlternatives (hI : I.Closed e)
    (hfault : ∀ f, fault = some f → I.fault f) {opening : Span} {stop : Stop}
    (hopening : I.span opening) (h : I.stop stop) :
    I.Settles (Node.readAlternatives fault opening stop) fun p => I.pieces p.2.1 := by
  rw [Node.readAlternatives.eq_def]
  split
  · rename_i c s htag
    have hsize : stop.size = stop.rest.length + 1 := by simp [Stop.size,htag]
    refine (hI.settles_readNodes hfault h.rest).next fun body stop' hle hstop' => ?_
    exact (hI.settles_readAlternatives hfault hopening hstop').next fun _ rest _ hrest =>
      settles_pure hrest
  · exact (hI.settles_readTail hfault hopening h).next fun tail rest _ hrest => settles_pure hrest
termination_by 4 * stop.size + 1

theorem Closed.settles_readTail (hI : I.Closed e) (hfault : ∀ f, fault = some f → I.fault f)
    {chain : Node.Chain} {opening : Span} {stop : Stop} (hopening : I.span opening)
    (h : I.stop stop) :
    I.Settles (Node.readTail fault chain opening stop) fun p => I.pieces p.2.1 := by
  rw [Node.readTail.eq_def]
  split
  · rename_i s htag
    have hsize : stop.size = stop.rest.length + 1 := by simp [Stop.size,htag]
    refine (hI.settles_readNodes hfault h.rest).next fun body stop' hle hstop' => ?_
    exact (hI.settles_readClose hopening hstop').next fun close rest _ hrest => settles_pure hrest
  · exact (hI.settles_readClose hopening h).next fun close rest _ hrest => settles_pure hrest
termination_by 4 * stop.size

end

end

theorem Closed.settles_parse [Alphabet] {source : String}
    (hI : I.Closed ⟨source.utf8ByteSize,(scan source).fault⟩) (h : I.Tokens (scan source).tokens) :
    I.Settles (Document.parse source) fun nodes => I.pieces (Node.listPieces nodes) := by
  obtain ⟨hpieces,hfault⟩ := hI.inherits_readAll h
  refine ⟨fun nodes hnodes => ?_,fun f hf => ?_⟩
  · obtain ⟨_,hlist⟩ := Node.ofPieces_eq_ok_iff.mp hnodes
    rw [hlist]
    exact hpieces
  · have hsettles : I.Settles (Document.parse source) fun _ => True := by
      refine (hI.settles_readNodes hfault hpieces).bind fun ⟨nodes,stop,_⟩ hstop => ?_
      dsimp only
      split
      · exact settles_pure trivial
      · rename_i tag span htag
        exact settles_error (hI.misplaced (hstop.tag _ htag) rfl)
    exact hsettles.error f hf

end Stencil.Inheritance
