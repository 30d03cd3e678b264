import Stencil.Proofs.Template.Linked
import Stencil.Proofs.Template.Placed
import Stencil.Proofs.Template.Regions
import Stencil.Proofs.Term.Nested
import Stencil.Proofs.Token.Delimited
import Stencil.Text.Identifier

set_option autoImplicit false

namespace Stencil
open Text

theorem ordered_scan [Alphabet] (source : String) :
    Token.Ordered 0 (scan source).tokens source.utf8ByteSize := by
  refine Token.ordered_of_follows (runs_scan source).follows (Nat.zero_le _) fun t ht => ?_
  have hplaced := (placed_scan source).tokens t ht
  exact ⟨le_of_isBoundary hplaced.within.stop,fun hraw => (hplaced.proper hraw).lt⟩

variable {α β : Type} {e : Ending} {lo hi m : Nat} {ts rest : List Token}

/-- What the reading gives is `Good` up to a byte behind which it leaves the tokens. -/
def Advances {P : List Token → Prop} (x : Except Fault (α × { rest : List Token // P rest }))
    (hi : Nat) (Good : α → Nat → Prop) : Prop :=
  ∀ a rest, Gives x a rest → ∃ m, Good a m ∧ Token.Ordered m rest hi

namespace Advances

variable {P Q : List Token → Prop} {x : Except Fault (α × { rest : List Token // P rest })}
  {Good : α → Nat → Prop} {Good' : β → Nat → Prop}

theorem pure {a : α} {r : { rest : List Token // P rest }} (ha : Good a m)
    (hr : Token.Ordered m r.1 hi) : Advances (.ok (a,r)) hi Good := by
  intro a' rest hgives
  obtain ⟨rfl,rfl⟩ := Gives.ok_iff.mp hgives
  exact ⟨m,ha,hr⟩

theorem error {f : Fault} :
    Advances (.error f : Except Fault (α × { rest : List Token // P rest })) hi Good :=
  fun _ _ h => absurd h Gives.error_iff

theorem bind {k : α × { rest : List Token // P rest } →
    Except Fault (β × { rest : List Token // Q rest })} (hx : Advances x hi Good)
    (hk : ∀ a r h m, Good a m → Token.Ordered m r hi → Advances (k (a,⟨r,h⟩)) hi Good') :
    Advances (x >>= k) hi Good' := by
  intro b rest hgives
  obtain ⟨a,r,h,hfirst,hsecond⟩ := Gives.bind_gives_iff.mp hgives
  obtain ⟨m,ha,hr⟩ := hx a r hfirst
  exact hk a r h m ha hr b rest hsecond

theorem bind_idle {y : Except Fault α} {k : α → Except Fault (β × { rest : List Token // Q rest })}
    (hk : ∀ a, Advances (k a) hi Good') : Advances (y >>= k) hi Good' := by
  intro b rest hgives
  obtain ⟨a,_,hrest⟩ := Gives.bind_iff.mp hgives
  exact hk a b rest hrest

end Advances

namespace Ending

theorem advances_expectWith {wanted : String} {accepts : Lexeme → Option α}
    (hts : Token.Ordered lo ts hi) (h : ∀ text, accepts (.raw text) = none) :
    Advances (e.expectWith wanted accepts ts) hi fun a m => Span.Ordered lo [a.span] m := by
  cases ts with
  | nil => exact .error
  | cons t r =>
    obtain ⟨hlo,_,hproper,hr⟩ := hts
    rw [expectWith]
    split
    · rename_i a ha
      have hraw : ∀ text, t.lexeme ≠ .raw text := by
        intro text htext
        rw [htext,h] at ha
        cases ha
      exact .pure ⟨hlo,hproper hraw,Nat.le_refl _⟩ hr
    · exact .error

theorem advances_name (hts : Token.Ordered lo ts hi) :
    Advances (e.name ts) hi fun a m => Span.Ordered lo [a.span] m :=
  advances_expectWith hts fun _ => rfl

theorem advances_expect {l : Lexeme} (hts : Token.Ordered lo ts hi) :
    Advances (e.expect l ts) hi fun _ m => lo ≤ m := by
  intro s rest hgives
  obtain ⟨t,rfl,rfl,_⟩ := gives_expect.mp hgives
  exact ⟨t.span.stop,Nat.le_trans hts.1 hts.2.1,hts.2.2.2⟩

theorem advances_keyword {k : Keyword} (hts : Token.Ordered lo ts hi) :
    Advances (e.keyword k ts) hi fun _ m => lo ≤ m := by
  refine (advances_expectWith hts fun _ => rfl).bind fun found r _ m hfound hr => ?_
  dsimp only
  split
  · exact .pure hfound.le hr
  · exact .error

end Ending

namespace Term

theorem advances_readList (hts : Token.Ordered lo ts hi) :
    Advances (readList e ts) hi fun t m => Ordered lo [t] m := by
  intro t rest hgives
  obtain ⟨us,rfl,ht⟩ := Grammar.readList_sound hgives
  obtain ⟨m,hus,hrest⟩ := Token.ordered_append.mp hts
  exact ⟨m,ht.ordered hus,hrest⟩

theorem advances_read (hts : Token.Ordered lo ts hi) :
    Advances (read e ts) hi fun t m => Ordered lo [t] m := by
  intro t rest hgives
  obtain ⟨us,rfl,ht⟩ := Grammar.readLevel_sound hgives
  obtain ⟨m,hus,hrest⟩ := Token.ordered_append.mp hts
  exact ⟨m,ht.ordered hus,hrest⟩

end Term

namespace LoopVars

def span : LoopVars → Span
  | .single n => n.span
  | .several _ s => s

def names : LoopVars → List (Located String)
  | .single n => [n]
  | .several ns _ => ns

end LoopVars

namespace Tag
open Ending

def parts : Tag → List Span
  | .ifTag t | .elifTag t => [t.span]
  | .elseTag | .endifTag | .endforTag => []
  | .forTag vars t => [vars.span,t.span]
  | .setTag n t | .letTag n t => [n.span,t.span]
  | .includeTag path bindings => path.span :: bindings.flatMap fun b => [b.1.span,b.2.span]
  | .textTag path => [path.span]

structure Nested (tag : Tag) : Prop where
  terms : ∀ t ∈ tag.terms, t.Nested
  vars : ∀ vars t, tag = .forTag vars t →
    Span.Ordered vars.span.start (vars.names.map Located.span) vars.span.stop

theorem advances_readPath (hts : Token.Ordered lo ts hi) :
    Advances (readPath e ts) hi fun path m => Span.Ordered lo [path.span] m :=
  (advances_expectWith hts fun _ => rfl).bind fun _ _ _ _ hbody hr => .bind_idle fun _ => .pure hbody hr

theorem advances_readAssignment {wide : Bool} (hts : Token.Ordered lo ts hi) :
    Advances (readAssignment e wide ts) hi fun a m =>
      Span.Ordered lo [a.1.span,a.2.span] m ∧ a.2.Nested := by
  refine (advances_name hts).bind fun name r₁ _ m hname hr₁ => ?_
  refine (advances_expect hr₁).bind fun _ r₂ _ m' hle hr₂ => ?_
  have hassigned {t : Term} {n : Nat} (ht : Term.Ordered m' [t] n) :
      Span.Ordered lo [name.span,t.span] n ∧ t.Nested :=
    ⟨Span.ordered_append.mpr ⟨m,hname,ht.spans.mono_left hle⟩,ht.nested t (by simp)⟩
  cases wide with
  | false =>
    exact (Term.advances_read hr₂).bind fun t r₃ _ n ht hr₃ => .pure (hassigned ht) hr₃
  | true =>
    exact (Term.advances_readList hr₂).bind fun t r₃ _ n ht hr₃ => .pure (hassigned ht) hr₃

theorem advances_readMoreVars {s : Span} {lo : Nat} {ts : List Token} (hs : s.start < s.stop)
    (hle : s.stop ≤ lo) (hts : Token.Ordered lo ts hi) :
    Advances (readMoreVars e s ts) hi fun vars m => vars.2.start = s.start ∧ vars.2.stop ≤ m ∧
      Span.Ordered s.stop (vars.1.map Located.span) vars.2.stop := by
  rw [readMoreVars]
  refine .bind_idle fun more => ?_
  split
  · refine (advances_expect hts).bind fun _ r₁ h₁ m₁ hle₁ hr₁ => ?_
    refine (advances_name hr₁).bind fun name r₂ h₂ m₂ hname hr₂ => ?_
    obtain ⟨hstart,hproper,hm₂⟩ := hname
    have hcover : s.cover name.span = ⟨s.start,name.span.stop⟩ :=
      Span.cover_eq (by omega) (by omega)
    have hlt : (s.cover name.span).start < (s.cover name.span).stop := by
      simp only [hcover]
      omega
    have hbehind : (s.cover name.span).stop ≤ m₂ := by simpa [hcover] using hm₂
    refine (advances_readMoreVars hlt hbehind hr₂).bind fun vars r₃ _ m₃ hvars hr₃ => .pure ?_ hr₃
    rw [hcover] at hvars
    obtain ⟨hfirst,hlast,hnames⟩ := hvars
    exact ⟨hfirst,hlast,Nat.le_trans (Nat.le_trans hle hle₁) hstart,hproper,hnames⟩
  · exact .pure ⟨rfl,hle,Nat.le_refl _⟩ hts
termination_by ts.length

theorem advances_readVars (hts : Token.Ordered lo ts hi) :
    Advances (readVars e ts) hi fun vars m => Span.Ordered lo [vars.span] m ∧
      Span.Ordered vars.span.start (vars.names.map Located.span) vars.span.stop := by
  refine (advances_name hts).bind fun first r₁ _ m hfirst hr₁ => .bind_idle fun more => ?_
  obtain ⟨hstart,hproper,hm⟩ := hfirst
  dsimp only
  split
  · refine (advances_readMoreVars hproper hm hr₁).bind fun vars r₂ _ m' hvars hr₂ => .pure ?_ hr₂
    obtain ⟨hspan,hlast,hnames⟩ := hvars
    have hle := hnames.le
    rw [← hspan] at hstart
    refine ⟨⟨hstart,?_,hlast⟩,?_,hproper,hnames⟩
    · show vars.2.start < vars.2.stop
      omega
    · show vars.2.start ≤ first.span.start
      omega
  · exact .pure ⟨⟨hstart,hproper,hm⟩,Nat.le_refl _,hproper,Nat.le_refl _⟩ hr₁

theorem advances_readBindings {lo : Nat} {ts : List Token} (hts : Token.Ordered lo ts hi) :
    Advances (readBindings e ts) hi fun bs m =>
      Span.Ordered lo (bs.flatMap fun b => [b.1.span,b.2.span]) m ∧ ∀ b ∈ bs, b.2.Nested := by
  rw [readBindings]
  refine (advances_readAssignment hts).bind fun b r₁ h₁ m₁ hb hr₁ => .bind_idle fun more => ?_
  split
  · refine (advances_expect hr₁).bind fun _ r₂ h₂ m₂ hle hr₂ => ?_
    refine (advances_readBindings hr₂).bind fun bs r₃ _ m₃ hbs hr₃ => .pure ⟨?_,?_⟩ hr₃
    · exact Span.ordered_append.mpr ⟨m₁,hb.1,hbs.1.mono_left hle⟩
    · exact List.forall_mem_cons.mpr ⟨hb.2,hbs.2⟩
  · exact .pure ⟨hb.1,by simpa using hb.2⟩ hr₁
termination_by ts.length

theorem nested_of_terms {tag : Tag} (hfor : ∀ vars t, tag ≠ .forTag vars t)
    (h : ∀ t ∈ tag.terms, t.Nested) : tag.Nested :=
  ⟨h,fun vars t heq => absurd heq (hfor vars t)⟩

theorem advances_read (hts : Token.Ordered lo ts hi) :
    Advances (read e ts) hi fun tag m => Span.Ordered lo tag.parts m ∧ tag.Nested := by
  refine (advances_name hts).bind fun name r _ m hname hr => ?_
  have hle := hname.le
  dsimp only
  split
  -- a condition
  · refine (Term.advances_readList hr).bind fun t _ _ n ht hr₁ => .pure ⟨?_,?_⟩ hr₁
    · exact ht.spans.mono_left hle
    · exact nested_of_terms (by simp) ht.nested
  · refine (Term.advances_readList hr).bind fun t _ _ n ht hr₁ => .pure ⟨?_,?_⟩ hr₁
    · exact ht.spans.mono_left hle
    · exact nested_of_terms (by simp) ht.nested
  · exact .pure ⟨hle,nested_of_terms (by simp) (by simp [terms])⟩ hr
  · exact .pure ⟨hle,nested_of_terms (by simp) (by simp [terms])⟩ hr
  -- a loop
  · refine (advances_readVars hr).bind fun vars r₁ _ m₁ hvars hr₁ => ?_
    refine (advances_keyword hr₁).bind fun _ r₂ _ m₂ hle₂ hr₂ => ?_
    refine (Term.advances_readList hr₂).bind fun t _ _ m₃ ht hr₃ => .pure ⟨?_,ht.nested,?_⟩ hr₃
    · exact Span.ordered_append.mpr ⟨m₁,hvars.1.mono_left hle,ht.spans.mono_left hle₂⟩
    · rintro _ _ ⟨⟩
      exact hvars.2
  · exact .pure ⟨hle,nested_of_terms (by simp) (by simp [terms])⟩ hr
  -- a binding
  · refine (advances_readAssignment hr).bind fun a _ _ _ ha hr₁ => .pure ⟨?_,?_⟩ hr₁
    · exact ha.1.mono_left hle
    · exact nested_of_terms (by simp) (by simpa [terms] using ha.2)
  · refine (advances_readAssignment hr).bind fun a _ _ _ ha hr₁ => .pure ⟨?_,?_⟩ hr₁
    · exact ha.1.mono_left hle
    · exact nested_of_terms (by simp) (by simpa [terms] using ha.2)
  -- an embedded template and a stored text
  · refine (advances_readPath hr).bind fun path r₁ _ m₁ hpath hr₁ => .bind_idle fun more => ?_
    have hpath := hpath.mono_left hle
    dsimp only
    split
    · refine (advances_expect hr₁).bind fun _ r₂ _ m₂ hle₂ hr₂ => ?_
      refine (advances_readBindings hr₂).bind fun bs _ _ _ hbs hr₃ => .pure ⟨?_,?_⟩ hr₃
      · exact Span.ordered_append.mpr ⟨m₁,hpath,hbs.1.mono_left hle₂⟩
      · refine nested_of_terms (by simp) ?_
        rw [terms,List.forall_mem_map]
        exact hbs.2
    · exact .pure ⟨hpath,nested_of_terms (by simp) (by simp [terms])⟩ hr₁
  · refine (advances_readPath hr).bind fun path _ _ _ hpath hr₁ => .pure ⟨?_,?_⟩ hr₁
    · exact hpath.mono_left hle
    · exact nested_of_terms (by simp) (by simp [terms])
  · exact .error

end Tag

/-- The span starts with an opening delimiter of the region and ends with a closing one, and between
the two the parts follow each other. -/
def Span.Encloses (source : String) (region : Region) (s : Span) (parts : List Span) : Prop :=
  ∃ first last trimStart trimEnd,
    slice? source.toList ⟨s.start,first⟩ = some (Delimiter.text ⟨true,region,trimStart⟩) ∧
    slice? source.toList ⟨last,s.stop⟩ = some (Delimiter.text ⟨false,region,trimEnd⟩) ∧
    s.start < first ∧ Span.Ordered first parts last ∧ last < s.stop

namespace Piece
open Ending

def Nested (source : String) : Piece → Prop
  | .text _ _ => True
  | .echo t s => s.Encloses source .expression [t.span] ∧ t.Nested
  | .tag t s => s.Encloses source .block t.parts ∧ t.Nested

theorem Nested.terms {source : String} {p : Piece} (h : p.Nested source) :
    ∀ t ∈ p.terms, t.Nested := by
  cases p with
  | text => simp [Piece.terms]
  | echo t s => simpa [Piece.terms] using h.2
  | tag t s => exact h.2.terms

variable {source : String}

/-- What stands from an opening delimiter to the closing one that is read behind the parts. -/
theorem encloses_of_gives {o : Token} {region : Region} {parts : List Span} {stop : Span}
    (ho : o.lexeme = .opening region) (hmark : o.Marked source)
    (hmarked : ∀ x ∈ ts, x.Marked source)
    (hlo : lo ≤ o.span.start) (hproper : o.span.start < o.span.stop)
    (hparts : Span.Ordered o.span.stop parts m) (hts : Token.Ordered m ts hi)
    (h : Gives (e.expect (.closing region) ts) stop rest) :
    (o.span.cover stop).Encloses source region parts ∧ ∃ n,
      Span.Ordered lo [o.span.cover stop] n ∧ Token.Ordered n rest hi := by
  obtain ⟨c,rfl,hc,rfl⟩ := gives_expect.mp h
  obtain ⟨hm,_,hproper',hrest⟩ := hts
  have hproper' := hproper' (by simp [hc])
  have hle := hparts.le
  have hcover : o.span.cover c.span = ⟨o.span.start,c.span.stop⟩ :=
    Span.cover_eq (by omega) (by omega)
  obtain ⟨b,hb⟩ := hmark.opening region ho
  obtain ⟨b',hb'⟩ := (hmarked c (by simp)).closing region hc
  have hlt : o.span.start < c.span.stop := by omega
  rw [hcover]
  exact ⟨⟨_,_,b,b',hb,hb',hproper,hparts.mono (Nat.le_refl _) hm,hproper'⟩,
    _,⟨hlo,hlt,Nat.le_refl _⟩,hrest⟩

theorem gives_read_ordered {t : Token} {piece : Option Piece} (hts : Token.Ordered lo (t :: ts) hi)
    (hmark : t.Marked source) (hmarked : ∀ x ∈ ts, x.Marked source)
    (h : Gives (read e t ts) piece rest) :
    (∀ p ∈ piece, p.Nested source) ∧ ∃ m, Span.Ordered lo (piece.toList.map Piece.span) m ∧
      Token.Ordered m rest hi := by
  obtain ⟨hlo,hle,hproper,hts⟩ := hts
  unfold read at h
  split at h
  · obtain ⟨rfl,rfl⟩ := Gives.ok_iff.mp h
    split
    · exact ⟨by simp,lo,Nat.le_refl _,hts.mono (Nat.le_trans hlo hle)⟩
    · rename_i hne
      exact ⟨by simp [Nested],_,⟨hlo,Nat.lt_of_le_of_ne hle hne,Nat.le_refl _⟩,hts⟩
  · obtain ⟨hle,h⟩ := h
    obtain ⟨r,hr,heq⟩ := map_eq_ok_iff.mp h
    cases heq
    obtain ⟨us,c,hregion,_,_⟩ := readComment_iff.mp ⟨_,hr⟩
    rw [hregion] at hts
    obtain ⟨m,hus,hmc,hspan,_,hrest⟩ := Token.ordered_append.mp hts
    have hle := hus.le
    exact ⟨by simp,lo,Nat.le_refl _,hrest.mono (by omega)⟩
  · rename_i hopening
    obtain ⟨term,r₁,_,hterm,h⟩ := Gives.bind_gives_iff.mp h
    obtain ⟨stop,r₂,_,hstop,h⟩ := Gives.bind_gives_iff.mp h
    obtain ⟨rfl,rfl⟩ := Gives.pure_iff.mp h
    obtain ⟨us,rfl,_⟩ := Grammar.readList_sound hterm
    obtain ⟨m,hordered,hr₁⟩ := Term.advances_readList hts _ _ hterm
    obtain ⟨hencloses,hpiece⟩ := encloses_of_gives hopening hmark
      (List.forall_mem_append.mp hmarked).2 hlo (hproper (by simp [hopening])) hordered.spans hr₁ hstop
    exact ⟨by simpa using ⟨hencloses,hordered.nested term (by simp)⟩,hpiece⟩
  · rename_i hopening
    obtain ⟨tag,r₁,_,htag,h⟩ := Gives.bind_gives_iff.mp h
    obtain ⟨stop,r₂,_,hstop,h⟩ := Gives.bind_gives_iff.mp h
    obtain ⟨rfl,rfl⟩ := Gives.pure_iff.mp h
    obtain ⟨us,rfl,_⟩ := Grammar.readTag_sound htag
    obtain ⟨m,⟨hparts,htag⟩,hr₁⟩ := Tag.advances_read hts _ _ htag
    obtain ⟨hencloses,hpiece⟩ := encloses_of_gives hopening hmark
      (List.forall_mem_append.mp hmarked).2 hlo (hproper (by simp [hopening])) hparts hr₁ hstop
    exact ⟨by simpa using ⟨hencloses,htag⟩,hpiece⟩
  · exact absurd h Gives.error_iff

theorem suffix_of_gives_read {t : Token} {piece : Option Piece}
    (h : Gives (read e t ts) piece rest) : rest <:+ ts := by
  obtain ⟨_,_,rfl,_⟩ | ⟨_,us,c,_,rfl,_⟩ := gives_read h
  · exact List.suffix_refl _
  · exact ⟨us ++ [c],by simp⟩

/-- By induction along the reading, up to its first fault. -/
theorem readAll_ordered (hts : Token.Ordered lo ts hi) (hmarked : ∀ x ∈ ts, x.Marked source) :
    (∀ p ∈ (readAll e ts).pieces, p.Nested source) ∧
      Span.Ordered lo ((readAll e ts).pieces.map Piece.span) hi := by
  fun_induction readAll e ts generalizing lo with
  | case1 => exact ⟨by simp,hts⟩
  | case2 => exact ⟨by simp,hts.le⟩
  | case3 t r piece rest hrest hread tail =>
    rename_i ih
    have hgives : Gives (read e t r) piece rest := ⟨hrest,hread⟩
    obtain ⟨ht,hr⟩ := List.forall_mem_cons.mp hmarked
    obtain ⟨hpiece,m,hspan,hordered⟩ := gives_read_ordered hts ht hr hgives
    obtain ⟨hnested,hspans⟩ :=
      ih hordered fun x hx => hr x ((suffix_of_gives_read hgives).subset hx)
    rw [List.map_append]
    refine ⟨List.forall_mem_append.mpr ⟨?_,hnested⟩,Span.ordered_append.mpr ⟨m,hspan,hspans⟩⟩
    simpa using hpiece

end Piece

theorem Pieces.ofSource_ordered [Alphabet] (source : String) :
    (∀ p ∈ (Pieces.ofSource source).pieces, p.Nested source) ∧
      Span.Ordered 0 ((Pieces.ofSource source).pieces.map Piece.span) source.utf8ByteSize :=
  Piece.readAll_ordered (ordered_scan source) (marked_scan source)

namespace LinkedTag

mutual

theorem walk_suffix {u : LinkedTag} : (t : LinkedTag) → u ∈ t.chain → u.walk <:+ t.walk
  | .mk tag s b n, h => by
    rw [chain_mk,List.mem_cons] at h
    obtain rfl | h := h
    · exact List.suffix_refl _
    · have hnext := walkNext_suffix n h
      rw [walk,← List.cons_append]
      exact hnext.trans (List.suffix_append _ _)

theorem walkNext_suffix {u : LinkedTag} :
    (n : Option LinkedTag) → u ∈ chainOf n → u.walk <:+ walkNext n
  | none, h => by simp at h
  | some t, h => walk_suffix t h

end

theorem getLast?_chain {u : LinkedTag} (hu : u.next = none) :
    (t : LinkedTag) → u ∈ t.chain → t.chain.getLast? = some u
  | .mk tag s b none, h => by
    obtain rfl : u = .mk tag s b none := by simpa using h
    rfl
  | .mk tag s b (some t), h => by
    rw [chain_mk,chainOf_some,List.mem_cons] at h
    obtain rfl | h := h
    · cases hu
    · simp [List.getLast?_cons,getLast?_chain hu t h]

end LinkedTag

theorem Element.walk_infix {e : Element} {es : List Element} (h : e ∈ es) :
    e.walk <:+: walkAll es := by
  induction es with
  | nil => cases h
  | cons f es ih =>
    obtain rfl | h := List.mem_cons.mp h
    · exact (List.prefix_append _ _).isInfix
    · exact (ih h).trans (List.suffix_append _ _).isInfix

theorem LinkedTag.walkAll_body_infix (t : LinkedTag) : Element.walkAll t.body <:+: t.walk := by
  obtain ⟨tag,s,b,n⟩ := t
  exact ⟨[.tag tag s],walkNext n,by simp [body,walk]⟩

theorem Within.walk_infix {e : Element} {es : List Element} (h : Within e es) :
    e.walk <:+: Element.walkAll es := by
  induction h with
  | here he => exact Element.walk_infix he
  | inside ht hu _ ih =>
    have hchain := (LinkedTag.walk_suffix _ hu).isInfix
    exact ((ih.trans (LinkedTag.walkAll_body_infix _)).trans hchain).trans (Element.walk_infix ht)

theorem Linkage.last {ts : List Tag} {t : Tag} (h : Linkage ts) (ht : ts.getLast? = some t) :
    t.isSingle = true ∨ t.isEnd = true := by
  cases h with
  | single hsingle =>
    obtain rfl := Option.some.inj ht
    exact .inl hsingle
  | branch =>
    obtain rfl : Tag.endifTag = t := by simpa [List.getLast?_cons] using ht
    exact .inr rfl
  | loop =>
    obtain rfl : Tag.endforTag = t := by simpa [List.getLast?_cons] using ht
    exact .inr rfl

theorem WellLinked.exists_next {es : List Element} {t u : LinkedTag} (h : WellLinked es)
    (ht : Within (.tag t) es) (hu : u ∈ t.chain) (hbody : u.body ≠ []) : ∃ v, u.next = some v := by
  refine Option.ne_none_iff_exists'.mp fun hnext => hbody ?_
  have hlast : (t.chain.map LinkedTag.tag).getLast? = some u.tag := by
    rw [List.getLast?_map,LinkedTag.getLast?_chain hnext t hu]
    rfl
  exact (h.bodiless ht hu ((h.linkage ht).last hlast)).1

theorem LinkedTag.between_of_walk {u v : LinkedTag} {p : Piece} (hnext : u.next = some v)
    (h : (u.walk.map Piece.span).Pairwise fun a b => a.stop ≤ b.start)
    (hp : p ∈ Element.walkAll u.body) :
    u.span.stop ≤ p.span.start ∧ p.span.stop ≤ v.span.start := by
  obtain ⟨tag,s,b,n⟩ := u
  obtain ⟨tag',s',b',n'⟩ := v
  obtain rfl : n = _ := hnext
  simp only [walk,walkNext,List.map_cons,List.map_append,List.pairwise_cons,
    List.pairwise_append] at h
  obtain ⟨hbehind,_,_,hbefore⟩ := h
  have hp := List.mem_map_of_mem (f := Piece.span) hp
  exact ⟨hbehind _ (List.mem_append_left _ hp),hbefore _ hp _ (by simp [Piece.span,span])⟩

/-- The spans of a tree that is read from the source. -/
structure SpansNest (source : String) (nodes : List Node) : Prop where
  terms : ∀ t ∈ Node.listTerms nodes, t.Nested ∧ ∀ s ∈ t.places,
    t.span.start ≤ s.start ∧ s.start < s.stop ∧ s.stop ≤ t.span.stop
  pieces : ∀ p ∈ Element.walkAll (Node.elements nodes), p.Nested source
  walk : Span.Ordered 0 ((Element.walkAll (Node.elements nodes)).map Piece.span)
    source.utf8ByteSize
  bodies : ∀ t, Within (.tag t) (Node.elements nodes) → ∀ u ∈ t.chain,
    ∀ p ∈ Element.walkAll u.body, ∃ v, u.next = some v ∧
      u.span.stop ≤ p.span.start ∧ p.span.stop ≤ v.span.start

namespace Document

/-- In a source that compiles, terms hold what they are made of, echoes and tags hold what stands
between their delimiters, and no two of the texts, echoes and tags of the tree overlap. -/
theorem spans_nest [Alphabet] {name : Option String} {source : String} {doc : Document}
    (h : compile name source = .ok doc) : SpansNest source doc.nodes := by
  obtain ⟨nodes,hnodes,rfl⟩ := parse_of_compile h
  obtain ⟨_,hpieces⟩ := parse_eq_ok_iff.mp hnodes
  obtain ⟨hnested,hwalk⟩ := Pieces.ofSource_ordered source
  rw [← hpieces] at hnested hwalk
  refine ⟨fun t ht => ?_,?_,?_,fun t ht u hu p hp => ?_⟩
  · rw [← Node.terms_listPieces,List.mem_flatMap] at ht
    obtain ⟨p,hp,ht⟩ := ht
    have ht := (hnested p hp).terms t ht
    exact ⟨ht,fun _ => ht.holds⟩
  · rwa [Node.walkAll_elements]
  · rwa [Node.walkAll_elements]
  · have hbody : u.body ≠ [] := by
      intro hempty
      simp [hempty,Element.walkAll] at hp
    obtain ⟨v,hv⟩ := (Node.wellLinked nodes).exists_next ht hu hbody
    have hbelow := (LinkedTag.walk_suffix t hu).isInfix.trans ht.walk_infix
    rw [Node.walkAll_elements] at hbelow
    have hpairwise := hwalk.pairwise.sublist (hbelow.map Piece.span).sublist
    exact ⟨v,hv,LinkedTag.between_of_walk hv hpairwise hp⟩

/-- A list with a comma behind it, which holds a slice of a call, and a loop with a body. -/
theorem spans_nest_of_loop :
    let source := "\x7b\x7b f(a)[1:], \x7d\x7d\x7b% for k, v in (m) %\x7db\x7b% endfor %\x7d"
    ∃ doc, compile none source = .ok doc ∧ SpansNest source doc.nodes ∧
      (Node.listTerms doc.nodes).map Term.places =
        [[⟨3,12⟩,⟨3,11⟩,⟨3,7⟩,⟨3,4⟩,⟨5,6⟩,⟨8,9⟩],[⟨31,32⟩]] ∧
      (Element.walkAll (Node.elements doc.nodes)).map Piece.span =
        [⟨0,15⟩,⟨15,36⟩,⟨36,37⟩,⟨37,49⟩] := by
  intro source
  have hspans : (compile none source).map (fun doc => ((Node.listTerms doc.nodes).map Term.places,
      (Element.walkAll (Node.elements doc.nodes)).map Piece.span)) =
      .ok ([[⟨3,12⟩,⟨3,11⟩,⟨3,7⟩,⟨3,4⟩,⟨5,6⟩,⟨8,9⟩],[⟨31,32⟩]],
        [⟨0,15⟩,⟨15,36⟩,⟨36,37⟩,⟨37,49⟩]) := by decide +kernel
  obtain ⟨doc,hdoc,hplaces⟩ := map_eq_ok_iff.mp hspans
  exact ⟨doc,hdoc,spans_nest hdoc,Prod.mk.inj hplaces⟩

end Document

end Stencil
