import Stencil.Proofs.Grammar.Basic

/-!
What terms and faults inherit from the tokens that they are read from: what is known of the tokens,
and kept by each step of a reader, is known of all that the readers give.
-/

set_option autoImplicit false

namespace Stencil

/-- What is known of tokens, and of the spans, terms and faults that come from them. -/
structure Inheritance where
  token : Token → Prop
  span : Span → Prop
  term : Term → Prop
  fault : Fault → Prop

namespace Inheritance
open Grammar

structure Closed (I : Inheritance) (e : Ending) : Prop where
  ending (wanted : String) : I.fault (e.missing wanted)
  refused {t : Token} {cause : Cause} : I.token t → cause.category = .syntactic →
    I.fault ⟨cause,t.span⟩
  misplaced {s : Span} {cause : Cause} : I.span s → cause.category = .syntactic →
    I.fault ⟨cause,s⟩
  escape {t : Token} {body : String} {f : Fault} : I.token t → t.lexeme = .string body →
    Literal.readString ⟨body,t.span⟩ = .error f → I.fault f
  span {t : Token} : I.token t → (∀ text, t.lexeme = .raw text → t.span.start ≠ t.span.stop) →
    I.span t.span
  cover {a b : Span} : I.span a → I.span b → I.span (a.cover b)
  term {t : Term} : I.term t → I.span t.span
  atom {t : Token} {l : Literal} : I.token t → Atom t l → I.term (.literal l t.span)
  member {t : Token} {l : Literal} : I.token t → Member t l → I.term (.literal l t.span)
  var {t : Token} {n : String} : I.token t → t.lexeme = .name n → I.term (.var ⟨n,t.span⟩)
  unary {op : UnaryOp} {t : Term} {s : Span} : I.term t → I.span s → I.term (.unary op t s)
  binary {op : BinaryOp} {l r : Term} {s : Span} : I.term l → I.term r → I.span s →
    I.term (.binary op l r s)
  call {f : Located String} {args : List Term} {s : Span} : I.term (.var f) →
    (∀ t ∈ args, I.term t) → I.span s → I.term (.call f args s)
  index {c k : Term} {s : Span} : I.term c → I.term k → I.span s → I.term (.index c k s)
  slice {c : Term} {start stop step : Option Term} {s : Span} : I.term c →
    (∀ t ∈ start, I.term t) → (∀ t ∈ stop, I.term t) → (∀ t ∈ step, I.term t) → I.span s →
    I.term (.slice c start stop step s)
  list {items : List Term} {s : Span} : (∀ t ∈ items, I.term t) → I.span s → I.term (.list items s)

def Tokens (I : Inheritance) (ts : List Token) : Prop := ∀ t ∈ ts, I.token t

structure Settles {α : Type} (I : Inheritance) (x : Except Fault α) (good : α → Prop) : Prop where
  ok : ∀ a, x = .ok a → good a
  error : ∀ f, x = .error f → I.fault f

/-- A reading gives something good, and the tokens that it leaves are as tokens are known to be. -/
abbrev Yields {α : Type} {P : List Token → Prop} (I : Inheritance)
    (x : Except Fault (α × { rest : List Token // P rest })) (good : α → Prop) : Prop :=
  I.Settles x fun p => good p.1 ∧ I.Tokens p.2.1

variable {I : Inheritance} {α β : Type} {e : Ending} {ts : List Token}

@[simp] theorem tokens_cons_iff {t : Token} : I.Tokens (t :: ts) ↔ I.token t ∧ I.Tokens ts :=
  List.forall_mem_cons

theorem settles_ok {a : α} {good : α → Prop} (h : good a) : I.Settles (.ok a) good :=
  ⟨fun _ ha => Except.ok.inj ha ▸ h,fun _ hf => (nomatch hf)⟩

theorem settles_pure {a : α} {good : α → Prop} (h : good a) :
    I.Settles (pure a : Except Fault α) good := settles_ok h

theorem settles_error {f : Fault} {good : α → Prop} (h : I.fault f) :
    I.Settles (.error f : Except Fault α) good :=
  ⟨fun _ ha => (nomatch ha),fun _ hf => Except.error.inj hf ▸ h⟩

theorem Settles.bind {x : Except Fault α} {k : α → Except Fault β} {good : α → Prop}
    {good' : β → Prop} (hx : I.Settles x good) (hk : ∀ a, good a → I.Settles (k a) good') :
    I.Settles (x >>= k) good' := by
  cases x with
  | ok a => exact hk a (hx.ok a rfl)
  | error f => exact settles_error (hx.error f rfl)

theorem Settles.map {x : Except Fault α} {g : α → β} {good : α → Prop} {good' : β → Prop}
    (hx : I.Settles x good) (hg : ∀ a, good a → good' (g a)) : I.Settles (x.map g) good' := by
  cases x with
  | ok a => exact settles_ok (hg a (hx.ok a rfl))
  | error f => exact settles_error (hx.error f rfl)

theorem Settles.mono {x : Except Fault α} {good good' : α → Prop} (hx : I.Settles x good)
    (h : ∀ a, good a → good' a) : I.Settles x good' := ⟨fun a ha => h a (hx.ok a ha),hx.error⟩

theorem Yields.bind {P : List Token → Prop} {x : Except Fault (α × { rest : List Token // P rest })}
    {k : α × { rest : List Token // P rest } → Except Fault β} {good : α → Prop} {good' : β → Prop}
    (hx : I.Yields x good)
    (hk : ∀ a rest h, good a → I.Tokens rest → I.Settles (k (a,⟨rest,h⟩)) good') :
    I.Settles (x >>= k) good' :=
  Settles.bind hx fun ⟨a,rest,h⟩ ⟨ha,hrest⟩ => hk a rest h ha hrest

section

variable (hI : I.Closed e)
include hI

theorem Closed.settles_peek : I.Settles (e.peek ts) fun _ => True := by
  have hending := hI.ending ""
  unfold Ending.missing at hending
  unfold Ending.peek
  split
  · exact settles_ok trivial
  · split
    · rename_i hfault
      rw [hfault] at hending
      exact settles_error hending
    · exact settles_ok trivial

theorem Closed.settles_isNext (l : Lexeme) : I.Settles (e.isNext l ts) fun _ => True :=
  hI.settles_peek.map fun _ _ => trivial

theorem Closed.yields_any (h : I.Tokens ts) : I.Yields (e.any ts) I.token := by
  cases ts with
  | nil => exact settles_error (hI.ending _)
  | cons t r => exact settles_ok (tokens_cons_iff.mp h)

theorem Closed.yields_expectWith {wanted : String} {accepts : Lexeme → Option α}
    (h : I.Tokens ts) : I.Yields (e.expectWith wanted accepts ts) fun found =>
      ∃ t, I.token t ∧ accepts t.lexeme = some found.value ∧ t.span = found.span := by
  cases ts with
  | nil => exact settles_error (hI.ending wanted)
  | cons t r =>
    obtain ⟨ht,hr⟩ := tokens_cons_iff.mp h
    rw [Ending.expectWith]
    split
    · rename_i a ha
      exact settles_ok ⟨⟨t,ht,ha,rfl⟩,hr⟩
    · exact settles_error (hI.refused ht rfl)

theorem Closed.yields_expect {l : Lexeme} (hl : ∀ text, l ≠ .raw text) (h : I.Tokens ts) :
    I.Yields (e.expect l ts) I.span := by
  refine (hI.yields_expectWith h).map fun ⟨⟨_,s⟩,rest⟩ ⟨⟨t,ht,haccepts,hspan⟩,hrest⟩ => ⟨?_,hrest⟩
  cases hspan
  split at haccepts
  · rename_i heq
    exact hI.span ht fun text htext => absurd (heq.symm.trans htext) (hl text)
  · cases haccepts

theorem Closed.yields_name (h : I.Tokens ts) :
    I.Yields (e.name ts) fun found => I.term (.var found) ∧ I.span found.span := by
  refine (hI.yields_expectWith h).mono fun ⟨⟨n,s⟩,rest⟩ ⟨⟨t,ht,haccepts,hspan⟩,hrest⟩ => ⟨?_,hrest⟩
  cases hspan
  split at haccepts
  · rename_i hn
    cases haccepts
    have hvar := hI.var ht hn
    exact ⟨hvar,hI.term hvar⟩
  · cases haccepts

theorem Closed.settles_readInteger {t : Token} {digits : String} (ht : I.token t)
    (hdigits : t.lexeme = .number digits) :
    I.Settles (Literal.readInteger ⟨digits,t.span⟩) (Member t) := by
  refine ⟨fun l hl => .number hdigits hl,fun f hf => ?_⟩
  unfold Literal.readInteger at hf
  split at hf
  · cases hf
  · cases hf
    exact hI.refused ht rfl

theorem Closed.settles_readNumber {t : Token} {digits : String} (ht : I.token t)
    (hdigits : t.lexeme = .number digits) :
    I.Settles (Literal.readNumber ⟨digits,t.span⟩) (Atom t) := by
  refine ⟨fun l hl => .number hdigits hl,fun f hf => ?_⟩
  unfold Literal.readNumber at hf
  split at hf
  · split at hf
    · split at hf
      · cases hf
      · cases hf
        exact hI.refused ht rfl
    · cases hf
      exact hI.refused ht rfl
  · exact (hI.settles_readInteger ht hdigits).error f hf

theorem Closed.settles_readString {t : Token} {body : String} (ht : I.token t)
    (hbody : t.lexeme = .string body) :
    I.Settles (Literal.readString ⟨body,t.span⟩) fun s => Atom t (.str s) :=
  ⟨fun _ hs => .string hbody hs,fun _ hf => hI.escape ht hbody hf⟩

theorem Closed.yields_readMember (h : I.Tokens ts) : I.Yields (Term.readMember e ts) I.term := by
  refine (hI.yields_any h).bind fun t rest _ ht hrest => ?_
  dsimp only
  split
  · rename_i n hn
    exact settles_pure ⟨hI.member ht (.name hn),hrest⟩
  · rename_i k hk
    exact settles_pure ⟨hI.member ht (.keyword hk),hrest⟩
  · rename_i digits hdigits
    exact (hI.settles_readInteger ht hdigits).bind fun l hl => settles_pure ⟨hI.member ht hl,hrest⟩
  · exact settles_error (hI.refused ht rfl)

end

mutual

theorem Closed.yields_readLevel (hI : I.Closed e) (l : Level) {ts : List Token}
    (h : I.Tokens ts) : I.Yields (Term.readLevel e l ts) I.term := by
  rw [Term.readLevel]
  refine (hI.yields_readOperand l h).bind fun left rest hlt hleft hrest => ?_
  exact (hI.yields_readChain l hleft hrest).bind fun t _ _ ht hrest' => settles_pure ⟨ht,hrest'⟩
termination_by 20 * ts.length + (2 * l.height + 4)

theorem Closed.yields_readOperand (hI : I.Closed e) (l : Level) {ts : List Token}
    (h : I.Tokens ts) : I.Yields (Term.readOperand e l ts) I.term := by
  rw [Term.readOperand]
  split
  · rename_i k hk
    have := Level.height_of_tighter? hk
    exact hI.yields_readLevel k h
  · exact hI.yields_readUnary h
termination_by 20 * ts.length + (2 * l.height + 3)

theorem Closed.yields_readChain (hI : I.Closed e) (l : Level) {left : Term} {ts : List Token}
    (hleft : I.term left) (h : I.Tokens ts) : I.Yields (Term.readChain e l left ts) I.term := by
  match ts with
  | [] =>
    rw [Term.readChain]
    exact hI.settles_peek.map fun _ _ => ⟨hleft,h⟩
  | t :: r =>
    obtain ⟨ht,hr⟩ := tokens_cons_iff.mp h
    rw [Term.readChain]
    split
    · rename_i op hop
      have := l.height_le
      refine (hI.yields_readOperand l hr).bind fun right rest hlt hright hrest => ?_
      have hspan := hI.cover (hI.term hleft) (hI.term hright)
      have hjoined : I.term (.binary op left right _) := hI.binary hleft hright hspan
      exact (hI.yields_readChain l hjoined hrest).bind fun u _ _ hu hrest' =>
        settles_pure ⟨hu,hrest'⟩
    · exact settles_ok ⟨hleft,h⟩
termination_by 20 * ts.length

theorem Closed.yields_readUnary (hI : I.Closed e) {ts : List Token} (h : I.Tokens ts) :
    I.Yields (Term.readUnary e ts) I.term := by
  match ts with
  | [] =>
    rw [Term.readUnary]
    exact settles_error (hI.ending _)
  | t :: r =>
    obtain ⟨ht,hr⟩ := tokens_cons_iff.mp h
    rw [Term.readUnary]
    split
    · rename_i op hop
      have hspan : I.span t.span := by
        refine hI.span ht fun text htext => ?_
        rw [htext] at hop
        cases hop
      exact (hI.yields_readUnary hr).bind fun operand _ _ hoperand hrest =>
        settles_pure ⟨hI.unary hoperand (hI.cover hspan (hI.term hoperand)),hrest⟩
    · exact hI.yields_readPostfix h
termination_by 20 * ts.length + 2

theorem Closed.yields_readPostfix (hI : I.Closed e) {ts : List Token} (h : I.Tokens ts) :
    I.Yields (Term.readPostfix e ts) I.term := by
  rw [Term.readPostfix]
  refine (hI.yields_readPrimary h).bind fun ⟨t,parenthesized⟩ rest hlt ht hrest => ?_
  exact (hI.yields_readSuffixes parenthesized ht hrest).bind fun u _ _ hu hrest' =>
    settles_pure ⟨hu,hrest'⟩
termination_by 20 * ts.length + 1

theorem Closed.yields_readSuffixes (hI : I.Closed e) {t : Term} (parenthesized : Bool)
    {ts : List Token} (ht : I.term t) (h : I.Tokens ts) :
    I.Yields (Term.readSuffixes e t parenthesized ts) I.term := by
  match ts with
  | [] =>
    rw [Term.readSuffixes]
    exact hI.settles_peek.map fun _ _ => ⟨ht,h⟩
  | next :: r =>
    obtain ⟨hnext,hr⟩ := tokens_cons_iff.mp h
    rw [Term.readSuffixes.eq_def]
    dsimp only
    split
    · refine (hI.yields_readMember hr).bind fun key rest hlt hkey hrest => ?_
      have hindex := hI.index ht hkey (hI.cover (hI.term ht) (hI.term hkey))
      exact (hI.yields_readSuffixes false hindex hrest).bind fun u _ _ hu hrest' =>
        settles_pure ⟨hu,hrest'⟩
    · refine (hI.yields_readSubscript ht hr).bind fun s rest hlt hs hrest => ?_
      exact (hI.yields_readSuffixes false hs hrest).bind fun u _ _ hu hrest' =>
        settles_pure ⟨hu,hrest'⟩
    · split
      · refine (hI.yields_readItems .rparen hr).bind
          fun ⟨args,stop⟩ rest hlt ⟨hargs,hstop⟩ hrest => ?_
        have hcall := hI.call ht hargs (hI.cover (hI.term ht) hstop)
        exact (hI.yields_readSuffixes false hcall hrest).bind fun u _ _ hu hrest' =>
          settles_pure ⟨hu,hrest'⟩
      · exact settles_error (hI.refused hnext rfl)
    · exact settles_ok ⟨ht,h⟩
termination_by 20 * ts.length

theorem Closed.yields_readSubscript (hI : I.Closed e) {container : Term} {ts : List Token}
    (hc : I.term container) (h : I.Tokens ts) :
    I.Yields (Term.readSubscript e container ts) I.term := by
  rw [Term.readSubscript]
  refine (hI.yields_readStart h).bind fun start rest hle hstart hrest => ?_
  refine (hI.settles_isNext _).bind fun more _ => ?_
  split
  · exact (hI.yields_expect (by simp) hrest).bind fun stop _ _ hstop hrest' =>
      settles_pure ⟨hI.index hc (hstart _ rfl) (hI.cover (hI.term hc) hstop),hrest'⟩
  · refine (hI.yields_expect (by simp) hrest).bind fun _ r₁ h₁ _ hr₁ => ?_
    refine (hI.yields_readBound hr₁).bind fun stop r₂ h₂ hstop hr₂ => ?_
    refine (hI.yields_readStep hr₂).bind fun step r₃ h₃ hstep hr₃ => ?_
    exact (hI.yields_expect (by simp) hr₃).bind fun last _ _ hlast hr₄ =>
      settles_pure ⟨hI.slice hc hstart hstop hstep (hI.cover (hI.term hc) hlast),hr₄⟩
termination_by 20 * ts.length + 18

theorem Closed.yields_readStart (hI : I.Closed e) {ts : List Token} (h : I.Tokens ts) :
    I.Yields (Term.readStart e ts) fun start => ∀ t ∈ start, I.term t := by
  rw [Term.readStart]
  refine (hI.settles_isNext _).bind fun more _ => ?_
  split
  · exact settles_pure ⟨by simp,h⟩
  · exact (hI.yields_readLevel .or h).bind fun t _ _ ht hrest =>
      settles_pure ⟨by simpa using ht,hrest⟩
termination_by 20 * ts.length + 17

theorem Closed.yields_readBound (hI : I.Closed e) {ts : List Token} (h : I.Tokens ts) :
    I.Yields (Term.readBound e ts) fun bound => ∀ t ∈ bound, I.term t := by
  rw [Term.readBound]
  refine (hI.settles_isNext _).bind fun colon _ => ?_
  refine (hI.settles_isNext _).bind fun close _ => ?_
  split
  · exact settles_pure ⟨by simp,h⟩
  · exact (hI.yields_readLevel .or h).bind fun t _ _ ht hrest =>
      settles_pure ⟨by simpa using ht,hrest⟩
termination_by 20 * ts.length + 16

theorem Closed.yields_readStep (hI : I.Closed e) {ts : List Token} (h : I.Tokens ts) :
    I.Yields (Term.readStep e ts) fun step => ∀ t ∈ step, I.term t := by
  rw [Term.readStep]
  refine (hI.settles_isNext _).bind fun more _ => ?_
  split
  · refine (hI.yields_expect (by simp) h).bind fun _ rest hlt _ hrest => ?_
    exact (hI.yields_readBound hrest).bind fun step _ _ hstep hrest' =>
      settles_pure ⟨hstep,hrest'⟩
  · exact settles_pure ⟨by simp,h⟩
termination_by 20 * ts.length + 17

theorem Closed.yields_readPrimary (hI : I.Closed e) {ts : List Token} (h : I.Tokens ts) :
    I.Yields (Term.readPrimary e ts) fun p => I.term p.1 := by
  match ts with
  | [] =>
    rw [Term.readPrimary]
    exact settles_error (hI.ending _)
  | t :: r =>
    obtain ⟨ht,hr⟩ := tokens_cons_iff.mp h
    rw [Term.readPrimary.eq_def]
    dsimp only
    split
    · rename_i digits hdigits
      exact (hI.settles_readNumber ht hdigits).bind fun l hl => settles_pure ⟨hI.atom ht hl,hr⟩
    · rename_i body hbody
      exact (hI.settles_readString ht hbody).bind fun s hs => settles_pure ⟨hI.atom ht hs,hr⟩
    · rename_i hkw
      exact settles_ok ⟨hI.atom ht (.true hkw),hr⟩
    · rename_i hkw
      exact settles_ok ⟨hI.atom ht (.false hkw),hr⟩
    · rename_i hkw
      exact settles_ok ⟨hI.atom ht (.null hkw),hr⟩
    · exact settles_error (hI.refused ht rfl)
    · rename_i n hn
      exact settles_ok ⟨hI.var ht hn,hr⟩
    · refine (hI.yields_readLevel .or hr).bind fun u r₁ h₁ hu hr₁ => ?_
      exact (hI.yields_expect (by simp) hr₁).bind fun _ _ _ _ hr₂ => settles_pure ⟨hu,hr₂⟩
    · rename_i hopen
      have hspan : I.span t.span :=
        hI.span ht fun text htext => nomatch hopen.symm.trans htext
      exact (hI.yields_readItems .rbracket hr).bind fun ⟨items,stop⟩ _ _ ⟨hitems,hstop⟩ hr₁ =>
        settles_pure ⟨hI.list hitems (hI.cover hspan hstop),hr₁⟩
    · exact settles_error (hI.refused ht rfl)
termination_by 20 * ts.length

theorem Closed.yields_readItems (hI : I.Closed e) (close : Symbol) {ts : List Token}
    (h : I.Tokens ts) :
    I.Yields (Term.readItems e close ts) fun p => (∀ t ∈ p.1, I.term t) ∧ I.span p.2 := by
  rw [Term.readItems]
  refine (hI.settles_isNext _).bind fun done _ => ?_
  split
  · exact (hI.yields_expect (by simp) h).bind fun stop _ _ hstop hrest =>
      settles_pure ⟨⟨by simp,hstop⟩,hrest⟩
  · refine (hI.yields_readLevel .or h).bind fun t r₁ h₁ ht hr₁ => ?_
    refine (hI.settles_isNext _).bind fun more _ => ?_
    split
    · refine (hI.yields_expect (by simp) hr₁).bind fun _ r₂ h₂ _ hr₂ => ?_
      exact (hI.yields_readItems close hr₂).bind fun ⟨items,stop⟩ _ _ ⟨hitems,hstop⟩ hr₃ =>
        settles_pure ⟨⟨List.forall_mem_cons.mpr ⟨ht,hitems⟩,hstop⟩,hr₃⟩
    · exact (hI.yields_expect (by simp) hr₁).bind fun stop _ _ hstop hr₂ =>
        settles_pure ⟨⟨by simpa using ht,hstop⟩,hr₂⟩
termination_by 20 * ts.length + 16

end

theorem Closed.yields_readMore (hI : I.Closed e) {s : Span} {ts : List Token} (hs : I.span s)
    (h : I.Tokens ts) :
    I.Yields (Term.readMore e s ts) fun p => (∀ t ∈ p.1, I.term t) ∧ I.span p.2 := by
  rw [Term.readMore]
  refine (hI.settles_isNext _).bind fun more _ => ?_
  split
  · refine (hI.yields_expect (by simp) h).bind fun comma r₁ h₁ hcomma hr₁ => ?_
    have hatEnd : I.Settles (Term.atListEnd e r₁) fun _ => True :=
      hI.settles_peek.map fun _ _ => trivial
    refine hatEnd.bind fun done _ => ?_
    split
    · exact settles_pure ⟨⟨by simp,hI.cover hs hcomma⟩,hr₁⟩
    · refine (hI.yields_readLevel .or hr₁).bind fun t r₂ h₂ ht hr₂ => ?_
      have hspan := hI.cover (hI.cover hs hcomma) (hI.term ht)
      exact (hI.yields_readMore hspan hr₂).bind fun ⟨items,last⟩ _ _ ⟨hitems,hlast⟩ hr₃ =>
        settles_pure ⟨⟨List.forall_mem_cons.mpr ⟨ht,hitems⟩,hlast⟩,hr₃⟩
  · exact settles_pure ⟨⟨by simp,hs⟩,h⟩
termination_by ts.length

theorem Closed.yields_readList (hI : I.Closed e) (h : I.Tokens ts) :
    I.Yields (Term.readList e ts) I.term := by
  refine (hI.yields_readLevel .or h).bind fun first r₁ h₁ hfirst hr₁ => ?_
  refine (hI.settles_isNext _).bind fun more _ => ?_
  split
  · exact (hI.yields_readMore (hI.term hfirst) hr₁).bind fun ⟨items,s⟩ _ _ ⟨hitems,hs⟩ hr₂ =>
      settles_pure ⟨hI.list (List.forall_mem_cons.mpr ⟨hfirst,hitems⟩) hs,hr₂⟩
  · exact settles_pure ⟨hfirst,hr₁⟩

end Inheritance

end Stencil
