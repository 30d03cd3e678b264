import Stencil.Proofs.Grammar.Reader

/-!
What is derivable is read: each reader of terms takes a whole run of the grammar, provided that what
stands behind the run cannot go on with it. One token is enough to see that.
-/

set_option autoImplicit false

namespace Stencil

def Lexeme.closesTerm : Lexeme → Bool
  | .closing _ | .symbol .rparen | .symbol .rbracket | .symbol .comma | .symbol .colon => true
  | _ => false

def Lexeme.startsSuffix : Lexeme → Bool
  | .symbol .dot | .symbol .lbracket | .symbol .lparen => true
  | _ => false

namespace Level

theorem startsSuffix_of_operator? {l : Level} {x : Lexeme} {op : BinaryOp}
    (h : l.operator? x = some op) : x.startsSuffix = false := by
  unfold operator? at h
  split at h <;> first | rfl | simp at h

theorem operator?_of_ne {l k : Level} {x : Lexeme} {op : BinaryOp}
    (h : l.operator? x = some op) (hne : k ≠ l) : k.operator? x = none := by
  unfold operator? at h
  split at h <;> (cases k <;> simp_all [operator?])

theorem operator?_of_closesTerm {l : Level} {x : Lexeme} (h : x.closesTerm = true) :
    l.operator? x = none := by
  unfold Lexeme.closesTerm at h
  split at h <;> first | (cases l <;> rfl) | simp at h

end Level

theorem Lexeme.startsSuffix_of_closesTerm {x : Lexeme} (h : x.closesTerm = true) :
    x.startsSuffix = false := by
  unfold closesTerm at h
  split at h <;> first | rfl | simp at h

theorem UnaryOp.closesTerm_of_ofLexeme? {x : Lexeme} {op : UnaryOp}
    (h : ofLexeme? x = some op) : x.closesTerm = false := by
  unfold ofLexeme? at h
  split at h <;> first | rfl | simp at h

namespace Grammar
open Term

/-- What stands behind a run: no suffix, and no operator of one of the `n` tightest levels. -/
def Ends (n : Nat) (rest : List Token) : Prop :=
  ∃ c r, rest = c :: r ∧ c.lexeme.startsSuffix = false ∧
    ∀ k : Level, k.height < n → k.operator? c.lexeme = none

namespace Ends

variable {m n : Nat} {l : Level} {c : Token} {r rest : List Token}

theorem mono (h : Ends n rest) (hle : m ≤ n) : Ends m rest := by
  obtain ⟨c,r,rfl,hsuffix,hops⟩ := h
  exact ⟨c,r,rfl,hsuffix,fun k hk => hops k (by omega)⟩

theorem of_closesTerm {x : Lexeme} (h : c.lexeme = x) (hx : x.closesTerm = true) :
    Ends n (c :: r) := by
  subst h
  exact ⟨c,r,rfl,Lexeme.startsSuffix_of_closesTerm hx,fun _ _ => Level.operator?_of_closesTerm hx⟩

theorem of_operator? {op : BinaryOp} (h : l.operator? c.lexeme = some op) :
    Ends l.height (c :: r) := by
  refine ⟨c,r,rfl,Level.startsSuffix_of_operator? h,fun k hk => Level.operator?_of_ne h ?_⟩
  rintro rfl
  omega

end Ends

theorem Steps.ends {l : Level} {us rest : List Token} {steps : List (BinaryOp × Term)}
    (h : Steps l us steps) (hrest : Ends l.height rest) : Ends l.height (us ++ rest) := by
  cases h with
  | nil => exact hrest
  | cons ho _ _ => exact .of_operator? (operator?_eq_some_iff.mpr ho)

def Opens (us : List Token) : Prop :=
  ∃ o r, us = o :: r ∧ o.lexeme.closesTerm = false

theorem Opens.append {us vs : List Token} (h : Opens us) : Opens (us ++ vs) := by
  obtain ⟨o,r,rfl,ho⟩ := h
  exact ⟨o,r ++ vs,rfl,ho⟩

theorem Opens.isNext {e : Ending} {us : List Token} (h : Opens us) {x : Lexeme}
    (hx : x.closesTerm = true) : e.isNext x us = .ok false := by
  obtain ⟨o,r,rfl,ho⟩ := h
  have hne : o.lexeme ≠ x := by
    rintro rfl
    simp [hx] at ho
  simpa using hne

theorem closesTerm_of_atom {o : Token} {l : Literal} (h : Atom o l) : o.lexeme.closesTerm = false := by
  cases h with
  | number ho _ => simp [ho,Lexeme.closesTerm]
  | string ho _ => simp [ho,Lexeme.closesTerm]
  | true ho => simp [ho,Lexeme.closesTerm]
  | false ho => simp [ho,Lexeme.closesTerm]
  | null ho => simp [ho,Lexeme.closesTerm]

theorem Primary.opens {us : List Token} {t : Term} (h : Primary us t) : Opens us := by
  cases h with
  | literal ha => exact ⟨_,_,rfl,closesTerm_of_atom ha⟩
  | name ho => exact ⟨_,_,rfl,by simp [ho,Lexeme.closesTerm]⟩
  | parens ho _ _ => exact ⟨_,_,rfl,by simp [ho,Lexeme.closesTerm]⟩
  | list ho _ _ => exact ⟨_,_,rfl,by simp [ho,Lexeme.closesTerm]⟩

theorem Postfix.opens {us : List Token} {t : Term} (h : Postfix us t) : Opens us := by
  cases h with
  | primary ht _ => exact ht.opens.append
  | call ho _ _ _ _ => exact ⟨_,_,rfl,by simp [ho,Lexeme.closesTerm]⟩

theorem Unary.opens {us : List Token} {t : Term} (h : Unary us t) : Opens us := by
  cases h with
  | prefixed ho _ =>
    exact ⟨_,_,rfl,UnaryOp.closesTerm_of_ofLexeme? (ofLexeme?_eq_some_iff.mpr ho)⟩
  | plain ht => exact ht.opens

mutual

theorem Chain.opens {l : Level} {us : List Token} {t : Term} : Chain l us t → Opens us
  | .intro ht _ => ht.opens.append

theorem Operand.opens {l : Level} {us : List Token} {t : Term} : Operand l us t → Opens us
  | .tighter _ ht => ht.opens
  | .unary ht => ht.opens

end

theorem Primary.ofLexeme? {us : List Token} {t : Term} (h : Primary us t) :
    ∃ o r, us = o :: r ∧ UnaryOp.ofLexeme? o.lexeme = none := by
  cases h with
  | literal ha => cases ha <;> exact ⟨_,_,rfl,by simp [*,UnaryOp.ofLexeme?]⟩
  | name ho => exact ⟨_,_,rfl,by simp [UnaryOp.ofLexeme?,ho]⟩
  | parens ho _ _ => exact ⟨_,_,rfl,by simp [UnaryOp.ofLexeme?,ho]⟩
  | list ho _ _ => exact ⟨_,_,rfl,by simp [UnaryOp.ofLexeme?,ho]⟩

theorem Postfix.ofLexeme? {us : List Token} {t : Term} (h : Postfix us t) :
    ∃ o r, us = o :: r ∧ UnaryOp.ofLexeme? o.lexeme = none := by
  cases h with
  | primary ht _ =>
    obtain ⟨o,r,rfl,ho⟩ := ht.ofLexeme?
    exact ⟨o,_,rfl,ho⟩
  | call hf _ _ _ _ => exact ⟨_,_,rfl,by simp [UnaryOp.ofLexeme?,hf]⟩

/-- The reader `x` takes the run `us` for `a`, if `n` levels of operators have ended behind it. -/
def Reads (read : (ts : List Token) → Except Fault (Term × Fewer ts)) (n : Nat) (us : List Token)
    (t : Term) : Prop :=
  ∀ {rest}, Ends n rest → Gives (read (us ++ rest)) t rest

def EndsBound (rest : List Token) : Prop :=
  ∃ c r, rest = c :: r ∧ (c.lexeme = .symbol .colon ∨ c.lexeme = .symbol .rbracket)

theorem EndsBound.ends {n : Nat} {rest : List Token} (h : EndsBound rest) : Ends n rest := by
  obtain ⟨c,r,rfl,hc | hc⟩ := h <;> exact .of_closesTerm hc rfl

theorem Stride.endsBound {us rest : List Token} {step : Option Term} {c : Token}
    (h : Stride us step) (hc : c.lexeme = .symbol .rbracket) : EndsBound (us ++ c :: rest) := by
  cases h with
  | absent => exact ⟨c,rest,rfl,.inr hc⟩
  | present hm _ => exact ⟨_,_,rfl,.inl hm⟩

def Closer (c : Token) (close : Symbol) : Prop :=
  c.lexeme = .symbol close ∧ (close = .rparen ∨ close = .rbracket)

theorem Closer.closesTerm {c : Token} {close : Symbol} (h : Closer c close) :
    (Lexeme.symbol close).closesTerm = true := by
  obtain ⟨_,rfl | rfl⟩ := h <;> rfl

theorem Closer.ends {n : Nat} {c : Token} {rest : List Token} {close : Symbol}
    (h : Closer c close) : Ends n (c :: rest) :=
  .of_closesTerm h.1 h.closesTerm

theorem Closer.ne_comma {c : Token} {close : Symbol} (h : Closer c close) :
    c.lexeme ≠ .symbol .comma := by
  obtain ⟨hc,rfl | rfl⟩ := h <;> simp [hc]

theorem gives_readItems_of_more_nil {e : Ending} {close : Symbol} {c : Token}
    {ts vs rest : List Token} {t : Term} {last : Option Span} (hc : Closer c close)
    (hopens : Opens ts) (ht : Reads (readLevel e .or) 6 ts t) (hlast : Trailing vs last) :
    Gives (readItems e close (ts ++ (vs ++ c :: rest))) ([t],c.span) rest := by
  have hnext : e.isNext (.symbol close) (ts ++ (vs ++ c :: rest)) = .ok false :=
    hopens.append.isNext hc.closesTerm
  cases hlast with
  | none =>
    exact gives_readItems.mpr
      (.inr ⟨hnext,t,c :: rest,ht hc.ends,.inr ⟨c,rfl,hc.ne_comma,hc.1,rfl,rfl⟩⟩)
  | @comma m hm =>
    have hends : Ends 6 (m :: c :: rest) := .of_closesTerm hm rfl
    have hempty : Gives (readItems e close (c :: rest)) ([],c.span) rest :=
      gives_readItems.mpr (.inl ⟨c,rfl,hc.1,rfl,rfl⟩)
    exact gives_readItems.mpr
      (.inr ⟨hnext,t,m :: c :: rest,ht hends,.inl ⟨m,_,[],rfl,hm,hempty,rfl⟩⟩)

mutual

theorem Chain.reads {e : Ending} {l : Level} {us : List Token} {t : Term} :
    Chain l us t → Reads (readLevel e l) (l.height + 1) us t
  | .intro ht hs => fun hrest => by
    rw [List.append_assoc]
    have hends := hs.ends (hrest.mono (by omega))
    exact gives_readLevel.mpr ⟨_,_,ht.reads hends,hs.reads hrest⟩

theorem Operand.reads {e : Ending} {l : Level} {us : List Token} {t : Term} :
    Operand l us t → Reads (readOperand e l) l.height us t
  | .tighter hl ht => fun hrest => by
    have hl := tighter?_eq_some_iff.mpr hl
    rw [gives_readOperand_of_tighter hl]
    exact ht.reads (by rwa [Level.height_of_tighter? hl])
  | .unary ht => fun hrest => by
    rw [gives_readOperand_of_tightest rfl]
    exact ht.reads (hrest.mono (Nat.zero_le _))

theorem Steps.reads {e : Ending} {l : Level} {us rest : List Token}
    {steps : List (BinaryOp × Term)} {left : Term} :
    Steps l us steps → Ends (l.height + 1) rest →
      Gives (readChain e l left (us ++ rest)) (steps.foldl join left) rest
  | .nil, hrest => by
    obtain ⟨c,r,rfl,_,hops⟩ := hrest
    exact (gives_readChain_of_none (hops l (by omega))).mpr ⟨rfl,rfl⟩
  | .cons ho ht hs, hrest => by
    rw [List.cons_append,List.append_assoc,
      gives_readChain_of_operator (operator?_eq_some_iff.mpr ho)]
    have hends := hs.ends (hrest.mono (by omega))
    exact ⟨_,_,ht.reads hends,hs.reads hrest⟩

theorem Unary.reads {e : Ending} {us : List Token} {t : Term} :
    Unary us t → Reads (readUnary e) 0 us t
  | .prefixed ho ht => fun hrest => by
    rw [List.cons_append,gives_readUnary_of_operator (ofLexeme?_eq_some_iff.mpr ho)]
    exact ⟨_,ht.reads hrest,rfl⟩
  | .plain ht => fun hrest => by
    have hgives := ht.reads (e := e) hrest
    obtain ⟨o,r,rfl,ho⟩ := ht.ofLexeme?
    exact (gives_readUnary_of_none ho).mpr hgives

theorem Postfix.reads {e : Ending} {us : List Token} {t : Term} :
    Postfix us t → Reads (readPostfix e) 0 us t
  | .primary ht hs => fun hrest => by
    obtain ⟨p,hp⟩ := ht.reads
    rw [List.append_assoc]
    exact gives_readPostfix.mpr ⟨_,p,_,hp,hs.reads hrest⟩
  | .call hf ho hargs hc hs => fun hrest => by
    rw [List.cons_append,List.cons_append,List.append_assoc,List.cons_append]
    refine gives_readPostfix.mpr ⟨_,false,_,
      gives_readPrimary.mpr (.inl ⟨rfl,rfl,.inr ⟨_,hf,rfl⟩⟩),?_⟩
    exact (gives_readSuffixes_lparen ho).mpr
      ⟨_,_,_,_,rfl,rfl,hargs.reads ⟨hc,.inl rfl⟩,hs.reads hrest⟩

theorem Suffixes.reads {e : Ending} {us rest : List Token} {ss : List Suffix} {t : Term}
    {p : Bool} : Suffixes us ss → Ends 0 rest →
      Gives (readSuffixes e t p (us ++ rest)) (ss.foldl attach t) rest
  | .nil, hrest => by
    obtain ⟨c,r,rfl,hsuffix,_⟩ := hrest
    refine (gives_readSuffixes_of_none ?_ ?_ ?_).mpr ⟨rfl,rfl⟩ <;>
      (intro h; simp [h,Lexeme.startsSuffix] at hsuffix)
  | .member hd hk hs, hrest =>
    (gives_readSuffixes_dot hd).mpr
      ⟨_,_,gives_readMember.mpr ⟨_,_,rfl,hk,rfl⟩,hs.reads hrest⟩
  | .index ho ht hc hs, hrest => by
    rw [List.cons_append,List.append_assoc,List.cons_append]
    refine (gives_readSuffixes_lbracket ho).mpr ⟨_,_,gives_readSubscript.mpr ?_,hs.reads hrest⟩
    exact ⟨_,_,gives_readStart.mpr (.inr ⟨ht.opens.append.isNext rfl,_,rfl,
      ht.reads (.of_closesTerm hc rfl)⟩),.inl ⟨_,_,rfl,rfl,hc,rfl⟩⟩
  | .slice ho hstart hm hstop hstep hc hs, hrest => by
    rw [List.cons_append,List.append_assoc,List.cons_append,List.append_assoc,List.append_assoc,
      List.cons_append]
    refine (gives_readSuffixes_lbracket ho).mpr ⟨_,_,gives_readSubscript.mpr ?_,hs.reads hrest⟩
    exact ⟨_,_,hstart.reads_start hm,.inr ⟨_,_,_,_,_,_,rfl,hm,hstop.reads (hstep.endsBound hc),
      hstep.reads hc,hc,rfl⟩⟩

theorem Bound.reads_start {e : Ending} {us rest : List Token} {bound : Option Term} {m : Token} :
    Bound us bound → m.lexeme = .symbol .colon →
      Gives (readStart e (us ++ m :: rest)) bound (m :: rest)
  | .absent, hm => gives_readStart.mpr (.inl ⟨by simp [hm],rfl,rfl⟩)
  | .present ht, hm =>
    gives_readStart.mpr (.inr ⟨ht.opens.append.isNext rfl,_,rfl,
      ht.reads (.of_closesTerm hm rfl)⟩)

theorem Bound.reads {e : Ending} {us rest : List Token} {bound : Option Term} :
    Bound us bound → EndsBound rest → Gives (readBound e (us ++ rest)) bound rest
  | .absent, hrest => by
    obtain ⟨c,r,rfl,hc⟩ := hrest
    refine gives_readBound.mpr (.inl ⟨_,_,Ending.isNext_cons,Ending.isNext_cons,?_,rfl,rfl⟩)
    simpa using hc
  | .present ht, hrest =>
    gives_readBound.mpr (.inr ⟨ht.opens.append.isNext rfl,ht.opens.append.isNext rfl,_,rfl,
      ht.reads hrest.ends⟩)

theorem Stride.reads {e : Ending} {us rest : List Token} {step : Option Term} {c : Token} :
    Stride us step → c.lexeme = .symbol .rbracket →
      Gives (readStep e (us ++ c :: rest)) step (c :: rest)
  | .absent, hc => gives_readStep.mpr (.inr ⟨by simp [hc],rfl,rfl⟩)
  | .present hm ht, hc => gives_readStep.mpr (.inl ⟨_,_,rfl,hm,ht.reads ⟨_,_,rfl,.inr hc⟩⟩)

theorem Primary.reads {e : Ending} {us rest : List Token} {t : Term} :
    Primary us t → ∃ p, Gives (readPrimary e (us ++ rest)) (t,p) rest
  | .literal ha => ⟨false,gives_readPrimary.mpr (.inl ⟨rfl,rfl,.inl ⟨_,ha,rfl⟩⟩)⟩
  | .name ho => ⟨false,gives_readPrimary.mpr (.inl ⟨rfl,rfl,.inr ⟨_,ho,rfl⟩⟩)⟩
  | .parens ho ht hc => by
    rw [List.cons_append,List.append_assoc,List.singleton_append]
    exact ⟨true,gives_readPrimary.mpr (.inr (.inl
      ⟨rfl,ho,_,ht.reads (.of_closesTerm hc rfl),hc⟩))⟩
  | .list ho hitems hc => by
    rw [List.cons_append,List.append_assoc,List.singleton_append]
    exact ⟨false,gives_readPrimary.mpr (.inr (.inr
      ⟨rfl,ho,_,_,hitems.reads ⟨hc,.inr rfl⟩,rfl⟩))⟩

theorem Items.reads {e : Ending} {us rest : List Token} {items : List Term} {close : Symbol}
    {c : Token} : Items us items → Closer c close →
      Gives (readItems e close (us ++ c :: rest)) (items,c.span) rest
  | .none, hc => gives_readItems.mpr (.inl ⟨c,rfl,hc.1,rfl,rfl⟩)
  | .some ht hmore hlast, hc => by
    rw [List.append_assoc,List.append_assoc]
    exact hmore.reads hlast hc ht.opens ht.reads

theorem More.reads {e : Ending} {us vs rest : List Token} {more : List (Span × Term)}
    {last : Option Span} {close : Symbol} {c : Token} {ts : List Token} {t : Term} :
    More us more → Trailing vs last → Closer c close → Opens ts →
      Reads (readLevel e .or) 6 ts t →
      Gives (readItems e close (ts ++ (us ++ (vs ++ c :: rest)))) (t :: more.map (·.2),c.span) rest
  | .nil, hlast, hc, hopens, ht => gives_readItems_of_more_nil hc hopens ht hlast
  | .cons hm hu hmore, hlast, hc, hopens, ht => by
    rw [List.cons_append,List.append_assoc]
    refine gives_readItems.mpr (.inr ⟨hopens.append.isNext hc.closesTerm,t,_,
      ht (.of_closesTerm hm rfl),.inl ⟨_,_,_,rfl,hm,?_,rfl⟩⟩)
    exact hmore.reads hlast hc hu.opens hu.reads

end

def EndsRegion (rest : List Token) : Prop :=
  ∃ c r, rest = c :: r ∧ (c.lexeme = .closing .expression ∨ c.lexeme = .closing .block)

theorem EndsRegion.ends {n : Nat} {rest : List Token} (h : EndsRegion rest) : Ends n rest := by
  obtain ⟨c,r,rfl,hc | hc⟩ := h <;> exact .of_closesTerm hc rfl

theorem EndsRegion.isNext_comma {e : Ending} {rest : List Token} (h : EndsRegion rest) :
    e.isNext (.symbol .comma) rest = .ok false := by
  obtain ⟨c,r,rfl,hc | hc⟩ := h <;> simp [hc]

theorem EndsRegion.atListEnd {e : Ending} {rest : List Token} (h : EndsRegion rest) :
    atListEnd e rest = .ok true := by
  obtain ⟨c,r,rfl,hc | hc⟩ := h <;> simp [Term.atListEnd,Ending.peek,Except.map,hc]

theorem Opens.atListEnd {e : Ending} {us : List Token} (h : Opens us) :
    atListEnd e us = .ok false := by
  obtain ⟨o,r,rfl,ho⟩ := h
  unfold Term.atListEnd Ending.peek Except.map
  simp only
  split <;> simp_all [Lexeme.closesTerm]

theorem Trailing.reads {e : Ending} {first : Span} {vs rest : List Token} {last : Option Span}
    (h : Trailing vs last) (hrest : EndsRegion rest) :
    Gives (readMore e first (vs ++ rest)) ([],spread first [] last) rest := by
  cases h with
  | none => exact gives_readMore.mpr (.inl ⟨hrest.isNext_comma,rfl,rfl,rfl⟩)
  | comma hm => exact gives_readMore.mpr (.inr ⟨_,_,rfl,hm,.inl ⟨hrest.atListEnd,rfl,rfl,rfl⟩⟩)

theorem More.ends {us vs rest : List Token} {more : List (Span × Term)} {last : Option Span}
    (h : More us more) (hlast : Trailing vs last) (hrest : EndsRegion rest) :
    Ends 6 (us ++ (vs ++ rest)) := by
  cases h with
  | nil =>
    cases hlast with
    | none => exact hrest.ends
    | comma hm => exact .of_closesTerm hm rfl
  | cons hm _ _ => exact .of_closesTerm hm rfl

theorem More.reads_spread {e : Ending} {us vs rest : List Token} {more : List (Span × Term)}
    {last : Option Span} {first : Span} (hlast : Trailing vs last) (hrest : EndsRegion rest) :
    More us more →
      Gives (readMore e first (us ++ (vs ++ rest))) (more.map (·.2),spread first more last) rest
  | .nil => hlast.reads hrest
  | .cons hm hu hmore => by
    rw [List.cons_append,List.append_assoc]
    exact gives_readMore.mpr (.inr ⟨_,_,rfl,hm,.inr ⟨hu.opens.append.atListEnd,_,_,_,
      hu.reads (hmore.ends hlast hrest),hmore.reads_spread hlast hrest,rfl⟩⟩)

theorem Whole.reads {e : Ending} {us rest : List Token} {t : Term} (h : Whole us t)
    (hrest : EndsRegion rest) : Gives (readList e (us ++ rest)) t rest := by
  cases h with
  | single ht =>
    exact gives_readList.mpr ⟨_,_,ht.reads hrest.ends,.inl ⟨hrest.isNext_comma,rfl,rfl⟩⟩
  | several ht hmore hlast hne =>
    rw [List.append_assoc,List.append_assoc]
    refine gives_readList.mpr ⟨_,_,ht.reads (hmore.ends hlast hrest),.inr ⟨?_,_,_,
      hmore.reads_spread hlast hrest,rfl⟩⟩
    cases hmore with
    | nil =>
      cases hlast with
      | none => exact absurd rfl hne
      | comma hm => simp [hm]
    | cons hm _ _ => simp [hm]

end Grammar

end Stencil
