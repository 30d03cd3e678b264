import Stencil.Proofs.Grammar.Reader

set_option autoImplicit false

namespace Stencil.Grammar
open Term

/-- The tokens start with a run of the kind `R`, behind which `rest` is left. -/
def Front (R : List Token → Prop) (ts rest : List Token) : Prop :=
  ∃ us, us ++ rest = ts ∧ R us

theorem Front.nil {R : List Token → Prop} {ts : List Token} (h : R []) : Front R ts ts :=
  ⟨[],rfl,h⟩

theorem Front.imp {R S : List Token → Prop} {ts rest : List Token} (h : Front R ts rest)
    (f : ∀ us, R us → S us) : Front S ts rest := by
  obtain ⟨us,hu,hr⟩ := h
  exact ⟨us,hu,f us hr⟩

/-- What may stand behind a primary term: suffixes, and in front of them the arguments of a bare
name. -/
inductive Tail : Term → (parenthesized : Bool) → List Token → Term → Prop where
  | suffixes {t : Term} {p : Bool} {us : List Token} {ss : List Suffix} :
      Suffixes us ss → Tail t p us (ss.foldl attach t)
  | call {name : Located String} {o c : Token} {ts us : List Token} {args : List Term}
      {ss : List Suffix} :
      o.lexeme = .symbol .lparen → Items ts args → c.lexeme = .symbol .rparen →
      Suffixes us ss →
      Tail (.var name) false (o :: (ts ++ c :: us))
        (ss.foldl attach (.call name args (name.span.cover c.span)))

theorem Tail.suffixes_of_not_var {t u : Term} {p : Bool} {us : List Token} (h : Tail t p us u)
    (ht : ∀ name, t ≠ .var name) : ∃ ss, Suffixes us ss ∧ u = ss.foldl attach t := by
  cases h with
  | suffixes hs => exact ⟨_,hs,rfl⟩
  | call => exact absurd rfl (ht _)

def IsNameToken (us : List Token) (t : Term) (parenthesized : Bool) : Prop :=
  ∀ name, t = .var name → parenthesized = false →
    ∃ f, us = [f] ∧ f.lexeme = .name name.value ∧ f.span = name.span

theorem postfix_of_tail {us vs : List Token} {t u : Term} {p : Bool} (ht : Primary us t)
    (hname : IsNameToken us t p) (hu : Tail t p vs u) : Postfix (us ++ vs) u := by
  cases hu with
  | suffixes hs => exact .primary ht hs
  | @call name o c ts ws args ss ho hargs hc hs =>
    obtain ⟨⟨_,_⟩,rfl,hf,rfl⟩ := hname name rfl rfl
    exact .call hf ho hargs hc hs

theorem Items.cons {m : Token} {ts us : List Token} {t : Term} {items : List Term}
    (ht : Chain .or ts t) (hm : m.lexeme = .symbol .comma) (h : Items us items) :
    Items (ts ++ m :: us) (t :: items) := by
  cases h with
  | none => exact .some ht .nil (.comma hm)
  | some hu hmore hlast => simpa using Items.some ht (.cons hm hu hmore) hlast

theorem Items.single {ts : List Token} {t : Term} (ht : Chain .or ts t) : Items ts [t] := by
  simpa using Items.some ht .nil .none

mutual

theorem readLevel_sound {e : Ending} {l : Level} {ts rest : List Token} {t : Term}
    (h : Gives (readLevel e l ts) t rest) : Front (Chain l · t) ts rest := by
  obtain ⟨left,r,hleft,hchain⟩ := gives_readLevel.mp h
  have := hleft.fewer
  obtain ⟨us,rfl,hus⟩ := readOperand_sound hleft
  obtain ⟨vs,rfl,steps,hvs,rfl⟩ := readChain_sound hchain
  exact ⟨us ++ vs,by simp,.intro hus hvs⟩
termination_by 20 * ts.length + (2 * l.height + 4)

theorem readOperand_sound {e : Ending} {l : Level} {ts rest : List Token} {t : Term}
    (h : Gives (readOperand e l ts) t rest) : Front (Operand l · t) ts rest := by
  cases hl : l.tighter? with
  | some k =>
    have := Level.height_of_tighter? hl
    rw [gives_readOperand_of_tighter hl] at h
    exact (readLevel_sound h).imp fun _ => .tighter (tighter?_eq_some_iff.mp hl)
  | none =>
    rw [gives_readOperand_of_tightest hl] at h
    obtain rfl := tighter?_eq_none_iff.mp hl
    exact (readUnary_sound h).imp fun _ => .unary
termination_by 20 * ts.length + (2 * l.height + 3)

theorem readChain_sound {e : Ending} {l : Level} {left : Term} {ts rest : List Token} {t : Term}
    (h : Gives (readChain e l left ts) t rest) :
    Front (fun us => ∃ steps, Steps l us steps ∧ t = steps.foldl join left) ts rest := by
  match ts with
  | [] =>
    obtain ⟨_,rfl,rfl⟩ := gives_readChain_nil.mp h
    exact .nil ⟨[],.nil,rfl⟩
  | o :: r =>
    cases ho : l.operator? o.lexeme with
    | none =>
      obtain ⟨rfl,rfl⟩ := (gives_readChain_of_none ho).mp h
      exact .nil ⟨[],.nil,rfl⟩
    | some op =>
      obtain ⟨right,r₁,hright,hchain⟩ := (gives_readChain_of_operator ho).mp h
      have := hright.fewer
      have := l.height_le
      obtain ⟨us,rfl,hus⟩ := readOperand_sound hright
      obtain ⟨vs,rfl,steps,hvs,rfl⟩ := readChain_sound hchain
      exact ⟨o :: (us ++ vs),by simp,(op,right) :: steps,
        .cons (operator?_eq_some_iff.mp ho) hus hvs,rfl⟩
termination_by 20 * ts.length

theorem readUnary_sound {e : Ending} {ts rest : List Token} {t : Term}
    (h : Gives (readUnary e ts) t rest) : Front (Unary · t) ts rest := by
  match ts with
  | [] => exact absurd h.fewer (by simp)
  | o :: r =>
    cases ho : UnaryOp.ofLexeme? o.lexeme with
    | none =>
      rw [gives_readUnary_of_none ho] at h
      exact (readPostfix_sound h).imp fun _ => .plain
    | some op =>
      obtain ⟨u,hu,rfl⟩ := (gives_readUnary_of_operator ho).mp h
      obtain ⟨us,rfl,hus⟩ := readUnary_sound hu
      exact ⟨o :: us,by simp,.prefixed (ofLexeme?_eq_some_iff.mp ho) hus⟩
termination_by 20 * ts.length + 2

theorem readPostfix_sound {e : Ending} {ts rest : List Token} {t : Term}
    (h : Gives (readPostfix e ts) t rest) : Front (Postfix · t) ts rest := by
  obtain ⟨u,p,r,hprimary,hsuffixes⟩ := gives_readPostfix.mp h
  have := hprimary.fewer
  obtain ⟨us,rfl,hus,hname⟩ := readPrimary_sound hprimary
  obtain ⟨vs,rfl,hvs⟩ := readSuffixes_sound hsuffixes
  exact ⟨us ++ vs,by simp,postfix_of_tail hus hname hvs⟩
termination_by 20 * ts.length + 1

theorem readSuffixes_sound {e : Ending} {t u : Term} {p : Bool} {ts rest : List Token}
    (h : Gives (readSuffixes e t p ts) u rest) : Front (Tail t p · u) ts rest := by
  match ts with
  | [] =>
    obtain ⟨_,rfl,rfl⟩ := gives_readSuffixes_nil.mp h
    exact .nil (.suffixes .nil)
  | o :: r =>
    by_cases h₁ : o.lexeme = .symbol .dot
    · obtain ⟨key,r₁,hkey,hrest⟩ := (gives_readSuffixes_dot h₁).mp h
      have := hkey.fewer
      obtain ⟨k,l,rfl,hk,rfl⟩ := gives_readMember.mp hkey
      obtain ⟨vs,rfl,hvs⟩ := readSuffixes_sound hrest
      obtain ⟨ss,hss,rfl⟩ := hvs.suffixes_of_not_var (by simp)
      exact ⟨o :: k :: vs,by simp,.suffixes (.member h₁ hk hss)⟩
    by_cases h₂ : o.lexeme = .symbol .lbracket
    · obtain ⟨s,r₁,hs,hrest⟩ := (gives_readSuffixes_lbracket h₂).mp h
      have := hs.fewer
      obtain ⟨us,rfl,x,rfl,hus⟩ := readSubscript_sound hs
      obtain ⟨vs,rfl,hvs⟩ := readSuffixes_sound hrest
      obtain ⟨ss,hss,rfl⟩ := hvs.suffixes_of_not_var (by cases x <;> simp [attach])
      have hsuffixes := hus h₂ hss
      exact ⟨o :: (us ++ vs),by simp,.suffixes hsuffixes⟩
    by_cases h₃ : o.lexeme = .symbol .lparen
    · obtain ⟨name,args,stop,r₁,rfl,rfl,hargs,hrest⟩ := (gives_readSuffixes_lparen h₃).mp h
      have := hargs.fewer
      obtain ⟨_,rfl,ws,c,rfl,hws,hc,rfl⟩ := readItems_sound hargs
      obtain ⟨vs,rfl,hvs⟩ := readSuffixes_sound hrest
      obtain ⟨ss,hss,rfl⟩ := hvs.suffixes_of_not_var (by simp)
      exact ⟨o :: (ws ++ c :: vs),by simp,.call h₃ hws hc hss⟩
    obtain ⟨rfl,rfl⟩ := (gives_readSuffixes_of_none h₁ h₂ h₃).mp h
    exact .nil (.suffixes .nil)
termination_by 20 * ts.length

theorem readSubscript_sound {e : Ending} {container u : Term} {ts rest : List Token}
    (h : Gives (readSubscript e container ts) u rest) :
    Front (fun us => ∃ x, u = attach container x ∧
      ∀ {o : Token} {vs ss}, o.lexeme = .symbol .lbracket → Suffixes vs ss →
        Suffixes (o :: (us ++ vs)) (x :: ss)) ts rest := by
  obtain ⟨start,r,hstart,hend⟩ := gives_readSubscript.mp h
  have := hstart.noMore
  obtain ⟨us,rfl,hus⟩ := readStart_sound hstart
  obtain ⟨key,c,rfl,rfl,hc,rfl⟩ | ⟨m,r₁,stop,r₂,step,c,rfl,hm,hstop,hstep,hc,rfl⟩ := hend
  · cases hus with
    | present hkey =>
      refine ⟨us ++ [c],by simp,.key key c.span,rfl,fun ho hss => ?_⟩
      simpa using Suffixes.index ho hkey hc hss
  · have := hstop.noMore
    obtain ⟨vs,rfl,hvs⟩ := readBound_sound hstop
    obtain ⟨ws,rfl,hws⟩ := readStep_sound hstep
    refine ⟨us ++ m :: (vs ++ (ws ++ [c])),by simp,.slice start stop step c.span,rfl,
      fun ho hss => ?_⟩
    simpa using Suffixes.slice ho hus hm hvs hws hc hss
termination_by 20 * ts.length + 18

theorem readStart_sound {e : Ending} {ts rest : List Token} {start : Option Term}
    (h : Gives (readStart e ts) start rest) : Front (Bound · start) ts rest := by
  obtain ⟨_,rfl,rfl⟩ | ⟨_,t,rfl,ht⟩ := gives_readStart.mp h
  · exact .nil .absent
  · exact (readLevel_sound ht).imp fun _ => .present
termination_by 20 * ts.length + 17

theorem readBound_sound {e : Ending} {ts rest : List Token} {bound : Option Term}
    (h : Gives (readBound e ts) bound rest) : Front (Bound · bound) ts rest := by
  obtain ⟨_,_,_,_,_,rfl,rfl⟩ | ⟨_,_,t,rfl,ht⟩ := gives_readBound.mp h
  · exact .nil .absent
  · exact (readLevel_sound ht).imp fun _ => .present
termination_by 20 * ts.length + 16

theorem readStep_sound {e : Ending} {ts rest : List Token} {step : Option Term}
    (h : Gives (readStep e ts) step rest) : Front (Stride · step) ts rest := by
  obtain ⟨m,r,rfl,hm,hbound⟩ | ⟨_,rfl,rfl⟩ := gives_readStep.mp h
  · obtain ⟨us,rfl,hus⟩ := readBound_sound hbound
    exact ⟨m :: us,by simp,.present hm hus⟩
  · exact .nil .absent
termination_by 20 * ts.length + 17

theorem readPrimary_sound {e : Ending} {ts rest : List Token} {t : Term} {p : Bool}
    (h : Gives (readPrimary e ts) (t,p) rest) :
    Front (fun us => Primary us t ∧ IsNameToken us t p) ts rest := by
  match ts with
  | [] => exact absurd h.fewer (by simp)
  | o :: r =>
    obtain ⟨rfl,rfl,⟨l,hl,rfl⟩ | ⟨n,hn,rfl⟩⟩ | ⟨rfl,ho,c,ht,hc⟩ |
      ⟨rfl,ho,items,stop,hitems,rfl⟩ := gives_readPrimary.mp h
    · exact ⟨[o],rfl,.literal hl,by simp [IsNameToken]⟩
    · exact ⟨[o],rfl,.name hn,by rintro _ ⟨rfl⟩ _; exact ⟨o,rfl,hn,rfl⟩⟩
    · obtain ⟨us,rfl,hus⟩ := readLevel_sound ht
      exact ⟨o :: (us ++ [c]),by simp,.parens ho hus hc,by simp [IsNameToken]⟩
    · obtain ⟨_,rfl,ws,c,rfl,hws,hc,rfl⟩ := readItems_sound hitems
      exact ⟨o :: (ws ++ [c]),by simp,.list ho hws hc,by simp [IsNameToken]⟩
termination_by 20 * ts.length

theorem readItems_sound {e : Ending} {close : Symbol} {ts rest : List Token}
    {items : List Term} {stop : Span} (h : Gives (readItems e close ts) (items,stop) rest) :
    Front (fun us => ∃ ws c, us = ws ++ [c] ∧ Items ws items ∧ c.lexeme = .symbol close ∧
      c.span = stop) ts rest := by
  obtain ⟨c,rfl,hc,rfl,rfl⟩ | ⟨_,t,r,ht,hend⟩ := gives_readItems.mp h
  · exact ⟨[c],rfl,[],c,rfl,.none,hc,rfl⟩
  have := ht.fewer
  obtain ⟨us,rfl,hus⟩ := readLevel_sound ht
  obtain ⟨m,r₁,more,rfl,hm,hmore,rfl⟩ | ⟨c,rfl,_,hc,rfl,rfl⟩ := hend
  · obtain ⟨_,rfl,ws,c,rfl,hws,hc,rfl⟩ := readItems_sound hmore
    exact ⟨us ++ m :: (ws ++ [c]),by simp,us ++ m :: ws,c,by simp,.cons hus hm hws,hc,rfl⟩
  · exact ⟨us ++ [c],by simp,us,c,rfl,.single hus,hc,rfl⟩
termination_by 20 * ts.length + 16

end

def Spread (first : Span) (us : List Token) (items : List Term) (span : Span) : Prop :=
  ∃ ms vs more last, us = ms ++ vs ∧ More ms more ∧ Trailing vs last ∧
    items = more.map (·.2) ∧ span = spread first more last

theorem Spread.cons {first span : Span} {m : Token} {ts us : List Token} {t : Term}
    {items : List Term} (hm : m.lexeme = .symbol .comma) (ht : Chain .or ts t)
    (h : Spread ((first.cover m.span).cover t.span) us items span) :
    Spread first (m :: (ts ++ us)) (t :: items) span := by
  obtain ⟨ms,vs,more,last,rfl,hmore,hlast,rfl,rfl⟩ := h
  exact ⟨m :: (ts ++ ms),vs,(m.span,t) :: more,last,by simp,.cons hm ht hmore,hlast,rfl,rfl⟩

theorem readMore_sound {e : Ending} {first last : Span} {ts rest : List Token}
    {items : List Term} (h : Gives (readMore e first ts) (items,last) rest) :
    Front (Spread first · items last) ts rest := by
  obtain ⟨_,rfl,rfl,rfl⟩ | ⟨m,r,rfl,hm,hend⟩ := gives_readMore.mp h
  · exact .nil ⟨[],[],[],none,rfl,.nil,.none,rfl,rfl⟩
  obtain ⟨_,rfl,rfl,rfl⟩ | ⟨_,t,r₁,more,ht,hmore,rfl⟩ := hend
  · exact ⟨[m],rfl,[],[m],[],some m.span,rfl,.nil,.comma hm,rfl,rfl⟩
  have := ht.fewer
  obtain ⟨us,rfl,hus⟩ := readLevel_sound ht
  obtain ⟨vs,rfl,hvs⟩ := readMore_sound hmore
  exact ⟨m :: (us ++ vs),by simp,.cons hm hus hvs⟩
termination_by ts.length

theorem readMore_takes_comma {e : Ending} {first last : Span} {ts rest : List Token}
    {items : List Term} (h : Gives (readMore e first ts) (items,last) rest)
    (hcomma : e.isNext (.symbol .comma) ts = .ok true) : rest.length < ts.length := by
  obtain ⟨hnot,_⟩ | ⟨m,r,rfl,_,⟨_,_,_,rfl⟩ | ⟨_,t,r₁,more,ht,hmore,_⟩⟩ := gives_readMore.mp h
  · simp [hcomma] at hnot
  · simp
  · have := ht.fewer
    have := hmore.noMore
    simp only [List.length_cons]
    omega

theorem readList_sound {e : Ending} {ts rest : List Token} {t : Term}
    (h : Gives (readList e ts) t rest) : Front (Whole · t) ts rest := by
  obtain ⟨u,r,hu,hend⟩ := gives_readList.mp h
  obtain ⟨us,rfl,hus⟩ := readLevel_sound hu
  obtain ⟨_,rfl,rfl⟩ | ⟨hnext,items,span,hmore,rfl⟩ := hend
  · exact ⟨us,rfl,.single hus⟩
  have htaken := readMore_takes_comma hmore hnext
  obtain ⟨_,rfl,ms,vs,more,last,rfl,hms,hvs,rfl,rfl⟩ := readMore_sound hmore
  refine ⟨us ++ (ms ++ vs),by simp,.several hus hms hvs fun hnil => ?_⟩
  simp [hnil] at htaken

end Stencil.Grammar
