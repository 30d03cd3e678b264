import Stencil.Proofs.Grammar.Basic
import Stencil.Proofs.Outcome

set_option autoImplicit false

namespace Stencil

namespace Gives

variable {α : Type} {a : α} {ts rest : List Token}

theorem fewer {x : Except Fault (α × Fewer ts)} (h : Gives x a rest) :
    rest.length < ts.length := h.holds

theorem noMore {x : Except Fault (α × NoMore ts)} (h : Gives x a rest) :
    rest.length ≤ ts.length := h.holds

@[simp] theorem exists_fewer_iff {x : Except Fault (α × Fewer ts)} {p : Prop} :
    (∃ _ : rest.length < ts.length, Gives x a rest ∧ p) ↔ Gives x a rest ∧ p :=
  ⟨fun ⟨_,h⟩ => h,fun h => ⟨h.1.fewer,h⟩⟩

@[simp] theorem exists_noMore_iff {x : Except Fault (α × NoMore ts)} {p : Prop} :
    (∃ _ : rest.length ≤ ts.length, Gives x a rest ∧ p) ↔ Gives x a rest ∧ p :=
  ⟨fun ⟨_,h⟩ => h,fun h => ⟨h.1.noMore,h⟩⟩

end Gives

namespace Ending

variable {e : Ending} {l : Lexeme} {t : Token} {r ts rest : List Token}

@[simp] theorem isNext_cons : e.isNext l (t :: r) = .ok (t.lexeme == l) := rfl

theorem gives_expect {s : Span} :
    Gives (e.expect l ts) s rest ↔ ∃ t, ts = t :: rest ∧ t.lexeme = l ∧ t.span = s := by
  cases ts with
  | nil => simp [expect,expectWith,Except.map]
  | cons t r =>
    by_cases h : t.lexeme = l
    · simp only [expect,expectWith,Except.map,h,if_true,Gives.ok_iff,List.cons.injEq]
      constructor
      · rintro ⟨rfl,rfl⟩
        exact ⟨t,⟨rfl,rfl⟩,h,rfl⟩
      · rintro ⟨t,⟨rfl,rfl⟩,_,rfl⟩
        exact ⟨rfl,rfl⟩
    · simp only [expect,expectWith,Except.map,h,if_false,Gives.error_iff,List.cons.injEq,false_iff]
      rintro ⟨t,⟨rfl,rfl⟩,ht,_⟩
      exact h ht

theorem gives_any : Gives (e.any ts) t rest ↔ ts = t :: rest := by
  cases ts <;> simp [any]

end Ending

namespace Term

variable {e : Ending} {l : Level} {t u : Term} {ts rest : List Token}

theorem gives_readLevel : Gives (readLevel e l ts) t rest ↔
    ∃ left r, Gives (readOperand e l ts) left r ∧ Gives (readChain e l left r) t rest := by
  rw [readLevel]
  simp only [Gives.bind_gives_iff,Gives.pure_iff,Gives.exists_fewer_iff,Gives.exists_noMore_iff,
    exists_eq_right_right,exists_eq_right]

theorem gives_readOperand_of_tighter {k : Level} (h : l.tighter? = some k) :
    Gives (readOperand e l ts) t rest ↔ Gives (readLevel e k ts) t rest := by
  rw [readOperand]
  split
  · simp_all
  · simp_all

theorem gives_readOperand_of_tightest (h : l.tighter? = none) :
    Gives (readOperand e l ts) t rest ↔ Gives (readUnary e ts) t rest := by
  rw [readOperand]
  split
  · simp_all
  · rfl

theorem gives_readChain_nil : Gives (readChain e l t []) u rest ↔
    e.fault = none ∧ u = t ∧ rest = [] := by
  rw [readChain]
  cases h : e.fault <;> simp [Ending.peek,h,Except.map,eq_comm]

theorem gives_readChain_of_operator {o : Token} {op : BinaryOp}
    (h : l.operator? o.lexeme = some op) : Gives (readChain e l t (o :: ts)) u rest ↔
      ∃ right r, Gives (readOperand e l ts) right r ∧
        Gives (readChain e l (.binary op t right (t.span.cover right.span)) r) u rest := by
  rw [readChain]
  simp only [h,Gives.bind_gives_iff,Gives.pure_iff,Gives.exists_fewer_iff,Gives.exists_noMore_iff,
    exists_eq_right_right,exists_eq_right]

theorem gives_readChain_of_none {o : Token} (h : l.operator? o.lexeme = none) :
    Gives (readChain e l t (o :: ts)) u rest ↔ u = t ∧ rest = o :: ts := by
  rw [readChain]
  simp [h,eq_comm]

theorem gives_readUnary_of_operator {o : Token} {op : UnaryOp}
    (h : UnaryOp.ofLexeme? o.lexeme = some op) : Gives (readUnary e (o :: ts)) u rest ↔
      ∃ t, Gives (readUnary e ts) t rest ∧ .unary op t (o.span.cover t.span) = u := by
  rw [readUnary]
  simp only [h,Gives.bind_gives_iff,Gives.pure_iff,Gives.exists_fewer_iff]
  constructor
  · rintro ⟨t,r,ht,rfl,rfl⟩
    exact ⟨t,ht,rfl⟩
  · rintro ⟨t,ht,rfl⟩
    exact ⟨t,rest,ht,rfl,rfl⟩

theorem gives_readUnary_of_none {o : Token} (h : UnaryOp.ofLexeme? o.lexeme = none) :
    Gives (readUnary e (o :: ts)) u rest ↔ Gives (readPostfix e (o :: ts)) u rest := by
  rw [readUnary]
  simp [h]

theorem gives_readPostfix : Gives (readPostfix e ts) u rest ↔
    ∃ t p r, Gives (readPrimary e ts) (t,p) r ∧ Gives (readSuffixes e t p r) u rest := by
  rw [readPostfix]
  simp only [Prod.exists,Gives.bind_gives_iff,Gives.pure_iff,Gives.exists_fewer_iff,
    Gives.exists_noMore_iff,exists_eq_right_right,exists_eq_right]

theorem gives_readMember : Gives (readMember e ts) u rest ↔
    ∃ k l, ts = k :: rest ∧ Grammar.Member k l ∧ .literal l k.span = u := by
  unfold readMember
  rw [Gives.bind_gives_iff]
  simp only [Ending.gives_any]
  constructor
  · rintro ⟨k,r,_,rfl,h⟩
    split at h
    · rename_i n hn
      obtain ⟨rfl,rfl⟩ := Gives.pure_iff.mp h
      exact ⟨k,_,rfl,.name hn,rfl⟩
    · rename_i w hw
      obtain ⟨rfl,rfl⟩ := Gives.pure_iff.mp h
      exact ⟨k,_,rfl,.keyword hw,rfl⟩
    · rename_i digits hd
      obtain ⟨l,hl,h⟩ := Gives.bind_iff.mp h
      obtain ⟨rfl,rfl⟩ := Gives.pure_iff.mp h
      exact ⟨k,l,rfl,.number hd hl,rfl⟩
    · exact absurd h Gives.error_iff
  · rintro ⟨k,l,rfl,hk,rfl⟩
    refine ⟨k,rest,by simp,rfl,?_⟩
    cases hk with
    | name hn => simp [hn]
    | keyword hw => simp [hw]
    | number hd hl =>
      simp only [hd]
      exact Gives.bind_iff.mpr ⟨l,hl,by simp⟩

theorem gives_readSuffixes_nil {p : Bool} : Gives (readSuffixes e t p []) u rest ↔
    e.fault = none ∧ u = t ∧ rest = [] := by
  rw [readSuffixes]
  cases h : e.fault <;> simp [Ending.peek,h,Except.map,eq_comm]

theorem gives_readSuffixes_dot {p : Bool} {o : Token} (h : o.lexeme = .symbol .dot) :
    Gives (readSuffixes e t p (o :: ts)) u rest ↔ ∃ key r, Gives (readMember e ts) key r ∧
      Gives (readSuffixes e (.index t key (t.span.cover key.span)) false r) u rest := by
  rw [readSuffixes.eq_def]
  simp only [h,Gives.bind_gives_iff,Gives.pure_iff,Gives.exists_fewer_iff,Gives.exists_noMore_iff,
    exists_eq_right_right,exists_eq_right]

theorem gives_readSuffixes_lbracket {p : Bool} {o : Token} (h : o.lexeme = .symbol .lbracket) :
    Gives (readSuffixes e t p (o :: ts)) u rest ↔ ∃ s r, Gives (readSubscript e t ts) s r ∧
      Gives (readSuffixes e s false r) u rest := by
  rw [readSuffixes.eq_def]
  simp only [h,Gives.bind_gives_iff,Gives.pure_iff,Gives.exists_fewer_iff,Gives.exists_noMore_iff,
    exists_eq_right_right,exists_eq_right]

theorem gives_readSuffixes_lparen {p : Bool} {o : Token} (h : o.lexeme = .symbol .lparen) :
    Gives (readSuffixes e t p (o :: ts)) u rest ↔ ∃ name args stop r, t = .var name ∧ p = false ∧
      Gives (readItems e .rparen ts) (args,stop) r ∧
      Gives (readSuffixes e (.call name args (name.span.cover stop)) false r) u rest := by
  rw [readSuffixes.eq_def]
  simp only [h]
  split
  · simp only [Prod.exists,Gives.bind_gives_iff,Gives.pure_iff,Gives.exists_fewer_iff,
      Gives.exists_noMore_iff,exists_eq_right_right,exists_eq_right]
    constructor
    · rintro ⟨args,stop,r,h⟩
      exact ⟨_,args,stop,r,rfl,trivial,h⟩
    · rintro ⟨_,args,stop,r,⟨rfl⟩,_,h⟩
      exact ⟨args,stop,r,h⟩
  · rename_i ht
    simp only [Gives.error_iff,false_iff]
    rintro ⟨name,args,stop,r,rfl,rfl,_⟩
    exact ht name rfl rfl

theorem gives_readSuffixes_of_none {p : Bool} {o : Token} (h₁ : o.lexeme ≠ .symbol .dot)
    (h₂ : o.lexeme ≠ .symbol .lbracket) (h₃ : o.lexeme ≠ .symbol .lparen) :
    Gives (readSuffixes e t p (o :: ts)) u rest ↔ u = t ∧ rest = o :: ts := by
  rw [readSuffixes.eq_def]
  simp only [Gives.ok_iff,eq_comm]

theorem gives_readSubscript : Gives (readSubscript e t ts) u rest ↔
    ∃ start r, Gives (readStart e ts) start r ∧
      ((∃ key c, start = some key ∧ r = c :: rest ∧ c.lexeme = .symbol .rbracket ∧
          .index t key (t.span.cover c.span) = u) ∨
        ∃ m r₁ stop r₂ step c, r = m :: r₁ ∧ m.lexeme = .symbol .colon ∧
          Gives (readBound e r₁) stop r₂ ∧ Gives (readStep e r₂) step (c :: rest) ∧
          c.lexeme = .symbol .rbracket ∧ .slice t start stop step (t.span.cover c.span) = u) := by
  rw [readSubscript,Gives.bind_gives_iff]
  constructor
  · rintro ⟨start,r,_,hstart,h⟩
    refine ⟨start,r,hstart,?_⟩
    obtain ⟨b,hb,h⟩ := Gives.bind_iff.mp h
    split at h
    · simp only [Gives.bind_gives_iff,Gives.exists_fewer_iff,Gives.pure_iff] at h
      obtain ⟨_,_,hlast,rfl,rfl⟩ := h
      obtain ⟨c,rfl,hc,rfl⟩ := Ending.gives_expect.mp hlast
      exact .inl ⟨_,c,rfl,rfl,hc,rfl⟩
    · simp only [Gives.bind_gives_iff,Gives.exists_fewer_iff,Gives.exists_noMore_iff,
        Gives.pure_iff] at h
      obtain ⟨_,r₁,hcolon,stop,r₂,hstop,step,r₃,hstep,_,_,hlast,rfl,rfl⟩ := h
      obtain ⟨m,rfl,hm,rfl⟩ := Ending.gives_expect.mp hcolon
      obtain ⟨c,rfl,hc,rfl⟩ := Ending.gives_expect.mp hlast
      exact .inr ⟨m,r₁,stop,r₂,step,c,rfl,hm,hstop,hstep,hc,rfl⟩
  · rintro ⟨start,r,hstart,h⟩
    refine ⟨start,r,hstart.noMore,hstart,Gives.bind_iff.mpr ?_⟩
    obtain ⟨key,c,rfl,rfl,hc,rfl⟩ | ⟨m,r₁,stop,r₂,step,c,rfl,hm,hstop,hstep,hc,rfl⟩ := h
    · refine ⟨false,by simp [hc],?_⟩
      simp only [Gives.bind_gives_iff,Gives.exists_fewer_iff,Gives.pure_iff]
      exact ⟨c.span,rest,Ending.gives_expect.mpr ⟨c,rfl,hc,rfl⟩,rfl,rfl⟩
    · refine ⟨true,by simp [hm],?_⟩
      simp only [Gives.bind_gives_iff,Gives.exists_fewer_iff,Gives.exists_noMore_iff,
        Gives.pure_iff]
      exact ⟨m.span,r₁,Ending.gives_expect.mpr ⟨m,rfl,hm,rfl⟩,stop,r₂,hstop,step,c :: rest,
        hstep,c.span,rest,Ending.gives_expect.mpr ⟨c,rfl,hc,rfl⟩,rfl,rfl⟩

theorem gives_readStart {start : Option Term} : Gives (readStart e ts) start rest ↔
    (e.isNext (.symbol .colon) ts = .ok true ∧ start = none ∧ rest = ts) ∨
      (e.isNext (.symbol .colon) ts = .ok false ∧
        ∃ t, start = some t ∧ Gives (readLevel e .or ts) t rest) := by
  rw [readStart,Gives.bind_iff]
  constructor
  · rintro ⟨b,hb,h⟩
    cases b with
    | true =>
      obtain ⟨rfl,rfl⟩ := Gives.pure_iff.mp h
      exact .inl ⟨hb,rfl,rfl⟩
    | false =>
      obtain ⟨t,r,_,ht,h⟩ := Gives.bind_gives_iff.mp h
      obtain ⟨rfl,rfl⟩ := Gives.pure_iff.mp h
      exact .inr ⟨hb,t,rfl,ht⟩
  · rintro (⟨hb,rfl,rfl⟩ | ⟨hb,t,rfl,ht⟩)
    · exact ⟨true,hb,by simp⟩
    · exact ⟨false,hb,ht.bind fun _ => by simp⟩

theorem gives_readBound {bound : Option Term} : Gives (readBound e ts) bound rest ↔
    (∃ b b', e.isNext (.symbol .colon) ts = .ok b ∧ e.isNext (.symbol .rbracket) ts = .ok b' ∧
      (b || b') = true ∧ bound = none ∧ rest = ts) ∨
      (e.isNext (.symbol .colon) ts = .ok false ∧ e.isNext (.symbol .rbracket) ts = .ok false ∧
        ∃ t, bound = some t ∧ Gives (readLevel e .or ts) t rest) := by
  rw [readBound,Gives.bind_iff]
  simp only [Gives.bind_iff]
  constructor
  · rintro ⟨b,hb,b',hb',h⟩
    split at h
    · rename_i hbb
      obtain ⟨rfl,rfl⟩ := Gives.pure_iff.mp h
      exact .inl ⟨b,b',hb,hb',hbb,rfl,rfl⟩
    · rename_i hbb
      obtain ⟨t,r,_,ht,h⟩ := Gives.bind_gives_iff.mp h
      obtain ⟨rfl,rfl⟩ := Gives.pure_iff.mp h
      simp only [Bool.or_eq_true,not_or,Bool.not_eq_true] at hbb
      obtain ⟨rfl,rfl⟩ := hbb
      exact .inr ⟨hb,hb',t,rfl,ht⟩
  · rintro (⟨b,b',hb,hb',hbb,rfl,rfl⟩ | ⟨hb,hb',t,rfl,ht⟩)
    · exact ⟨b,hb,b',hb',by simp [hbb]⟩
    · exact ⟨false,hb,false,hb',ht.bind fun _ => by simp⟩

theorem gives_readStep {step : Option Term} : Gives (readStep e ts) step rest ↔
    (∃ m r, ts = m :: r ∧ m.lexeme = .symbol .colon ∧ Gives (readBound e r) step rest) ∨
      (e.isNext (.symbol .colon) ts = .ok false ∧ step = none ∧ rest = ts) := by
  rw [readStep,Gives.bind_iff]
  constructor
  · rintro ⟨b,hb,h⟩
    cases b with
    | true =>
      simp only [if_true,Gives.bind_gives_iff,Gives.exists_fewer_iff,Gives.exists_noMore_iff,
        Gives.pure_iff,exists_eq_right_right,exists_eq_right] at h
      obtain ⟨_,r,hcolon,h⟩ := h
      obtain ⟨m,rfl,hm,rfl⟩ := Ending.gives_expect.mp hcolon
      exact .inl ⟨m,r,rfl,hm,h⟩
    | false =>
      obtain ⟨rfl,rfl⟩ := Gives.pure_iff.mp h
      exact .inr ⟨hb,rfl,rfl⟩
  · rintro (⟨m,r,rfl,hm,h⟩ | ⟨hb,rfl,rfl⟩)
    · refine ⟨true,by simp [hm],?_⟩
      simp only [if_true,Gives.bind_gives_iff,Gives.exists_fewer_iff,Gives.exists_noMore_iff,
        Gives.pure_iff,exists_eq_right_right,exists_eq_right]
      exact ⟨m.span,r,Ending.gives_expect.mpr ⟨m,rfl,hm,rfl⟩,h⟩
    · exact ⟨false,hb,by simp⟩

theorem gives_readPrimary {o : Token} {p : Bool} :
    Gives (readPrimary e (o :: ts)) (t,p) rest ↔
      (p = false ∧ rest = ts ∧ ((∃ l, Grammar.Atom o l ∧ .literal l o.span = t) ∨
        ∃ n, o.lexeme = .name n ∧ .var ⟨n,o.span⟩ = t)) ∨
      (p = true ∧ o.lexeme = .symbol .lparen ∧
        ∃ c, Gives (readLevel e .or ts) t (c :: rest) ∧ c.lexeme = .symbol .rparen) ∨
      (p = false ∧ o.lexeme = .symbol .lbracket ∧
        ∃ items stop, Gives (readItems e .rbracket ts) (items,stop) rest ∧
          .list items (o.span.cover stop) = t) := by
  rw [readPrimary]
  constructor
  · intro h
    split at h
    · rename_i digits hd
      obtain ⟨l,hl,h⟩ := Gives.bind_iff.mp h
      obtain ⟨⟨rfl,rfl⟩,rfl⟩ := Gives.pure_iff.mp h
      exact .inl ⟨rfl,rfl,.inl ⟨l,.number hd hl,rfl⟩⟩
    · rename_i body hd
      obtain ⟨s,hs,h⟩ := Gives.bind_iff.mp h
      obtain ⟨⟨rfl,rfl⟩,rfl⟩ := Gives.pure_iff.mp h
      exact .inl ⟨rfl,rfl,.inl ⟨.str s,.string hd hs,rfl⟩⟩
    · rename_i hk
      obtain ⟨⟨rfl,rfl⟩,rfl⟩ := Gives.ok_iff.mp h
      exact .inl ⟨rfl,rfl,.inl ⟨_,.true hk,rfl⟩⟩
    · rename_i hk
      obtain ⟨⟨rfl,rfl⟩,rfl⟩ := Gives.ok_iff.mp h
      exact .inl ⟨rfl,rfl,.inl ⟨_,.false hk,rfl⟩⟩
    · rename_i hk
      obtain ⟨⟨rfl,rfl⟩,rfl⟩ := Gives.ok_iff.mp h
      exact .inl ⟨rfl,rfl,.inl ⟨_,.null hk,rfl⟩⟩
    · exact absurd h Gives.error_iff
    · rename_i n hn
      obtain ⟨⟨rfl,rfl⟩,rfl⟩ := Gives.ok_iff.mp h
      exact .inl ⟨rfl,rfl,.inr ⟨n,hn,rfl⟩⟩
    · rename_i ho
      simp only [Gives.bind_gives_iff,Gives.exists_fewer_iff,Gives.pure_iff] at h
      obtain ⟨u,r,hu,_,_,hlast,⟨rfl,rfl⟩,rfl⟩ := h
      obtain ⟨c,rfl,hc,rfl⟩ := Ending.gives_expect.mp hlast
      exact .inr (.inl ⟨rfl,ho,c,hu,hc⟩)
    · rename_i ho
      simp only [Prod.exists,Gives.bind_gives_iff,Gives.exists_fewer_iff,Gives.pure_iff] at h
      obtain ⟨items,stop,r,hitems,⟨rfl,rfl⟩,rfl⟩ := h
      exact .inr (.inr ⟨rfl,ho,items,stop,hitems,rfl⟩)
    · exact absurd h Gives.error_iff
  · rintro (⟨rfl,rfl,⟨l,hl,rfl⟩ | ⟨n,hn,rfl⟩⟩ | ⟨rfl,ho,c,ht,hc⟩ | ⟨rfl,ho,items,stop,hitems,rfl⟩)
    · cases hl with
      | number hd hl =>
        simp only [hd]
        exact Gives.bind_iff.mpr ⟨l,hl,by simp⟩
      | string hd hs =>
        simp only [hd]
        exact Gives.bind_iff.mpr ⟨_,hs,by simp⟩
      | true hk => simp [hk]
      | false hk => simp [hk]
      | null hk => simp [hk]
    · simp [hn]
    · simp only [ho,Gives.bind_gives_iff,Gives.exists_fewer_iff,Gives.pure_iff]
      exact ⟨t,c :: rest,ht,c.span,rest,Ending.gives_expect.mpr ⟨c,rfl,hc,rfl⟩,rfl,rfl⟩
    · simp only [ho,Prod.exists,Gives.bind_gives_iff,Gives.exists_fewer_iff,Gives.pure_iff]
      exact ⟨items,stop,rest,hitems,rfl,rfl⟩

theorem gives_readItems {close : Symbol} {items : List Term} {stop : Span} :
    Gives (readItems e close ts) (items,stop) rest ↔
      (∃ c, ts = c :: rest ∧ c.lexeme = .symbol close ∧ items = [] ∧ c.span = stop) ∨
      (e.isNext (.symbol close) ts = .ok false ∧ ∃ t r, Gives (readLevel e .or ts) t r ∧
        ((∃ m r₁ more, r = m :: r₁ ∧ m.lexeme = .symbol .comma ∧
            Gives (readItems e close r₁) (more,stop) rest ∧ items = t :: more) ∨
          (∃ c, r = c :: rest ∧ c.lexeme ≠ .symbol .comma ∧ c.lexeme = .symbol close ∧
            c.span = stop ∧ items = [t]))) := by
  rw [readItems,Gives.bind_iff]
  constructor
  · rintro ⟨b,hb,h⟩
    cases b with
    | true =>
      simp only [if_true,Gives.bind_gives_iff,Gives.exists_fewer_iff,Gives.pure_iff] at h
      obtain ⟨_,_,hlast,⟨rfl,rfl⟩,rfl⟩ := h
      obtain ⟨c,rfl,hc,rfl⟩ := Ending.gives_expect.mp hlast
      exact .inl ⟨c,rfl,hc,rfl,rfl⟩
    | false =>
      obtain ⟨t,r,_,ht,h⟩ := Gives.bind_gives_iff.mp h
      refine .inr ⟨hb,t,r,ht,?_⟩
      obtain ⟨b',hb',h⟩ := Gives.bind_iff.mp h
      cases b' with
      | true =>
        simp only [if_true,Prod.exists,Gives.bind_gives_iff,Gives.exists_fewer_iff,
          Gives.pure_iff] at h
        obtain ⟨_,r₁,hcomma,more,_,r₂,hmore,⟨rfl,rfl⟩,rfl⟩ := h
        obtain ⟨m,rfl,hm,rfl⟩ := Ending.gives_expect.mp hcomma
        exact .inl ⟨m,r₁,more,rfl,hm,hmore,rfl⟩
      | false =>
        simp only [Bool.false_eq_true,if_false,Gives.bind_gives_iff,Gives.exists_fewer_iff,
          Gives.pure_iff] at h
        obtain ⟨_,_,hlast,⟨rfl,rfl⟩,rfl⟩ := h
        obtain ⟨c,rfl,hc,rfl⟩ := Ending.gives_expect.mp hlast
        exact .inr ⟨c,rfl,by simpa using hb',hc,rfl,rfl⟩
  · rintro (⟨c,rfl,hc,rfl,rfl⟩ | ⟨hb,t,r,ht,h⟩)
    · refine ⟨true,by simp [hc],?_⟩
      simp only [if_true,Gives.bind_gives_iff,Gives.exists_fewer_iff,Gives.pure_iff]
      exact ⟨c.span,rest,Ending.gives_expect.mpr ⟨c,rfl,hc,rfl⟩,rfl,rfl⟩
    · refine ⟨false,hb,ht.bind fun _ => Gives.bind_iff.mpr ?_⟩
      obtain ⟨m,r₁,more,rfl,hm,hmore,rfl⟩ | ⟨c,rfl,hne,hc,rfl,rfl⟩ := h
      · refine ⟨true,by simp [hm],?_⟩
        simp only [if_true,Prod.exists,Gives.bind_gives_iff,Gives.exists_fewer_iff,Gives.pure_iff]
        exact ⟨m.span,r₁,Ending.gives_expect.mpr ⟨m,rfl,hm,rfl⟩,more,stop,rest,hmore,rfl,rfl⟩
      · refine ⟨false,by simpa using hne,?_⟩
        simp only [Bool.false_eq_true,if_false,Gives.bind_gives_iff,Gives.exists_fewer_iff,
          Gives.pure_iff]
        exact ⟨c.span,rest,Ending.gives_expect.mpr ⟨c,rfl,hc,rfl⟩,rfl,rfl⟩

theorem gives_readMore {first last : Span} {items : List Term} :
    Gives (readMore e first ts) (items,last) rest ↔
      (e.isNext (.symbol .comma) ts = .ok false ∧ items = [] ∧ last = first ∧ rest = ts) ∨
      ∃ m r, ts = m :: r ∧ m.lexeme = .symbol .comma ∧
        ((atListEnd e r = .ok true ∧ items = [] ∧ last = first.cover m.span ∧ rest = r) ∨
          (atListEnd e r = .ok false ∧ ∃ t r₁ more, Gives (readLevel e .or r) t r₁ ∧
            Gives (readMore e ((first.cover m.span).cover t.span) r₁) (more,last) rest ∧
            items = t :: more)) := by
  rw [readMore,Gives.bind_iff]
  constructor
  · rintro ⟨b,hb,h⟩
    cases b with
    | false =>
      obtain ⟨⟨rfl,rfl⟩,rfl⟩ := Gives.pure_iff.mp h
      exact .inl ⟨hb,rfl,rfl,rfl⟩
    | true =>
      obtain ⟨s,r,_,hs,h⟩ := Gives.bind_gives_iff.mp h
      obtain ⟨m,rfl,hm,rfl⟩ := Ending.gives_expect.mp hs
      refine .inr ⟨m,r,rfl,hm,?_⟩
      obtain ⟨b',hb',h⟩ := Gives.bind_iff.mp h
      cases b' with
      | true =>
        obtain ⟨⟨rfl,rfl⟩,rfl⟩ := Gives.pure_iff.mp h
        exact .inl ⟨hb',rfl,rfl,rfl⟩
      | false =>
        simp only [Bool.false_eq_true,if_false,Prod.exists,Gives.bind_gives_iff,
          Gives.exists_fewer_iff,Gives.exists_noMore_iff,Gives.pure_iff] at h
        obtain ⟨t,r₁,ht,more,_,r₂,hmore,⟨rfl,rfl⟩,rfl⟩ := h
        exact .inr ⟨hb',t,r₁,more,ht,hmore,rfl⟩
  · rintro (⟨hb,rfl,rfl,rfl⟩ | ⟨m,r,rfl,hm,h⟩)
    · exact ⟨false,hb,by simp⟩
    · refine ⟨true,by simp [hm],(Ending.gives_expect.mpr ⟨m,rfl,hm,rfl⟩).bind fun _ => ?_⟩
      refine Gives.bind_iff.mpr ?_
      obtain ⟨hb',rfl,rfl,rfl⟩ | ⟨hb',t,r₁,more,ht,hmore,rfl⟩ := h
      · exact ⟨true,hb',by simp⟩
      · refine ⟨false,hb',?_⟩
        simp only [Bool.false_eq_true,if_false,Prod.exists,Gives.bind_gives_iff,
          Gives.exists_fewer_iff,Gives.exists_noMore_iff,Gives.pure_iff]
        exact ⟨t,r₁,ht,more,last,rest,hmore,rfl,rfl⟩

theorem gives_readList : Gives (readList e ts) u rest ↔
    ∃ t r, Gives (readLevel e .or ts) t r ∧
      ((e.isNext (.symbol .comma) r = .ok false ∧ u = t ∧ rest = r) ∨
        (e.isNext (.symbol .comma) r = .ok true ∧ ∃ items span,
          Gives (readMore e t.span r) (items,span) rest ∧ .list (t :: items) span = u)) := by
  unfold readList
  rw [Gives.bind_gives_iff]
  constructor
  · rintro ⟨t,r,_,ht,h⟩
    refine ⟨t,r,ht,?_⟩
    obtain ⟨b,hb,h⟩ := Gives.bind_iff.mp h
    cases b with
    | false =>
      obtain ⟨rfl,rfl⟩ := Gives.pure_iff.mp h
      exact .inl ⟨hb,rfl,rfl⟩
    | true =>
      simp only [if_true,Prod.exists,Gives.bind_gives_iff,Gives.exists_noMore_iff,
        Gives.pure_iff] at h
      obtain ⟨items,span,r₁,hmore,rfl,rfl⟩ := h
      exact .inr ⟨hb,items,span,hmore,rfl⟩
  · rintro ⟨t,r,ht,h⟩
    refine ⟨t,r,ht.fewer,ht,Gives.bind_iff.mpr ?_⟩
    obtain ⟨hb,rfl,rfl⟩ | ⟨hb,items,span,hmore,rfl⟩ := h
    · exact ⟨false,hb,by simp⟩
    · refine ⟨true,hb,?_⟩
      simp only [if_true,Prod.exists,Gives.bind_gives_iff,Gives.exists_noMore_iff,Gives.pure_iff]
      exact ⟨items,span,rest,hmore,rfl,rfl⟩

end Term

end Stencil
