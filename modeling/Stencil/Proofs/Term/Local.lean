import Stencil.Proofs.Grammar.Echo

/-!
Readers look no further than the tokens of their region: two readings of the same tokens up to a
closing delimiter go the same way, whatever stands behind that delimiter, and so do two readings up
to the same fault of the scan.
-/

set_option autoImplicit false

namespace Stencil

def Fault.InStep (f : Fault) : Prop :=
  match f.cause with
  | .unexpectedEnd _ => False
  | .unexpected wanted _ => wanted ≠ "template"
  | _ => True

/-- Two sequences of tokens are the same up to a closing delimiter with `rest` and `rest'` behind it,
or up to their end, where two faults stopped the scans that are `Met` together. -/
inductive Abreast (Met : Fault → Fault → Prop) (e e' : Ending) (rest rest' : List Token) :
    List Token → List Token → Prop where
  | closed {c : Token} {region : Region} : c.lexeme = .closing region →
      Abreast Met e e' rest rest' (c :: rest) (c :: rest')
  | cut {f f' : Fault} : e.fault = some f → e'.fault = some f' → Met f f' →
      Abreast Met e e' rest rest' [] []
  | next {t : Token} {ts ts' : List Token} : (∀ region, t.lexeme ≠ .closing region) →
      Abreast Met e e' rest rest' ts ts' → Abreast Met e e' rest rest' (t :: ts) (t :: ts')

/-- Two readings give the same and leave tokens that are related, or fail in the same way, or meet
the faults behind the last token. -/
inductive Alike (Met : Fault → Fault → Prop) {α : Type} {P Q : List Token → Prop}
    (R : List Token → List Token → Prop) : Except Fault (α × { rest : List Token // P rest }) →
    Except Fault (α × { rest : List Token // Q rest }) → Prop where
  | ok {a : α} {r r' : List Token} {h : P r} {h' : Q r'} : R r r' →
      Alike Met R (.ok (a,⟨r,h⟩)) (.ok (a,⟨r',h'⟩))
  | error {f : Fault} : f.InStep → Alike Met R (.error f) (.error f)
  | cut {f f' : Fault} : Met f f' → Alike Met R (.error f) (.error f')

/-- Two steps that take nothing have the same result, or meet the faults behind the last token. -/
inductive Same (Met : Fault → Fault → Prop) {α : Type} : Except Fault α → Except Fault α → Prop where
  | ok {a : α} : Same Met (.ok a) (.ok a)
  | error {f : Fault} : f.InStep → Same Met (.error f) (.error f)
  | cut {f f' : Fault} : Met f f' → Same Met (.error f) (.error f')

variable {Met : Fault → Fault → Prop} {α β : Type} {e e' : Ending} {rest rest' ts ts' : List Token}
  {P P' Q Q' : List Token → Prop} {R S : List Token → List Token → Prop}

theorem Alike.bind {x : Except Fault (α × { rest : List Token // P rest })}
    {x' : Except Fault (α × { rest : List Token // P' rest })}
    {k : α × { rest : List Token // P rest } → Except Fault (β × { rest : List Token // Q rest })}
    {k' : α × { rest : List Token // P' rest } → Except Fault (β × { rest : List Token // Q' rest })}
    (hx : Alike Met R x x') (hk : ∀ a r r' h h', R r r' → Alike Met S (k (a,⟨r,h⟩)) (k' (a,⟨r',h'⟩))) :
    Alike Met S (x >>= k) (x' >>= k') := by
  cases hx with
  | ok hr => exact hk _ _ _ _ _ hr
  | error hf => exact .error hf
  | cut hmet => exact .cut hmet

theorem Alike.map {x : Except Fault (α × { rest : List Token // P rest })}
    {x' : Except Fault (α × { rest : List Token // P' rest })} (hx : Alike Met R x x') (g : α → β) :
    Alike Met R (x.map fun p => (g p.1,p.2)) (x'.map fun p => (g p.1,p.2)) := by
  cases hx with
  | ok hr => exact .ok hr
  | error hf => exact .error hf
  | cut hmet => exact .cut hmet

theorem Same.bind {x x' : Except Fault α}
    {k : α → Except Fault (β × { rest : List Token // Q rest })}
    {k' : α → Except Fault (β × { rest : List Token // Q' rest })}
    (hx : Same Met x x') (hk : ∀ a, Alike Met S (k a) (k' a)) : Alike Met S (x >>= k) (x' >>= k') := by
  cases hx with
  | ok => exact hk _
  | error hf => exact .error hf
  | cut hmet => exact .cut hmet

theorem Same.map {x x' : Except Fault α} (hx : Same Met x x') (g : α → β) :
    Same Met (x.map g) (x'.map g) := by
  cases hx with
  | ok => exact .ok
  | error hf => exact .error hf
  | cut hmet => exact .cut hmet

theorem Lexeme.describe_ne (l : Lexeme) : l.describe ≠ "template" := by
  cases l with
  | opening r | closing r => cases r <;> decide
  | symbol s => cases s <;> decide
  | _ => simp [describe]

namespace Abreast

theorem append {us : List Token} (hus : Grammar.Unclosed us)
    (h : Abreast Met e e' rest rest' ts ts') :
    Abreast Met e e' rest rest' (us ++ ts) (us ++ ts') := by
  induction us with
  | nil => exact h
  | cons u us ih =>
    obtain ⟨hu,hus⟩ := Grammar.Unclosed.cons_iff.mp hus
    exact .next hu (ih hus)

theorem peek (h : Abreast Met e e' rest rest' ts ts') : Same Met (e.peek ts) (e'.peek ts') := by
  cases h with
  | closed | next => exact .ok
  | cut hf hf' hmet =>
    simp only [Ending.peek,hf,hf']
    exact .cut hmet

theorem isNext (h : Abreast Met e e' rest rest' ts ts') (l : Lexeme) :
    Same Met (e.isNext l ts) (e'.isNext l ts') := h.peek.map _

theorem expectWith {wanted : String} {accepts : Lexeme → Option α} (hwanted : wanted ≠ "template")
    (haccepts : ∀ region, accepts (.closing region) = none)
    (h : Abreast Met e e' rest rest' ts ts') : Alike Met (Abreast Met e e' rest rest')
      (e.expectWith wanted accepts ts) (e'.expectWith wanted accepts ts') := by
  cases h with
  | closed hc =>
    simp only [Ending.expectWith,hc,haccepts]
    exact .error hwanted
  | cut hf hf' hmet =>
    simp only [Ending.expectWith,Ending.missing,hf,hf']
    exact .cut hmet
  | @next t _ _ _ hrest =>
    simp only [Ending.expectWith]
    cases accepts t.lexeme with
    | some a => exact .ok hrest
    | none => exact .error hwanted

theorem expect {l : Lexeme} (hl : ∀ region, l ≠ .closing region)
    (h : Abreast Met e e' rest rest' ts ts') :
    Alike Met (Abreast Met e e' rest rest') (e.expect l ts) (e'.expect l ts') := by
  have haccepts (region : Region) : (if .closing region = l then some () else none) = none :=
    if_neg (hl region).symm
  exact (h.expectWith l.describe_ne haccepts).map Located.span

end Abreast

theorem same_readInteger (digits : Located String) :
    Same Met (Literal.readInteger digits) (Literal.readInteger digits) := by
  unfold Literal.readInteger
  split
  · exact .ok
  · exact .error trivial

theorem same_readNumber (digits : Located String) :
    Same Met (Literal.readNumber digits) (Literal.readNumber digits) := by
  unfold Literal.readNumber
  split
  · split
    · split
      · exact .ok
      · exact .error trivial
    · exact .error trivial
  · exact same_readInteger digits

theorem same_readString (body : Located String) :
    Same Met (Literal.readString body) (Literal.readString body) := by
  unfold Literal.readString
  split
  · exact .ok
  · exact .error trivial

namespace Term

theorem alike_readMember (h : Abreast Met e e' rest rest' ts ts') :
    Alike Met (Abreast Met e e' rest rest') (readMember e ts) (readMember e' ts') := by
  have hwanted : "identifier or index" ≠ "template" := by decide
  cases h with
  | closed hc =>
    simp only [readMember,Ending.any,bind,Except.bind,hc]
    exact .error hwanted
  | cut hf hf' hmet =>
    simp only [readMember,Ending.any,bind,Except.bind,Ending.missing,hf,hf']
    exact .cut hmet
  | @next t _ _ _ hrest =>
    simp only [readMember,Ending.any,bind,Except.bind]
    split
    · exact .ok hrest
    · exact .ok hrest
    · exact (same_readInteger _).bind fun _ => .ok hrest
    · exact .error hwanted

mutual

theorem alike_readLevel (l : Level) {ts ts' : List Token} (h : Abreast Met e e' rest rest' ts ts') :
    Alike Met (Abreast Met e e' rest rest') (readLevel e l ts) (readLevel e' l ts') := by
  rw [readLevel,readLevel]
  refine (alike_readOperand l h).bind fun left r r' hlt _ hr => ?_
  exact (alike_readChain l left hr).bind fun t _ _ _ _ hr' => .ok hr'
termination_by 20 * ts.length + (2 * l.height + 4)

theorem alike_readOperand (l : Level) {ts ts' : List Token}
    (h : Abreast Met e e' rest rest' ts ts') :
    Alike Met (Abreast Met e e' rest rest') (readOperand e l ts) (readOperand e' l ts') := by
  rw [readOperand,readOperand]
  cases hk : l.tighter? with
  | some k =>
    have := Level.height_of_tighter? hk
    exact alike_readLevel k h
  | none => exact alike_readUnary h
termination_by 20 * ts.length + (2 * l.height + 3)

theorem alike_readChain (l : Level) (left : Term) {ts ts' : List Token}
    (h : Abreast Met e e' rest rest' ts ts') :
    Alike Met (Abreast Met e e' rest rest') (readChain e l left ts) (readChain e' l left ts') := by
  cases h with
  | @closed c region hc =>
    have hnone : l.operator? (.closing region) = none := Level.operator?_of_closesTerm rfl
    simp only [readChain,hc,hnone]
    exact .ok (.closed hc)
  | cut hf hf' hmet =>
    simp only [readChain,Ending.peek,hf,hf']
    exact .cut hmet
  | @next t ts ts' ht hrest =>
    rw [readChain,readChain]
    cases hop : l.operator? t.lexeme with
    | some op =>
      have := l.height_le
      refine (alike_readOperand l hrest).bind fun right r r' hlt _ hr => ?_
      exact (alike_readChain l _ hr).bind fun t _ _ _ _ hr' => .ok hr'
    | none => exact .ok (.next ht hrest)
termination_by 20 * ts.length

theorem alike_readUnary {ts ts' : List Token} (h : Abreast Met e e' rest rest' ts ts') :
    Alike Met (Abreast Met e e' rest rest') (readUnary e ts) (readUnary e' ts') := by
  have hpostfix := alike_readPostfix h
  cases h with
  | closed hc =>
    simp only [readUnary,hc,UnaryOp.ofLexeme?]
    exact hpostfix
  | cut hf hf' hmet =>
    simp only [readUnary,Ending.missing,hf,hf']
    exact .cut hmet
  | @next t ts ts' ht hrest =>
    rw [readUnary,readUnary]
    cases hop : UnaryOp.ofLexeme? t.lexeme with
    | some op => exact (alike_readUnary hrest).bind fun operand _ _ _ _ hr => .ok hr
    | none => exact hpostfix
termination_by 20 * ts.length + 2

theorem alike_readPostfix {ts ts' : List Token} (h : Abreast Met e e' rest rest' ts ts') :
    Alike Met (Abreast Met e e' rest rest') (readPostfix e ts) (readPostfix e' ts') := by
  rw [readPostfix,readPostfix]
  refine (alike_readPrimary h).bind fun ⟨t,parenthesized⟩ r r' hlt _ hr => ?_
  exact (alike_readSuffixes t parenthesized hr).bind fun u _ _ _ _ hr' => .ok hr'
termination_by 20 * ts.length + 1

theorem alike_readSuffixes (t : Term) (parenthesized : Bool) {ts ts' : List Token}
    (h : Abreast Met e e' rest rest' ts ts') : Alike Met (Abreast Met e e' rest rest')
      (readSuffixes e t parenthesized ts) (readSuffixes e' t parenthesized ts') := by
  cases h with
  | closed hc =>
    rw [readSuffixes.eq_def,readSuffixes.eq_def]
    simp only [hc]
    exact .ok (.closed hc)
  | cut hf hf' hmet =>
    simp only [readSuffixes,Ending.peek,hf,hf']
    exact .cut hmet
  | @next x ts ts' hx hrest =>
    rw [readSuffixes.eq_def,readSuffixes.eq_def]
    dsimp only
    split
    · refine (alike_readMember hrest).bind fun key r r' hlt _ hr => ?_
      exact (alike_readSuffixes _ false hr).bind fun u _ _ _ _ hr' => .ok hr'
    · refine (alike_readSubscript t hrest).bind fun u r r' hlt _ hr => ?_
      exact (alike_readSuffixes u false hr).bind fun u _ _ _ _ hr' => .ok hr'
    · split
      · refine (alike_readItems .rparen hrest).bind fun ⟨args,stop⟩ r r' hlt _ hr => ?_
        exact (alike_readSuffixes _ false hr).bind fun u _ _ _ _ hr' => .ok hr'
      · exact .error trivial
    · exact .ok (.next hx hrest)
termination_by 20 * ts.length

theorem alike_readSubscript (container : Term) {ts ts' : List Token}
    (h : Abreast Met e e' rest rest' ts ts') : Alike Met (Abreast Met e e' rest rest')
      (readSubscript e container ts) (readSubscript e' container ts') := by
  rw [readSubscript,readSubscript]
  refine (alike_readStart h).bind fun start r r' hle _ hr => (hr.isNext _).bind fun more => ?_
  split
  · exact (hr.expect (by simp)).bind fun stop _ _ _ _ hr' => .ok hr'
  · refine (hr.expect (by simp)).bind fun _ r₁ _ h₁ _ hr₁ => ?_
    refine (alike_readBound hr₁).bind fun stop r₂ _ h₂ _ hr₂ => ?_
    refine (alike_readStep hr₂).bind fun step r₃ _ h₃ _ hr₃ => ?_
    exact (hr₃.expect (by simp)).bind fun last _ _ _ _ hr₄ => .ok hr₄
termination_by 20 * ts.length + 18

theorem alike_readStart {ts ts' : List Token} (h : Abreast Met e e' rest rest' ts ts') :
    Alike Met (Abreast Met e e' rest rest') (readStart e ts) (readStart e' ts') := by
  rw [readStart,readStart]
  refine (h.isNext _).bind fun more => ?_
  split
  · exact .ok h
  · exact (alike_readLevel .or h).bind fun t _ _ _ _ hr => .ok hr
termination_by 20 * ts.length + 17

theorem alike_readBound {ts ts' : List Token} (h : Abreast Met e e' rest rest' ts ts') :
    Alike Met (Abreast Met e e' rest rest') (readBound e ts) (readBound e' ts') := by
  rw [readBound,readBound]
  refine (h.isNext _).bind fun colon => (h.isNext _).bind fun close => ?_
  split
  · exact .ok h
  · exact (alike_readLevel .or h).bind fun t _ _ _ _ hr => .ok hr
termination_by 20 * ts.length + 16

theorem alike_readStep {ts ts' : List Token} (h : Abreast Met e e' rest rest' ts ts') :
    Alike Met (Abreast Met e e' rest rest') (readStep e ts) (readStep e' ts') := by
  rw [readStep,readStep]
  refine (h.isNext _).bind fun more => ?_
  split
  · refine (h.expect (by simp)).bind fun _ r _ hlt _ hr => ?_
    exact (alike_readBound hr).bind fun step _ _ _ _ hr' => .ok hr'
  · exact .ok h
termination_by 20 * ts.length + 17

theorem alike_readPrimary {ts ts' : List Token} (h : Abreast Met e e' rest rest' ts ts') :
    Alike Met (Abreast Met e e' rest rest') (readPrimary e ts) (readPrimary e' ts') := by
  have hwanted : "expression" ≠ "template" := by decide
  cases h with
  | closed hc =>
    rw [readPrimary.eq_def,readPrimary.eq_def]
    simp only [hc]
    exact .error hwanted
  | cut hf hf' hmet =>
    simp only [readPrimary,Ending.missing,hf,hf']
    exact .cut hmet
  | @next t ts ts' ht hrest =>
    rw [readPrimary.eq_def,readPrimary.eq_def]
    dsimp only
    split
    · exact (same_readNumber _).bind fun _ => .ok hrest
    · exact (same_readString _).bind fun _ => .ok hrest
    · exact .ok hrest
    · exact .ok hrest
    · exact .ok hrest
    · exact .error trivial
    · exact .ok hrest
    · refine (alike_readLevel .or hrest).bind fun u r _ hlt _ hr => ?_
      exact (hr.expect (by simp)).bind fun _ _ _ _ _ hr' => .ok hr'
    · exact (alike_readItems .rbracket hrest).bind fun ⟨items,stop⟩ _ _ _ _ hr => .ok hr
    · exact .error hwanted
termination_by 20 * ts.length

theorem alike_readItems (close : Symbol) {ts ts' : List Token}
    (h : Abreast Met e e' rest rest' ts ts') :
    Alike Met (Abreast Met e e' rest rest') (readItems e close ts) (readItems e' close ts') := by
  rw [readItems,readItems]
  refine (h.isNext _).bind fun done => ?_
  split
  · exact (h.expect (by simp)).bind fun stop _ _ _ _ hr => .ok hr
  · refine (alike_readLevel .or h).bind fun t r₁ _ h₁ _ hr₁ => (hr₁.isNext _).bind fun more => ?_
    split
    · refine (hr₁.expect (by simp)).bind fun _ r₂ _ h₂ _ hr₂ => ?_
      exact (alike_readItems close hr₂).bind fun ⟨items,stop⟩ _ _ _ _ hr₃ => .ok hr₃
    · exact (hr₁.expect (by simp)).bind fun stop _ _ _ _ hr₂ => .ok hr₂
termination_by 20 * ts.length + 16

end

theorem same_atListEnd (h : Abreast Met e e' rest rest' ts ts') :
    Same Met (atListEnd e ts) (atListEnd e' ts') := h.peek.map _

theorem alike_readMore (s : Span) {ts ts' : List Token} (h : Abreast Met e e' rest rest' ts ts') :
    Alike Met (Abreast Met e e' rest rest') (readMore e s ts) (readMore e' s ts') := by
  rw [readMore,readMore]
  refine (h.isNext _).bind fun more => ?_
  split
  · refine (h.expect (by simp)).bind fun comma r₁ _ h₁ _ hr₁ => ?_
    refine (same_atListEnd hr₁).bind fun done => ?_
    split
    · exact .ok hr₁
    · refine (alike_readLevel .or hr₁).bind fun t r₂ _ h₂ _ hr₂ => ?_
      exact (alike_readMore _ hr₂).bind fun ⟨items,last⟩ _ _ _ _ hr₃ => .ok hr₃
  · exact .ok h
termination_by ts.length

theorem alike_readList (h : Abreast Met e e' rest rest' ts ts') :
    Alike Met (Abreast Met e e' rest rest') (readList e ts) (readList e' ts') := by
  refine (alike_readLevel .or h).bind fun first r₁ _ h₁ _ hr₁ => (hr₁.isNext _).bind fun more => ?_
  split
  · exact (alike_readMore _ hr₁).bind fun ⟨items,s⟩ _ _ _ _ hr₂ => .ok hr₂
  · exact .ok hr₁

end Term

end Stencil
