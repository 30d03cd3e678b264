import Stencil.Term.Read

/-!
The grammar of terms.

A rule relates a run of tokens to what it denotes. A repetition denotes a list, and what is built
from it is folded from the left: operators of one level over their operands, suffixes over a
primary term. The rules say nothing about how a run is found: they neither look ahead nor decide
where a repetition ends.
-/

set_option autoImplicit false

namespace Stencil.Grammar

/-- What stands behind a primary term. Each suffix knows the place of its last token. -/
inductive Suffix where
  | key (key : Term) (last : Span)
  | slice (start stop step : Option Term) (last : Span)

def attach (t : Term) : Suffix → Term
  | .key k last => .index t k (t.span.cover last)
  | .slice start stop step last => .slice t start stop step (t.span.cover last)

def join (left : Term) (step : BinaryOp × Term) : Term :=
  .binary step.1 left step.2 (left.span.cover step.2.span)

/-- What a list without brackets covers: its first item, each further one behind its comma, and a
comma behind the last. -/
def spread (first : Span) (more : List (Span × Term)) (trailing : Option Span) : Span :=
  let s := more.foldl (fun s item => (s.cover item.1).cover item.2.span) first
  trailing.elim s s.cover

inductive Member : Token → Literal → Prop where
  | name {t : Token} {n : String} : t.lexeme = .name n → Member t (.str n)
  | keyword {t : Token} {k : Keyword} : t.lexeme = .keyword k → Member t (.str k.text)
  | number {t : Token} {digits : String} {l : Literal} : t.lexeme = .number digits →
      Literal.readInteger ⟨digits,t.span⟩ = .ok l → Member t l

inductive Atom : Token → Literal → Prop where
  | number {t : Token} {digits : String} {l : Literal} : t.lexeme = .number digits →
      Literal.readNumber ⟨digits,t.span⟩ = .ok l → Atom t l
  | string {t : Token} {body s : String} : t.lexeme = .string body →
      Literal.readString ⟨body,t.span⟩ = .ok s → Atom t (.str s)
  | true {t : Token} : t.lexeme = .keyword .trueKw → Atom t (.bool true)
  | false {t : Token} : t.lexeme = .keyword .falseKw → Atom t (.bool false)
  | null {t : Token} : t.lexeme = .keyword .nullKw → Atom t .null

inductive Operator : Level → Lexeme → BinaryOp → Prop where
  | or : Operator .or (.symbol .orOr) .or
  | orWord : Operator .or (.keyword .orKw) .or
  | and : Operator .and (.symbol .andAnd) .and
  | andWord : Operator .and (.keyword .andKw) .and
  | eq : Operator .equality (.symbol .eq) .eq
  | ne : Operator .equality (.symbol .ne) .ne
  | lt : Operator .relation (.symbol .lt) .lt
  | gt : Operator .relation (.symbol .gt) .gt
  | le : Operator .relation (.symbol .le) .le
  | ge : Operator .relation (.symbol .ge) .ge
  | isIn : Operator .relation (.keyword .inKw) .isIn
  | add : Operator .sum (.symbol .plus) .add
  | sub : Operator .sum (.symbol .minus) .sub
  | mul : Operator .product (.symbol .star) .mul
  | div : Operator .product (.symbol .slash) .div
  | rem : Operator .product (.symbol .percent) .rem

inductive Tighter : Level → Level → Prop where
  | or : Tighter .or .and
  | and : Tighter .and .equality
  | equality : Tighter .equality .relation
  | relation : Tighter .relation .sum
  | sum : Tighter .sum .product

inductive Prefix : Lexeme → UnaryOp → Prop where
  | not : Prefix (.symbol .bang) .not
  | notWord : Prefix (.keyword .notKw) .not
  | neg : Prefix (.symbol .minus) .neg

inductive Trailing : List Token → Option Span → Prop where
  | none : Trailing [] none
  | comma {c : Token} : c.lexeme = .symbol .comma → Trailing [c] (some c.span)

mutual

inductive Chain : Level → List Token → Term → Prop where
  | intro {l : Level} {ts us : List Token} {t : Term} {steps : List (BinaryOp × Term)} :
      Operand l ts t → Steps l us steps → Chain l (ts ++ us) (steps.foldl join t)

/-- A chain of the next tighter level; behind the tightest one come the prefix operators. -/
inductive Operand : Level → List Token → Term → Prop where
  | tighter {l k : Level} {ts : List Token} {t : Term} :
      Tighter l k → Chain k ts t → Operand l ts t
  | unary {ts : List Token} {t : Term} : Unary ts t → Operand .product ts t

inductive Steps : Level → List Token → List (BinaryOp × Term) → Prop where
  | nil {l : Level} : Steps l [] []
  | cons {l : Level} {o : Token} {op : BinaryOp} {ts us : List Token} {t : Term}
      {steps : List (BinaryOp × Term)} :
      Operator l o.lexeme op → Operand l ts t → Steps l us steps →
      Steps l (o :: (ts ++ us)) ((op,t) :: steps)

inductive Unary : List Token → Term → Prop where
  | prefixed {o : Token} {op : UnaryOp} {ts : List Token} {t : Term} :
      Prefix o.lexeme op → Unary ts t →
      Unary (o :: ts) (.unary op t (o.span.cover t.span))
  | plain {ts : List Token} {t : Term} : Postfix ts t → Unary ts t

/-- A primary term or a call, and any number of suffixes. Only a bare name can be called. -/
inductive Postfix : List Token → Term → Prop where
  | primary {ts us : List Token} {t : Term} {ss : List Suffix} :
      Primary ts t → Suffixes us ss → Postfix (ts ++ us) (ss.foldl attach t)
  | call {f o c : Token} {n : String} {ts us : List Token} {args : List Term}
      {ss : List Suffix} :
      f.lexeme = .name n → o.lexeme = .symbol .lparen → Items ts args →
      c.lexeme = .symbol .rparen → Suffixes us ss →
      Postfix (f :: o :: (ts ++ c :: us))
        (ss.foldl attach (.call ⟨n,f.span⟩ args (f.span.cover c.span)))

inductive Suffixes : List Token → List Suffix → Prop where
  | nil : Suffixes [] []
  | member {d k : Token} {l : Literal} {us : List Token} {ss : List Suffix} :
      d.lexeme = .symbol .dot → Member k l → Suffixes us ss →
      Suffixes (d :: k :: us) (.key (.literal l k.span) k.span :: ss)
  | index {o c : Token} {ts us : List Token} {key : Term} {ss : List Suffix} :
      o.lexeme = .symbol .lbracket → Chain .or ts key → c.lexeme = .symbol .rbracket →
      Suffixes us ss → Suffixes (o :: (ts ++ c :: us)) (.key key c.span :: ss)
  | slice {o m c : Token} {ts us vs ws : List Token} {start stop step : Option Term}
      {ss : List Suffix} :
      o.lexeme = .symbol .lbracket → Bound ts start → m.lexeme = .symbol .colon →
      Bound us stop → Stride vs step → c.lexeme = .symbol .rbracket → Suffixes ws ss →
      Suffixes (o :: (ts ++ m :: (us ++ (vs ++ c :: ws)))) (.slice start stop step c.span :: ss)

inductive Bound : List Token → Option Term → Prop where
  | absent : Bound [] none
  | present {ts : List Token} {t : Term} : Chain .or ts t → Bound ts (some t)

inductive Stride : List Token → Option Term → Prop where
  | absent : Stride [] none
  | present {m : Token} {ts : List Token} {step : Option Term} :
      m.lexeme = .symbol .colon → Bound ts step → Stride (m :: ts) step

inductive Primary : List Token → Term → Prop where
  | literal {t : Token} {l : Literal} : Atom t l → Primary [t] (.literal l t.span)
  | name {t : Token} {n : String} : t.lexeme = .name n → Primary [t] (.var ⟨n,t.span⟩)
  | parens {o c : Token} {ts : List Token} {t : Term} :
      o.lexeme = .symbol .lparen → Chain .or ts t → c.lexeme = .symbol .rparen →
      Primary (o :: (ts ++ [c])) t
  | list {o c : Token} {ts : List Token} {items : List Term} :
      o.lexeme = .symbol .lbracket → Items ts items → c.lexeme = .symbol .rbracket →
      Primary (o :: (ts ++ [c])) (.list items (o.span.cover c.span))

inductive Items : List Token → List Term → Prop where
  | none : Items [] []
  | some {ts us vs : List Token} {t : Term} {more : List (Span × Term)}
      {last : Option Span} :
      Chain .or ts t → More us more → Trailing vs last →
      Items (ts ++ (us ++ vs)) (t :: more.map (·.2))

inductive More : List Token → List (Span × Term) → Prop where
  | nil : More [] []
  | cons {c : Token} {ts us : List Token} {t : Term} {more : List (Span × Term)} :
      c.lexeme = .symbol .comma → Chain .or ts t → More us more →
      More (c :: (ts ++ us)) ((c.span,t) :: more)

end

theorem operator?_eq_some_iff {l : Level} {x : Lexeme} {op : BinaryOp} :
    l.operator? x = some op ↔ Operator l x op := by
  constructor
  · intro h
    unfold Level.operator? at h
    split at h <;> first | (obtain rfl := Option.some.inj h; constructor) | cases h
  · rintro ⟨⟩ <;> rfl

theorem tighter?_eq_some_iff {l k : Level} : l.tighter? = some k ↔ Tighter l k := by
  constructor
  · intro h
    cases l <;> first | (obtain rfl := Option.some.inj h; constructor) | cases h
  · rintro ⟨⟩ <;> rfl

theorem tighter?_eq_none_iff {l : Level} : l.tighter? = none ↔ l = .product := by
  cases l <;> simp [Level.tighter?]

theorem ofLexeme?_eq_some_iff {x : Lexeme} {op : UnaryOp} :
    UnaryOp.ofLexeme? x = some op ↔ Prefix x op := by
  constructor
  · intro h
    unfold UnaryOp.ofLexeme? at h
    split at h <;> first | (obtain rfl := Option.some.inj h; constructor) | cases h
  · rintro ⟨⟩ <;> rfl

theorem Chain.of_operand {l : Level} {ts : List Token} {t : Term} (h : Operand l ts t) :
    Chain l ts t := by
  simpa using Chain.intro h .nil

theorem Operand.of_unary {ts : List Token} {t : Term} (h : Unary ts t) (l : Level) :
    Operand l ts t := by
  cases hl : l.tighter? with
  | none =>
    obtain rfl := tighter?_eq_none_iff.mp hl
    exact .unary h
  | some k =>
    have := Level.height_of_tighter? hl
    exact .tighter (tighter?_eq_some_iff.mp hl) (.of_operand (.of_unary h k))
termination_by l.height

theorem Chain.of_unary {ts : List Token} {t : Term} (h : Unary ts t) (l : Level) :
    Chain l ts t :=
  .of_operand (.of_unary h l)

theorem Chain.loosest {l : Level} {ts : List Token} {t : Term} (h : Chain l ts t) : Chain .or ts t := by
  have step {m k : Level} (hm : Tighter m k) (h : Chain k ts t) : Chain m ts t :=
    .of_operand (.tighter hm h)
  have hand (h : Chain .and ts t) : Chain .or ts t := step .or h
  have hequality (h : Chain .equality ts t) : Chain .or ts t := hand (step .and h)
  have hrelation (h : Chain .relation ts t) : Chain .or ts t := hequality (step .equality h)
  have hsum (h : Chain .sum ts t) : Chain .or ts t := hrelation (step .relation h)
  cases l with
  | or => exact h
  | and => exact hand h
  | equality => exact hequality h
  | relation => exact hrelation h
  | sum => exact hsum h
  | product => exact hsum (step .sum h)

theorem Postfix.of_primary {ts : List Token} {t : Term} (h : Primary ts t) : Postfix ts t := by
  simpa using Postfix.primary h .nil

theorem Unary.of_primary {ts : List Token} {t : Term} (h : Primary ts t) : Unary ts t :=
  .plain (.of_primary h)

/-- The term of a whole region: a single term, or with at least one comma a list. -/
inductive Whole : List Token → Term → Prop where
  | single {ts : List Token} {t : Term} : Chain .or ts t → Whole ts t
  | several {ts us vs : List Token} {t : Term} {more : List (Span × Term)}
      {last : Option Span} :
      Chain .or ts t → More us more → Trailing vs last → us ++ vs ≠ [] →
      Whole (ts ++ (us ++ vs)) (.list (t :: more.map (·.2)) (spread t.span more last))

end Stencil.Grammar
