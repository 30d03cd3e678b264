import Stencil.Term.Basic
import Stencil.Token.Stream

/-!
Reading terms.

From loosest to tightest: `or`, `and`, equality, relations with `in`, sums, products, prefix
operators, and the suffixes of a primary term. Binary operators of one level associate to the left.
Only the term of a whole region may be a list without brackets.
-/

set_option autoImplicit false

namespace Stencil

inductive Level where
  | or | and | equality | relation | sum | product
  deriving DecidableEq, Repr

namespace Level

def tighter? : Level → Option Level
  | .or => some .and
  | .and => some .equality
  | .equality => some .relation
  | .relation => some .sum
  | .sum => some .product
  | .product => none

def height : Level → Nat
  | .or => 5
  | .and => 4
  | .equality => 3
  | .relation => 2
  | .sum => 1
  | .product => 0

def operator? : Level → Lexeme → Option BinaryOp
  | .or, .symbol .orOr | .or, .keyword .orKw => some .or
  | .and, .symbol .andAnd | .and, .keyword .andKw => some .and
  | .equality, .symbol .eq => some .eq
  | .equality, .symbol .ne => some .ne
  | .relation, .symbol .lt => some .lt
  | .relation, .symbol .gt => some .gt
  | .relation, .symbol .le => some .le
  | .relation, .symbol .ge => some .ge
  | .relation, .keyword .inKw => some .isIn
  | .sum, .symbol .plus => some .add
  | .sum, .symbol .minus => some .sub
  | .product, .symbol .star => some .mul
  | .product, .symbol .slash => some .div
  | .product, .symbol .percent => some .rem
  | _, _ => none

theorem height_of_tighter? {l k : Level} (h : l.tighter? = some k) : k.height + 1 = l.height := by
  cases l <;> simp_all [tighter?] <;> subst h <;> rfl

@[simp] theorem height_or : Level.or.height = 5 := rfl

theorem height_le (l : Level) : l.height ≤ 5 := by cases l <;> decide

end Level

namespace UnaryOp

def ofLexeme? : Lexeme → Option UnaryOp
  | .symbol .bang | .keyword .notKw => some .not
  | .symbol .minus => some .neg
  | _ => none

end UnaryOp

namespace Literal

def readString (body : Located String) : Except Fault String :=
  match Text.unescape 0 body.value.toList with
  | .ok cs => .ok (String.ofList cs)
  | .error bad =>
    let start := body.span.start + 1 + bad.offset
    .error ⟨.unknownEscape,⟨start,start + bad.size⟩⟩

/-- An integer, which has to have a place among the 64-bit integers. -/
def readInteger (digits : Located String) : Except Fault Literal :=
  match Integer.ofText? digits.value with
  | some n => .ok (.int n)
  | none => .error ⟨.integerLiteralRange,digits.span⟩

/-- A number: with a point or an exponent it is a float, which has to be finite. -/
def readNumber (digits : Located String) : Except Fault Literal :=
  if digits.value.toList.any (fun c => c == '.' || c == 'e' || c == 'E') then
    match Binary64.ofText? digits.value with
    | some x => if x.isFinite then .ok (.float x) else .error ⟨.floatLiteralRange,digits.span⟩
    | none => .error ⟨.floatLiteralRange,digits.span⟩
  else readInteger digits

end Literal

namespace Term

/-- The key behind a dot: a word stands for itself, digits for an integer. -/
def readMember (e : Ending) (ts : List Token) : Except Fault (Term × Fewer ts) := do
  let (t,rest) ← e.any ts
  match t.lexeme with
  | .name n => return (.literal (.str n) t.span,rest)
  | .keyword k => return (.literal (.str k.text) t.span,rest)
  | .number digits => return (.literal (← Literal.readInteger ⟨digits,t.span⟩) t.span,rest)
  | l => .error ⟨.unexpected "identifier or index" l,t.span⟩

mutual

def readLevel (e : Ending) (l : Level) (ts : List Token) : Except Fault (Term × Fewer ts) := do
  let ⟨left,rest,h⟩ ← readOperand e l ts
  let ⟨t,rest',h'⟩ ← readChain e l left rest
  return ⟨t,rest',by omega⟩
termination_by 20 * ts.length + (2 * l.height + 4)

def readOperand (e : Ending) (l : Level) (ts : List Token) : Except Fault (Term × Fewer ts) :=
  match _h : l.tighter? with
  | some k => readLevel e k ts
  | none => readUnary e ts
termination_by 20 * ts.length + (2 * l.height + 3)
decreasing_by
  · have := Level.height_of_tighter? _h
    omega
  · omega

def readChain (e : Ending) (l : Level) (left : Term) (ts : List Token) :
    Except Fault (Term × NoMore ts) :=
  match ts with
  | [] => (e.peek []).map fun _ => (left,⟨[],Nat.le_refl _⟩)
  | t :: r =>
    match l.operator? t.lexeme with
    | some op => do
      let ⟨right,rest,h⟩ ← readOperand e l r
      let ⟨u,rest',h'⟩ ←
        readChain e l (.binary op left right (left.span.cover right.span)) rest
      return ⟨u,rest',by simp only [List.length_cons]; omega⟩
    | none => .ok (left,⟨t :: r,Nat.le_refl _⟩)
termination_by 20 * ts.length
decreasing_by
  · have := l.height_le
    simp only [List.length_cons]; omega
  · simp only [List.length_cons]; omega

def readUnary (e : Ending) (ts : List Token) : Except Fault (Term × Fewer ts) :=
  match ts with
  | [] => .error (e.missing "token")
  | t :: r =>
    match UnaryOp.ofLexeme? t.lexeme with
    | some op => do
      let ⟨operand,rest,h⟩ ← readUnary e r
      return ⟨.unary op operand (t.span.cover operand.span),rest,
        by simp only [List.length_cons]; omega⟩
    | none => readPostfix e (t :: r)
termination_by 20 * ts.length + 2

def readPostfix (e : Ending) (ts : List Token) : Except Fault (Term × Fewer ts) := do
  let ⟨(t,parenthesized),rest,h⟩ ← readPrimary e ts
  let ⟨u,rest',h'⟩ ← readSuffixes e t parenthesized rest
  return ⟨u,rest',by omega⟩
termination_by 20 * ts.length + 1

def readSuffixes (e : Ending) (t : Term) (parenthesized : Bool) (ts : List Token) :
    Except Fault (Term × NoMore ts) :=
  match ts with
  | [] => (e.peek []).map fun _ => (t,⟨[],Nat.le_refl _⟩)
  | next :: r =>
    match next.lexeme with
    | .symbol .dot => do
      let ⟨key,rest,h⟩ ← readMember e r
      let ⟨u,rest',h'⟩ ← readSuffixes e (.index t key (t.span.cover key.span)) false rest
      return ⟨u,rest',by simp only [List.length_cons]; omega⟩
    | .symbol .lbracket => do
      let ⟨s,rest,h⟩ ← readSubscript e t r
      let ⟨u,rest',h'⟩ ← readSuffixes e s false rest
      return ⟨u,rest',by simp only [List.length_cons]; omega⟩
    | .symbol .lparen =>
      match t, parenthesized with
      | .var name, false => do
        let ⟨(args,stop),rest,h⟩ ← readItems e .rparen r
        let ⟨u,rest',h'⟩ ← readSuffixes e (.call name args (name.span.cover stop)) false rest
        return ⟨u,rest',by simp only [List.length_cons]; omega⟩
      | _, _ => .error ⟨.notCallable,next.span⟩
    | _ => .ok (t,⟨next :: r,Nat.le_refl _⟩)
termination_by 20 * ts.length

def readSubscript (e : Ending) (container : Term) (ts : List Token) :
    Except Fault (Term × Fewer ts) := do
  let ⟨start,rest,h⟩ ← readStart e ts
  match start, ← e.isNext (.symbol .colon) rest with
  | some key, false =>
    let ⟨stop,rest',h'⟩ ← e.expect (.symbol .rbracket) rest
    return ⟨.index container key (container.span.cover stop),rest',by omega⟩
  | start, _ =>
    let ⟨_,r₁,h₁⟩ ← e.expect (.symbol .colon) rest
    let ⟨stop,r₂,h₂⟩ ← readBound e r₁
    let ⟨step,r₃,h₃⟩ ← readStep e r₂
    let ⟨last,r₄,h₄⟩ ← e.expect (.symbol .rbracket) r₃
    return ⟨.slice container start stop step (container.span.cover last),r₄,by omega⟩
termination_by 20 * ts.length + 18

def readStart (e : Ending) (ts : List Token) : Except Fault (Option Term × NoMore ts) := do
  if ← e.isNext (.symbol .colon) ts then return ⟨none,ts,Nat.le_refl _⟩
  else
    let ⟨t,rest,h⟩ ← readLevel e .or ts
    return ⟨some t,rest,Nat.le_of_lt h⟩
termination_by 20 * ts.length + 17

def readBound (e : Ending) (ts : List Token) : Except Fault (Option Term × NoMore ts) := do
  if (← e.isNext (.symbol .colon) ts) || (← e.isNext (.symbol .rbracket) ts) then
    return ⟨none,ts,Nat.le_refl _⟩
  else
    let ⟨t,rest,h⟩ ← readLevel e .or ts
    return ⟨some t,rest,Nat.le_of_lt h⟩
termination_by 20 * ts.length + 16

def readStep (e : Ending) (ts : List Token) : Except Fault (Option Term × NoMore ts) := do
  if ← e.isNext (.symbol .colon) ts then
    let ⟨_,rest,h⟩ ← e.expect (.symbol .colon) ts
    let ⟨step,rest',h'⟩ ← readBound e rest
    return ⟨step,rest',by omega⟩
  else return ⟨none,ts,Nat.le_refl _⟩
termination_by 20 * ts.length + 17

/-- A literal, a name, a term in parentheses or a list, and whether it stood in parentheses. -/
def readPrimary (e : Ending) (ts : List Token) : Except Fault ((Term × Bool) × Fewer ts) :=
  match ts with
  | [] => .error (e.missing "token")
  | t :: r =>
    let rest : Fewer (t :: r) := ⟨r,by simp⟩
    match t.lexeme with
    | .number digits => do
      return ⟨(.literal (← Literal.readNumber ⟨digits,t.span⟩) t.span,false),rest⟩
    | .string body => do
      return ⟨(.literal (.str (← Literal.readString ⟨body,t.span⟩)) t.span,false),rest⟩
    | .keyword .trueKw => .ok ((.literal (.bool true) t.span,false),rest)
    | .keyword .falseKw => .ok ((.literal (.bool false) t.span,false),rest)
    | .keyword .nullKw => .ok ((.literal .null t.span,false),rest)
    | .keyword k => .error ⟨.misplacedKeyword k,t.span⟩
    | .name n => .ok ((.var ⟨n,t.span⟩,false),rest)
    | .symbol .lparen => do
      let ⟨u,r₁,h₁⟩ ← readLevel e .or r
      let ⟨_,r₂,h₂⟩ ← e.expect (.symbol .rparen) r₁
      return ⟨(u,true),r₂,by simp only [List.length_cons]; omega⟩
    | .symbol .lbracket => do
      let ⟨(items,stop),r₁,h₁⟩ ← readItems e .rbracket r
      return ⟨(.list items (t.span.cover stop),false),r₁,by simp only [List.length_cons]; omega⟩
    | l => .error ⟨.unexpected "expression" l,t.span⟩
termination_by 20 * ts.length

/-- Terms with commas between them, up to the closing symbol, whose span is given too. A comma may
stand behind the last term. -/
def readItems (e : Ending) (close : Symbol) (ts : List Token) :
    Except Fault ((List Term × Span) × Fewer ts) := do
  if ← e.isNext (.symbol close) ts then
    let ⟨stop,rest⟩ ← e.expect (.symbol close) ts
    return ⟨([],stop),rest⟩
  else
    let ⟨t,r₁,h₁⟩ ← readLevel e .or ts
    if ← e.isNext (.symbol .comma) r₁ then
      let ⟨_,r₂,h₂⟩ ← e.expect (.symbol .comma) r₁
      let ⟨(items,stop),r₃,h₃⟩ ← readItems e close r₂
      return ⟨(t :: items,stop),r₃,by omega⟩
    else
      let ⟨stop,r₂,h₂⟩ ← e.expect (.symbol close) r₁
      return ⟨([t],stop),r₂,by omega⟩
termination_by 20 * ts.length + 16

end

def read (e : Ending) (ts : List Token) : Except Fault (Term × Fewer ts) := readLevel e .or ts

def atListEnd (e : Ending) (ts : List Token) : Except Fault Bool :=
  (e.peek ts).map fun
    | none | some (.closing .expression) | some (.closing .block) => true
    | _ => false

def readMore (e : Ending) (span : Span) (ts : List Token) :
    Except Fault ((List Term × Span) × NoMore ts) := do
  if ← e.isNext (.symbol .comma) ts then
    let ⟨comma,r₁,h₁⟩ ← e.expect (.symbol .comma) ts
    if ← atListEnd e r₁ then return ⟨([],span.cover comma),r₁,Nat.le_of_lt h₁⟩
    else
      let ⟨t,r₂,h₂⟩ ← read e r₁
      let ⟨(items,last),r₃,h₃⟩ ← readMore e ((span.cover comma).cover t.span) r₂
      return ⟨(t :: items,last),r₃,by omega⟩
  else return ⟨([],span),ts,Nat.le_refl _⟩
termination_by ts.length

/-- The term of a whole region: a single term, or with commas a list. -/
def readList (e : Ending) (ts : List Token) : Except Fault (Term × Fewer ts) := do
  let ⟨first,r₁,h₁⟩ ← read e ts
  if ← e.isNext (.symbol .comma) r₁ then
    let ⟨(items,span),r₂,h₂⟩ ← readMore e first.span r₁
    return ⟨.list (first :: items) span,r₂,by omega⟩
  else return ⟨first,r₁,h₁⟩

end Term

end Stencil
