import Stencil.Cause

/-!
Reading tokens one after the other.

A reader takes the tokens in front of it and gives back a result with the tokens it leaves, which
are fewer. Behind the last token stands either the end of the source or the fault that stopped the
scan; a reader that gets there fails with it.
-/

set_option autoImplicit false

namespace Stencil

/-- What stands behind the last token of a source of `size` bytes. -/
structure Ending where
  size : Nat
  fault : Option Fault

abbrev Fewer (ts : List Token) := { rest : List Token // rest.length < ts.length }

abbrev NoMore (ts : List Token) := { rest : List Token // rest.length ≤ ts.length }

def Fewer.and {ts : List Token} (first : Fewer ts) (second : Fewer first.1) : Fewer ts :=
  ⟨second.1,Nat.lt_trans second.2 first.2⟩

def Fewer.andMaybe {ts : List Token} (first : Fewer ts) (second : NoMore first.1) : Fewer ts :=
  ⟨second.1,Nat.lt_of_le_of_lt second.2 first.2⟩

namespace Ending

/-- The fault of a reader that meets the ending where it wants a token. -/
def missing (e : Ending) (wanted : String) : Fault :=
  match e.fault with
  | some f => f
  | none => ⟨.unexpectedEnd wanted,⟨e.size,e.size⟩⟩

def peek (e : Ending) : List Token → Except Fault (Option Lexeme)
  | t :: _ => .ok (some t.lexeme)
  | [] =>
    match e.fault with
    | some f => .error f
    | none => .ok none

def isNext (e : Ending) (l : Lexeme) (ts : List Token) : Except Fault Bool :=
  (e.peek ts).map fun next => next == some l

def any (e : Ending) : (ts : List Token) → Except Fault (Token × Fewer ts)
  | t :: r => .ok (t,⟨r,by simp⟩)
  | [] => .error (e.missing "token")

def expectWith {α : Type} (e : Ending) (wanted : String) (accepts : Lexeme → Option α) :
    (ts : List Token) → Except Fault (Located α × Fewer ts)
  | t :: r =>
    match accepts t.lexeme with
    | some a => .ok (⟨a,t.span⟩,⟨r,by simp⟩)
    | none => .error ⟨.unexpected wanted t.lexeme,t.span⟩
  | [] => .error (e.missing wanted)

def expect (e : Ending) (l : Lexeme) (ts : List Token) : Except Fault (Span × Fewer ts) :=
  (e.expectWith l.describe (fun m => if m = l then some () else none) ts).map fun (t,rest) =>
    (t.span,rest)

def name (e : Ending) (ts : List Token) : Except Fault (Located String × Fewer ts) :=
  e.expectWith "identifier" (fun | .name n => some n | _ => none) ts

def string (e : Ending) (ts : List Token) : Except Fault (Located String × Fewer ts) :=
  e.expectWith "string" (fun | .string s => some s | _ => none) ts

def keyword (e : Ending) (k : Keyword) (ts : List Token) : Except Fault (Span × Fewer ts) := do
  let (found,rest) ← e.expectWith "keyword" (fun | .keyword k => some k | _ => none) ts
  if found.value = k then .ok (found.span,rest)
  else .error ⟨.wrongKeyword k found.value,found.span⟩

end Ending

end Stencil
