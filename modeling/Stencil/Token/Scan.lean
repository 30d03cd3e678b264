import Stencil.Cause
import Stencil.Number.Decimal
import Stencil.Text.Blank
import Stencil.Text.Alphabet
import Stencil.Text.Search

/-!
Scanning: from the characters of a source to its tokens.

Between regions a source is raw text up to the next opening delimiter. Inside an expression or a
block it is a sequence of lexemes and blanks up to the closing delimiter of that region. A comment
is anything up to its closing delimiter. Scanning stops at the first fault; the tokens in front of
it stand.
-/

set_option autoImplicit false

namespace Stencil

namespace Lexeme

def isSeparator (c : Char) : Bool := c == '\t' || c == ' ' || c == '\r' || c == '\n'

/-- How many characters of a string follow its opening quote, the closing quote included; where
there is no closing quote, how many stand in front of the end of the line. -/
def stringLength (quote : Char) (escaped : Bool) : List Char → Except Nat Nat
  | [] => .error 0
  | c :: r =>
    if c = '\r' ∨ c = '\n' then .error 0
    else if c = quote ∧ !escaped then .ok 1
    else
      match stringLength quote (c == '\\' && !escaped) r with
      | .ok n => .ok (n + 1)
      | .error n => .error (n + 1)

/-- The length of an exponent, if the text starts with one; where it has no digits, the length of
what there is. -/
def exponentLength : List Char → Except Nat Nat
  | [] => .ok 0
  | c :: r =>
    if c = 'e' ∨ c = 'E' then
      let signLength := if r.head? = some '+' ∨ r.head? = some '-' then 1 else 0
      let ds := (r.drop signLength).takeWhile Decimal.isDigit
      if ds = [] then .error (1 + signLength) else .ok (1 + signLength + ds.length)
    else .ok 0

def fractionLength : List Char → Nat
  | '.' :: r =>
    let ds := r.takeWhile Decimal.isDigit
    if ds = [] then 0 else 1 + ds.length
  | _ => 0

/-- The length of the number at the front of a text; where its exponent has no digits, the length up
to the missing digits. -/
def numberLength (cs : List Char) : Except Nat Nat :=
  let whole := (cs.takeWhile Decimal.isDigit).length
  let n := whole + fractionLength (cs.drop whole)
  match exponentLength (cs.drop n) with
  | .ok e => .ok (n + e)
  | .error e => .error (n + e)

def ofWord (s : String) : Lexeme :=
  match Keyword.ofText? s with
  | some k => .keyword k
  | none => .name s

/-- The lexeme that starts with `c`, or none for a run of blanks, and how many of the following
characters `r` belong to it; or what is wrong and how many characters it concerns. Directly after a
dot a number has no fractional part. -/
def read [Alphabet] (afterDot : Bool) (c : Char) (r : List Char) :
    Except (Cause × Nat) (Option Lexeme × Nat) :=
  match r.head?.bind (Symbol.pair? c) with
  | some s => .ok (some (.symbol s),1)
  | none =>
    match Symbol.single? c with
    | some s => .ok (some (.symbol s),0)
    | none =>
      if c = '"' ∨ c = '\'' then
        match stringLength c false r with
        | .ok n => .ok (some (.string (String.ofList (r.take (n - 1)))),n)
        | .error n => .error (.undelimitedString,n + 1)
      else if Decimal.isDigit c then
        if afterDot then
          let ds := r.takeWhile Decimal.isDigit
          .ok (some (.number (String.ofList (c :: ds))),ds.length)
        else
          match numberLength (c :: r) with
          | .ok n => .ok (some (.number (String.ofList (c :: r.take (n - 1)))),n - 1)
          | .error n => .error (.malformedNumber,n)
      else if isSeparator c then .ok (none,(r.takeWhile isSeparator).length)
      else if Text.isNameStart c then
        let cs := r.takeWhile Text.isNamePart
        .ok (some (ofWord (String.ofList (c :: cs))),cs.length)
      else .error (.unexpectedCharacter,1)

end Lexeme

structure Scan where
  tokens : List Token
  fault : Option Fault

namespace Scan

inductive Mode where
  /-- in raw text, of which the leading blanks may have to go -/
  | raw (trimStart : Bool)
  /-- in an expression or a block that was opened at `opening` -/
  | inside (opening : Span) (region : Region) (afterDot : Bool)
  /-- in a comment that was opened at `opening` -/
  | comment (opening : Span)

def cons (t : Token) (s : Scan) : Scan := { s with tokens := t :: s.tokens }

def stop (cause : Cause) (span : Span) : Scan := ⟨[],some ⟨cause,span⟩⟩

def nextOpening : List Char → List Char × Option (Delimiter × List Char)
  | [] => ([],none)
  | c :: r =>
    match Delimiter.at? (c :: r) with
    | some d =>
      if d.opens then ([],some (d,(c :: r).drop d.size))
      else (c :: (nextOpening r).1,(nextOpening r).2)
    | none => (c :: (nextOpening r).1,(nextOpening r).2)

theorem length_of_nextOpening {cs : List Char} {d : Delimiter} {rest : List Char}
    (h : (nextOpening cs).2 = some (d,rest)) : rest.length < cs.length := by
  induction cs with
  | nil => simp [nextOpening] at h
  | cons c r ih =>
    have step (h : (nextOpening r).2 = some (d,rest)) : rest.length < (c :: r).length := by
      have := ih h
      simp only [List.length_cons]; omega
    rw [nextOpening] at h
    split at h
    · split at h
      · simp only [Option.some.injEq,Prod.mk.injEq] at h
        obtain ⟨rfl,rfl⟩ := h
        unfold Delimiter.size
        split <;> simp only [List.length_drop,List.length_cons] <;> omega
      · exact step h
    · exact step h

/-- The token of a raw text that starts at `start`, less the blanks that its neighbours take. -/
def rawToken (start : Nat) (text : List Char) (trimStart trimEnd : Bool) : Token :=
  let body := if trimEnd then Text.trimEnd text else text
  let kept := if trimStart then Text.trimStart body else body
  let first := start + (Text.byteSize body - Text.byteSize kept)
  ⟨.raw (String.ofList kept),⟨first,first + Text.byteSize kept⟩⟩

/-- The text of a comment and whether the mark in front of the closing delimiter trims. -/
def commentBody (text : List Char) : List Char × Bool :=
  if text.getLast? = some '-' then (text.dropLast,true) else (text,false)

/-- Scans `cs`, which starts at the byte `start`. -/
def run [Alphabet] (mode : Mode) (start : Nat) (cs : List Char) : Scan :=
  match mode with
  | .raw trimStart =>
    match _h : nextOpening cs with
    | (text,none) =>
      if text = [] then ⟨[],none⟩ else ⟨[rawToken start text trimStart false],none⟩
    | (text,some (d,rest)) =>
      let first := start + Text.byteSize text
      let span : Span := ⟨first,first + d.size⟩
      let next : Mode := if d.region = .comment then .comment span else .inside span d.region false
      let tail := cons ⟨.opening d.region,span⟩ (run next span.stop rest)
      if text = [] then tail else cons (rawToken start text trimStart d.trims) tail
  | .inside opening region afterDot =>
    match cs with
    | [] => stop (.unclosedRegion region) opening
    | c :: r =>
      match Delimiter.at? (c :: r) with
      | some d =>
        let span : Span := ⟨start,start + d.size⟩
        if d.opens then stop (.unclosedRegion region) opening
        else if d.region ≠ region then stop (.strayClosing d.region) span
        else cons ⟨.closing region,span⟩ (run (.raw d.trims) span.stop (r.drop (d.size - 1)))
      | none =>
        match Lexeme.read afterDot c r with
        | .error (cause,n) =>
          stop cause ⟨start,start + Text.byteSize ((c :: r).take n)⟩
        | .ok (lexeme,n) =>
          let next := start + Text.byteSize (c :: r.take n)
          match lexeme with
          | none => run (.inside opening region afterDot) next (r.drop n)
          | some l =>
            cons ⟨l,⟨start,next⟩⟩
              (run (.inside opening region (l == .symbol .dot)) next (r.drop n))
  | .comment opening =>
    match _h : Text.cut? ['#','}'] cs with
    | none => stop (.unclosedRegion .comment) opening
    | some (text,rest) =>
      let (body,trims) := commentBody text
      let first := start + Text.byteSize body
      let span : Span := ⟨first,start + Text.byteSize text + 2⟩
      let tail := cons ⟨.closing .comment,span⟩ (run (.raw trims) span.stop rest)
      if body = [] then tail
      else cons ⟨.raw (String.ofList body),⟨start,first⟩⟩ tail
termination_by cs.length
decreasing_by
  · exact length_of_nextOpening (by rw [_h])
  · simp only [List.length_drop,List.length_cons]; omega
  · simp only [List.length_drop,List.length_cons]; omega
  · simp only [List.length_drop,List.length_cons]; omega
  · have := Text.length_of_cut?_eq_some _h
    simp only [List.length_cons] at this; omega

end Scan

def scan [Alphabet] (source : String) : Scan := Scan.run (.raw false) 0 source.toList

end Stencil
