import Stencil.Json.Basic
import Stencil.Number.Integer

/-!
Reading JSON texts.

A number without fraction and exponent is an integer if 64 bits hold it; any other number is the
nearest float, which has to be finite. Minus zero is a float.
-/

set_option autoImplicit false

namespace Stencil.Json

/-- What is left of a text behind a first part of it. -/
abbrev Shorter (cs : List Char) := { rest : List Char // rest.length < cs.length }

def isBlank (c : Char) : Bool := c == ' ' || c == '\n' || c == '\t' || c == '\r'

def hexDigit? (c : Char) : Option Nat :=
  if '0' ≤ c ∧ c ≤ '9' then some (c.toNat - '0'.toNat)
  else if 'a' ≤ c ∧ c ≤ 'f' then some (c.toNat - 'a'.toNat + 10)
  else if 'A' ≤ c ∧ c ≤ 'F' then some (c.toNat - 'A'.toNat + 10)
  else none

def hex4? : List Char → Option (Nat × List Char)
  | a :: b :: c :: d :: r => do
    let a ← hexDigit? a
    let b ← hexDigit? b
    let c ← hexDigit? c
    let d ← hexDigit? d
    some (((a * 16 + b) * 16 + c) * 16 + d,r)
  | _ => none

/-- The character of an escape by number, behind the letter: one unit, or a pair of surrogates. -/
def unicodeEscape? (cs : List Char) : Option (Char × List Char) := do
  let (u,r) ← hex4? cs
  if u < 0xD800 ∨ 0xDFFF < u then some (Char.ofNat u,r)
  else if u < 0xDC00 then
    match r with
    | '\\' :: 'u' :: r => do
      let (v,r) ← hex4? r
      if 0xDC00 ≤ v ∧ v ≤ 0xDFFF then
        some (Char.ofNat (0x10000 + (u - 0xD800) * 0x400 + (v - 0xDC00)),r)
      else none
    | _ => none
  else none

def escape? : List Char → Option (Char × List Char)
  | 'b' :: r => some ('\x08',r)
  | 'f' :: r => some ('\x0c',r)
  | 'n' :: r => some ('\n',r)
  | 'r' :: r => some ('\r',r)
  | 't' :: r => some ('\t',r)
  | 'u' :: r => unicodeEscape? r
  | c :: r => if c = '"' ∨ c = '\\' ∨ c = '/' then some (c,r) else none
  | [] => none

/-- The characters of a string behind its opening quote, up to the closing one; `fuel` bounds their
number. -/
def string? : (fuel : Nat) → List Char → Option (List Char × List Char)
  | 0, _ => none
  | _, [] => none
  | fuel + 1, c :: r =>
    if c = '"' then some ([],r)
    else if c.toNat < 0x20 then none
    else do
      let (d,r) ← if c = '\\' then escape? r else some (c,r)
      let (ds,r) ← string? fuel r
      some (d :: ds,r)

def wholePart? (cs : List Char) : Option (List Char × List Char) :=
  match cs.takeWhile Decimal.isDigit with
  | [] => none
  | ['0'] => some (['0'],cs.drop 1)
  | '0' :: _ => none
  | ds => some (ds,cs.drop ds.length)

def fraction? : List Char → Option (List Char × List Char)
  | '.' :: r =>
    match r.takeWhile Decimal.isDigit with
    | [] => none
    | ds => some (ds,r.drop ds.length)
  | cs => some ([],cs)

def exponentText (cs : List Char) : List Char :=
  match cs with
  | c :: r =>
    if c = 'e' ∨ c = 'E' then
      match r with
      | s :: t =>
        if s = '+' ∨ s = '-' then c :: s :: t.takeWhile Decimal.isDigit
        else c :: r.takeWhile Decimal.isDigit
      | [] => [c]
    else []
  | [] => []

def integerOf (negative : Bool) (n : Nat) : JsonNumber :=
  if negative then
    match Integer.ofInt? (-n) with
    | some i => if n = 0 then .float (Binary64.zero true) else .neg i
    | none => .float (Binary64.ofDecimal true n 0)
  else if n < UInt64.size then .nat (UInt64.ofNat n)
  else .float (Binary64.ofDecimal false n 0)

def number? (cs : List Char) : Option (JsonNumber × List Char) := do
  let (negative,body) := match cs with
    | '-' :: r => (true,r)
    | _ => (false,cs)
  let (whole,r₁) ← wholePart? body
  let (frac,r₂) ← fraction? r₁
  let exponentCs := exponentText r₂
  let e ← Decimal.exponent? exponentCs
  let m := Decimal.ofDigits (whole ++ frac)
  let n :=
    if frac.isEmpty && exponentCs.isEmpty then integerOf negative m
    else .float (Binary64.ofDecimal negative m (e - frac.length))
  let finite := match n with
    | .float x => x.isFinite
    | _ => true
  if finite then some (n,r₂.drop exponentCs.length) else none

def shorten? {α : Type} (cs : List Char) : Option (α × List Char) → Option (α × Shorter cs)
  | some (a,rest) => if h : rest.length < cs.length then some (a,⟨rest,h⟩) else none
  | none => none

def Shorter.trans {cs ds : List Char} (h : ds.length ≤ cs.length) : Shorter ds → Shorter cs
  | ⟨rest,hr⟩ => ⟨rest,Nat.lt_of_lt_of_le hr h⟩

def next? : (cs : List Char) → Option (Char × Shorter cs)
  | [] => none
  | c :: r =>
    if isBlank c then (next? r).map fun ⟨d,s⟩ => (d,s.trans (Nat.le_succ _))
    else some (c,⟨r,Nat.lt_succ_self _⟩)

def word? (w : String) (j : Json) (cs : List Char) : Option (Json × Shorter cs) :=
  if w.toList.isPrefixOf cs then shorten? cs (some (j,cs.drop w.length)) else none

mutual

def value? (cs : List Char) : Option (Json × Shorter cs) :=
  match cs with
  | [] => none
  | c :: r =>
    if isBlank c then do
      let ⟨j,s⟩ ← value? r
      some (j,s.trans (Nat.le_succ _))
    else if c = '[' then
      match next? r with
      | some (']',s) => some (.arr [],s.trans (Nat.le_succ _))
      | _ => do
        let ⟨items,s⟩ ← items? r
        some (.arr items,s.trans (Nat.le_succ _))
    else if c = '\x7b' then
      match next? r with
      | some ('\x7d',s) => some (.obj [],s.trans (Nat.le_succ _))
      | _ => do
        let ⟨entries,s⟩ ← entries? r
        some (.obj (Table.ofList entries),s.trans (Nat.le_succ _))
    else if c = '"' then do
      let ⟨s,rest⟩ ← shorten? (c :: r) (string? (r.length + 1) r)
      some (.str (String.ofList s),rest)
    else if c = 't' then word? "true" (.bool true) (c :: r)
    else if c = 'f' then word? "false" (.bool false) (c :: r)
    else if c = 'n' then word? "null" .null (c :: r)
    else do
      let ⟨n,rest⟩ ← shorten? (c :: r) (number? (c :: r))
      some (.number n,rest)
termination_by 4 * cs.length

def items? (cs : List Char) : Option (List Json × Shorter cs) := do
  let ⟨j,r₁,h₁⟩ ← value? cs
  let ⟨d,r₂,h₂⟩ ← next? r₁
  if d = ',' then do
    let ⟨js,s⟩ ← items? r₂
    some (j :: js,s.trans (by omega))
  else if d = ']' then some ([j],⟨r₂,by omega⟩)
  else none
termination_by 4 * cs.length + 1

def entries? (cs : List Char) : Option (List (String × Json) × Shorter cs) := do
  let ⟨q,r₁,h₁⟩ ← next? cs
  if q ≠ '"' then none
  let ⟨k,r₂,h₂⟩ ← shorten? r₁ (string? (r₁.length + 1) r₁)
  let ⟨colon,r₃,h₃⟩ ← next? r₂
  if colon ≠ ':' then none
  let ⟨j,r₄,h₄⟩ ← value? r₃
  let ⟨d,r₅,h₅⟩ ← next? r₄
  if d = ',' then do
    let ⟨es,s⟩ ← entries? r₅
    some ((String.ofList k,j) :: es,s.trans (by omega))
  else if d = '\x7d' then some ([(String.ofList k,j)],⟨r₅,by omega⟩)
  else none
termination_by 4 * cs.length + 1

end

def ofText? (text : String) : Option Json := do
  let ⟨j,rest,_⟩ ← value? text.toList
  if rest.all isBlank then some j else none

end Stencil.Json
