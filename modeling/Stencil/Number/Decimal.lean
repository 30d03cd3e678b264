import Stencil.Number.Binary64

/-!
Decimal notation of doubles: reading.

A decimal is a natural number of digits and a power of ten. `Binary64.ofDecimal` gives the double
nearest to it, and `Binary64.ofText?` reads the notation: a sign, digits with an optional point, an
optional exponent; or one of the names of the numbers that have no digits.
-/

set_option autoImplicit false

namespace Stencil

namespace Decimal

def isDigit (c : Char) : Bool := '0' ≤ c && c ≤ '9'

def digitValue (c : Char) : Nat := c.toNat - '0'.toNat

def ofDigits (cs : List Char) : Nat := cs.foldl (fun n c => 10 * n + digitValue c) 0

def toDigits (n : Nat) : List Char := Nat.toDigits 10 n

def splitSign : List Char → Bool × List Char
  | '-' :: r => (true,r)
  | '+' :: r => (false,r)
  | cs => (false,cs)

def exponent? : List Char → Option Int
  | [] => some 0
  | c :: r =>
    if c = 'e' ∨ c = 'E' then
      let (negative,ds) := splitSign r
      if ds ≠ [] ∧ ds.all isDigit then
        some (if negative then -(ofDigits ds : Int) else ofDigits ds)
      else none
    else none

/-- A number without sign as its digits and its power of ten. -/
def parts? (cs : List Char) : Option (Nat × Int) :=
  let whole := cs.takeWhile isDigit
  let rest := cs.dropWhile isDigit
  let (frac,tail) := match rest with
    | '.' :: r => (r.takeWhile isDigit,r.dropWhile isDigit)
    | _ => ([],rest)
  if whole = [] ∧ frac = [] then none
  else (exponent? tail).map fun e => (ofDigits (whole ++ frac),e - frac.length)

def powerOfTen (n : Nat) : Nat := Nat.pow 10 n

/-- The numerator and denominator of `m * 10 ^ e`. A power of ten far outside the range of any
format is cut there: the quotient is zero or beyond the largest number either way. -/
def ratio (m : Nat) (e : Int) : Nat × Nat :=
  let size : Int := m.log2 / 3 + 1
  if m = 0 then (0,1)
  else if 400 < e then (powerOfTen 400,1)
  else if size + e < -400 then (0,1)
  else if 0 ≤ e then (m * powerOfTen e.toNat,1)
  else (m,powerOfTen (-e).toNat)

end Decimal

namespace Binary64

open Decimal

def ofDecimal (negative : Bool) (m : Nat) (e : Int) : Binary64 :=
  ofRatio negative (ratio m e).1 (ratio m e).2

def ofDecimal32 (negative : Bool) (m : Nat) (e : Int) : Binary64 :=
  ofRatio32 negative (ratio m e).1 (ratio m e).2

def readText? (ofParts : Bool → Nat → Int → Binary64) (cs : List Char) : Option Binary64 :=
  let (negative,body) := splitSign cs
  match parts? body with
  | some (m,e) => some (ofParts negative m e)
  | none =>
    let name := String.ofList (body.map Char.toLower)
    if name = "inf" ∨ name = "infinity" then some (infinity negative)
    else if name = "nan" then some (.nan negative quiet)
    else none

def ofText? (s : String) : Option Binary64 := readText? ofDecimal s.toList

def ofText32? (s : String) : Option Binary64 := readText? ofDecimal32 s.toList

end Binary64

end Stencil
