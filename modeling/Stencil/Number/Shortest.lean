import Stencil.Number.Decimal

/-!
Decimal notation of doubles: writing.

A whole number is written with all its digits and `.0`. Any other number is written with the
fewest digits that read back as it: on the grid of `n` digits only the two points beside the
number can read back, so `n` runs upwards until one of them does, and of two the nearer is taken.
The search starts at no digits, where the upper point is the power of ten above the number. The
notation is always positional.
-/

set_option autoImplicit false

namespace Stencil

namespace Decimal

/-- The least `k` with `num / den < 10 ^ k`, for a positive quotient. -/
def magnitude (num den : Nat) : Int :=
  if den ≤ num then (toDigits (num / den)).length
  else
    let q := (den + num - 1) / num
    1 - (toDigits (q - 1)).length

def scaleDown (num den : Nat) (e : Int) : Nat × Nat :=
  if 0 ≤ e then (num,den * powerOfTen e.toNat) else (num * powerOfTen (-e).toNat,den)

/-- Of the two points of the grid `10 ^ e` beside `num / den` the nearest one that satisfies the
test, the upper one in a tie. -/
def beside? (num den : Nat) (e : Int) (test : Nat → Bool) : Option Nat :=
  let (a,b) := scaleDown num den e
  let q := a / b
  match test q, test (q + 1) with
  | true, true => some (if 2 * (a % b) < b then q else q + 1)
  | true, false => some q
  | false, true => some (q + 1)
  | false, false => none

/-- Searches the grids of `n`, `n + 1`, … digits below `10 ^ k`; `fuel` many of them. -/
def search (num den : Nat) (k : Int) (test : Nat → Int → Bool) : (fuel n : Nat) → Option (Nat × Int)
  | 0, _ => none
  | fuel + 1, n =>
    let e := k - n
    match beside? num den e (test · e) with
    | some m => some (m,e)
    | none => search num den k test fuel (n + 1)

def positional (m : Nat) (e : Int) : List Char :=
  let ds := toDigits m
  if 0 ≤ e then ds ++ List.replicate e.toNat '0'
  else
    let places := (-e).toNat
    let padded := List.replicate (places + 1 - ds.length) '0' ++ ds
    padded.take (padded.length - places) ++ '.' :: padded.drop (padded.length - places)

end Decimal

namespace Binary64

open Decimal

/-- The fewest digits, and their power of ten, that read back as the size of a finite number. The
exact expansion stands behind the search. -/
def shortest (x : Binary64) : Nat × Int :=
  let readsBack (m : Nat) (e : Int) : Bool := (ofDecimal x.isNegative m e) == x
  match search x.units one (magnitude x.units one) readsBack 18 0 with
  | some d => d
  | none => (x.units * Nat.pow 5 Format.binary64.unit,-(Format.binary64.unit : Int))

def digits (x : Binary64) : List Char :=
  if x.isIntegral then toDigits (x.units / one) ++ ['.','0']
  else positional x.shortest.1 x.shortest.2

def toText (x : Binary64) : String :=
  if x.isNaN then "NaN"
  else
    let body := if x.isFinite then String.ofList x.digits else "inf"
    if x.isNegative then "-" ++ body else body

end Binary64

end Stencil
