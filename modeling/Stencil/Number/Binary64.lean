import Stencil.Number.Format

/-!
Double-precision numbers and their arithmetic.

A number is a sign and a rank of `Format.binary64`. The bit patterns above the rank of infinity are
not-a-number, each with its sign and its payload. Every operation is the exact one on whole units
followed by one rounding.
-/

set_option autoImplicit false

namespace Stencil

/-- A double: not a number, or a sign and a rank, the last rank being infinity. The payload is the
fraction less one, as a fraction of zero is infinity. -/
inductive Binary64 where
  | nan (negative : Bool) (payload : Fin (Format.binary64.binade - 1))
  | number (negative : Bool) (rank : Fin (Format.binary64.infinity + 1))
  deriving DecidableEq, Repr

namespace Binary64

def ofRatio (negative : Bool) (num den : Nat) : Binary64 :=
  .number negative ⟨Format.binary64.round num den,
    Nat.lt_succ_of_le (Nat.min_le_left _ _)⟩

def zero (negative : Bool) : Binary64 := .number negative 0

def infinity (negative : Bool) : Binary64 := .number negative (Fin.last _)

def isNaN : Binary64 → Bool
  | .nan .. => true
  | .number .. => false

def isFinite : Binary64 → Bool
  | .nan .. => false
  | .number _ r => r.val < Format.binary64.infinity

/-- Whether the sign is minus; zero has a sign too, and so has not-a-number. -/
def isNegative : Binary64 → Bool
  | .nan s _ => s
  | .number s _ => s

/-- The size in units of the smallest positive number; zero where there is none. -/
def units : Binary64 → Nat
  | .nan .. => 0
  | .number _ r => Format.binary64.units r

def one : Nat := Format.binary64.one

def signedUnits (x : Binary64) : Int :=
  if x.isNegative then -(x.units : Int) else x.units

def isZero : Binary64 → Bool
  | .nan .. => false
  | .number _ r => r.val == 0

def isIntegral (x : Binary64) : Bool := x.isFinite && x.units % one == 0

def ofInt (i : Int) : Binary64 := ofRatio (i < 0) i.natAbs 1

def truncate (x : Binary64) : Int :=
  if x.isFinite then
    if x.isNegative then -((x.units / one : Nat) : Int) else (x.units / one : Nat)
  else 0

def neg : Binary64 → Binary64
  | .nan s p => .nan (!s) p
  | .number s r => .number (!s) r

def quiet : Fin (Format.binary64.binade - 1) := ⟨Nat.pow 2 51 - 1,by decide⟩

/-- The result of an invalid operation. The platform chooses its sign and payload; these are those of
the x86 processors. -/
def invalid : Binary64 := .nan true quiet

/-- A not-a-number behind an operation, which marks it quiet. -/
def quieted : Binary64 → Binary64
  | .nan s p => .nan s (if h : p < quiet then ⟨p + (quiet + 1),by
      have : p.val < 2 ^ 51 - 1 := h
      show p.val + (2 ^ 51 - 1 + 1) < 2 ^ 52 - 1
      omega⟩ else p)
  | .number s r => .number s r

/-- What an operation hands on where an operand is not a number: the first such operand. -/
def passed (x y : Binary64) : Binary64 := if x.isNaN then x.quieted else y.quieted

/-- The sum. A sum of nothing is negative only where both terms are. -/
def add (x y : Binary64) : Binary64 :=
  if x.isNaN || y.isNaN then passed x y
  else if x.isFinite && y.isFinite then
    let sum := x.signedUnits + y.signedUnits
    if sum = 0 then zero (x.isNegative && y.isNegative)
    else ofRatio (sum < 0) sum.natAbs one
  else if x.isFinite then y
  else if y.isFinite then x
  else if x.isNegative = y.isNegative then x
  else invalid

def mul (x y : Binary64) : Binary64 :=
  let negative := x.isNegative != y.isNegative
  if x.isNaN || y.isNaN then passed x y
  else if x.isFinite && y.isFinite then ofRatio negative (x.units * y.units) (one * one)
  else if x.isZero || y.isZero then invalid
  else infinity negative

def div (x y : Binary64) : Binary64 :=
  let negative := x.isNegative != y.isNegative
  if x.isNaN || y.isNaN then passed x y
  else if x.isFinite then
    if !y.isFinite then zero negative
    else if !y.isZero then ofRatio negative x.units y.units
    else if x.isZero then invalid
    else infinity negative
  else if y.isFinite then infinity negative
  else invalid

/-- The remainder of the division truncated toward zero; it has the sign of the dividend. -/
def rem (x y : Binary64) : Binary64 :=
  if x.isNaN || y.isNaN then passed x y
  else if !x.isFinite || y.isZero then invalid
  else if !y.isFinite then x
  else ofRatio x.isNegative (x.units % y.units) one

def rank : Binary64 → Nat
  | .nan _ p => Format.binary64.infinity + 1 + p
  | .number _ r => r

/-- The place in the total order: from the negative not-a-number with the largest payload over minus
infinity to minus zero, then from zero over infinity to the positive ones. -/
def position (x : Binary64) : Int :=
  if x.isNegative then -(x.rank : Int) - 1 else x.rank

/-- The total order, in which minus zero is below zero and a not-a-number is equal to itself. -/
def compareTotal (x y : Binary64) : Ordering := compare x.position y.position

/-- Arithmetical equality: the two zeros are equal and not-a-number is equal to nothing. -/
def sameNumber : Binary64 → Binary64 → Bool
  | .number s r, .number t q => r == q && (s == t || r == 0)
  | _, _ => false

def ofRatio32 (negative : Bool) (num den : Nat) : Binary64 :=
  let r := Format.binary32.round num den
  if r < Format.binary32.infinity then
    ofRatio negative (Format.binary32.units r) Format.binary32.one
  else infinity negative

end Binary64

end Stencil
