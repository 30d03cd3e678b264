import Stencil.Cause
import Stencil.Number.Decimal
import Stencil.Number.Integer

/-!
Numbers in values: which values count as numbers, and arithmetic with them.

A text with a point counts as a float and any other text as an integer. The result of an operation
is an integer if both operands are, and a float otherwise. Integers do not wrap around: a result out
of range is an error.
-/

set_option autoImplicit false

namespace Stencil

inductive Number where
  | int (n : Int64)
  | float (x : Binary64)
  deriving DecidableEq, Repr

namespace Number

def toFloat : Number → Binary64
  | .int n => Binary64.ofInt n.toInt
  | .float x => x

def toValue : Number → Value
  | .int n => .int n
  | .float x => .float x

def ofText? (s : String) : Option Number :=
  if s.toList.contains '.' then (Binary64.ofText? s).map .float else (Integer.ofText? s).map .int

/-- The integer nearest to the number, its fractional part dropped; zero for not-a-number. -/
def toInt64 : Number → Int64
  | .int n => n
  | .float (.nan ..) => 0
  | .float x =>
    if x.isFinite then Integer.clamp x.truncate
    else if x.isNegative then Int64.minValue else Int64.maxValue

/-- Integers by value; where a float takes part, floats in their total order. -/
def compare : Number → Number → Ordering
  | .int a, .int b => Ord.compare a.toInt b.toInt
  | a, b => a.toFloat.compareTotal b.toFloat

end Number

namespace Value

def toNumber : Value → Except Cause Number
  | .int n => .ok (.int n)
  | .float x => .ok (.float x)
  | .str s | .safe s =>
    match Number.ofText? s with
    | some n => .ok n
    | Option.none => .error (.notNumeric s)
  | v => .error (.expectedNumber v.kind)

def toInteger (v : Value) : Except Cause Int64 := v.toNumber.map Number.toInt64

def checked (operation : Operation) (i : Int) : Except Cause Int64 :=
  match Integer.ofInt? i with
  | some n => .ok n
  | Option.none => .error (.overflow operation)

def arithmetic (onInts : Int64 → Int64 → Except Cause Int64)
    (onFloats : Binary64 → Binary64 → Binary64) (a b : Value) : Except Cause Value := do
  match ← a.toNumber, ← b.toNumber with
  | .int m, .int n => return .int (← onInts m n)
  | m, n => return .float (onFloats m.toFloat n.toFloat)

def add : Value → Value → Except Cause Value :=
  arithmetic (fun m n => checked .addition (m.toInt + n.toInt)) Binary64.add

def negate (v : Value) : Except Cause Value := do
  match ← v.toNumber with
  | .int n => return .int (← checked .negation (-n.toInt))
  | .float x => return .float x.neg

def sub (a b : Value) : Except Cause Value := do a.add (← b.negate)

def mul : Value → Value → Except Cause Value :=
  arithmetic (fun m n => checked .multiplication (m.toInt * n.toInt)) Binary64.mul

def div : Value → Value → Except Cause Value :=
  arithmetic (fun m n =>
      if n = 0 then .error .divisionByZero else checked .division (m.toInt.tdiv n.toInt))
    Binary64.div

/-- The remainder of the truncated quotient. The smallest integer has no remainder by minus one,
since that quotient is out of range. -/
def rem : Value → Value → Except Cause Value :=
  arithmetic (fun m n =>
      if n = 0 then .error .remainderByZero
      else if m = Int64.minValue ∧ n = -1 then .error (.overflow .remainder)
      else checked .remainder (m.toInt.tmod n.toInt))
    Binary64.rem

def compareNumbers (a b : Value) : Except Cause Ordering := do
  return (← a.toNumber).compare (← b.toNumber)

end Value

end Stencil
