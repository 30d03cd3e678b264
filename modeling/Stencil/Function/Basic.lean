import Stencil.Scope
import Stencil.Value.Number

/-!
Functions that terms can call.

A function gets the values of its arguments and sees the scope of the call. Its result is a value or
a message. `Args` gives access to the arguments by position.
-/

set_option autoImplicit false

namespace Stencil

structure Args where
  values : List Value
  scope : Scope

abbrev Function := Args → Except String Value

namespace Args

def nat (n : Nat) : String := Integer.textOfInt n

def expect (args : Args) (n : Nat) : Except String Unit :=
  if args.values.length = n then .ok ()
  else .error ("expected " ++ nat n ++ " argument" ++ (if n = 1 then "" else "s") ++ ", found "
    ++ nat args.values.length)

def get (args : Args) (i : Nat) : Except String Value :=
  match args.values[i]? with
  | some v => .ok v
  | none => .error ("missing argument " ++ nat (i + 1))

def mismatch (i : Nat) (wanted : String) (found : Value) : String :=
  "expected " ++ wanted ++ " for argument " ++ nat (i + 1) ++ ", found " ++ found.kind.name

def string (args : Args) (i : Nat) : Except String String := do
  let v ← args.get i
  match v.asText? with
  | some s => return s
  | none => throw (mismatch i "string" v)

def withMessage {α : Type} : Except Cause α → Except String α
  | .ok a => .ok a
  | .error c => .error c.message

def integer (args : Args) (i : Nat) : Except String Int64 := do
  withMessage (← args.get i).toInteger

def float (args : Args) (i : Nat) : Except String Binary64 := do
  return (← withMessage (← args.get i).toNumber).toFloat

def bool (args : Args) (i : Nat) : Except String Bool := do
  match ← args.get i with
  | .bool b => return b
  | v => throw (mismatch i "bool" v)

def list (args : Args) (i : Nat) : Except String (List Value) := do
  match ← args.get i with
  | .list items => return items
  | v => throw (mismatch i "list" v)

end Args

end Stencil
