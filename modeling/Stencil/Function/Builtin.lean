import Stencil.Function.Basic
import Stencil.Text.Blank
import Stencil.Text.Case
import Stencil.Value.Access
import Stencil.Value.Text

set_option autoImplicit false

namespace Stencil.Builtin

def bool : Function := fun args => do
  args.expect 1
  return .bool (← args.get 0).isTrue

def int : Function := fun args => do
  args.expect 1
  match ← args.get 0 with
  | .bool b => return .int (if b then 1 else 0)
  | _ => return .int (← args.integer 0)

def float : Function := fun args => do
  args.expect 1
  match ← args.get 0 with
  | .bool b => return .float (Binary64.ofInt (if b then 1 else 0))
  | _ => return .float (← args.float 0)

def str : Function := fun args => do
  args.expect 1
  return .str (← args.get 0).toText

def size (n : Nat) : Value := .int (Int64.ofNat n)

def len : Function := fun args => do
  args.expect 1
  match ← args.get 0 with
  | .str s | .safe s => return size s.length
  | .list items => return size items.length
  | .map entries => return size entries.length
  | v => throw ("cannot take the length of " ++ v.kind.name)

/-- The value that leads in the end, where each value in turn takes the lead if it compares as
`wanted` with the one that has it. -/
def best (wanted : Ordering) (leader : Value) : List Value → Except String Value
  | [] => .ok leader
  | v :: vs => do
    let order ← Args.withMessage (v.compareNumbers leader)
    best wanted (if order = wanted then v else leader) vs

/-- The smallest or largest argument, or item of an only argument that is a list. -/
def extremum (wanted : Ordering) : Function := fun args =>
  let candidates := match args.values with
    | [.list items] => items
    | vs => vs
  match candidates with
  | [] => .error "expected at least one value"
  | v :: vs => best wanted v vs

def min : Function := extremum .lt

/-- The greatest candidate: a larger one takes the lead. -/
def max : Function := extremum .gt

def range : Function := fun args => do
  let (start,stop,step) ← match args.values.length with
    | 1 => do pure ((0 : Int64),← args.integer 0,(1 : Int64))
    | 2 => do pure (← args.integer 0,← args.integer 1,(1 : Int64))
    | 3 => do pure (← args.integer 0,← args.integer 1,← args.integer 2)
    | n => throw ("expected 1 to 3 arguments, found " ++ Args.nat n)
  if step = 0 then throw "range step cannot be zero"
  return .list ((Integer.progression stop step start).map .int)

def contains : Function := fun args => do
  args.expect 2
  return .bool (← Args.withMessage ((← args.get 0).contains (← args.get 1)))

def onText (f : List Char → List Char) : Function := fun args => do
  args.expect 1
  return .str (String.ofList (f (← args.string 0).toList))

def lower : Function := onText Text.lower

def upper : Function := onText Text.upper

def capitalize : Function := onText Text.capitalize

def trim : Function := onText Text.trim

def replace : Function := fun args => do
  args.expect 3
  let s ← args.string 0
  let old ← args.string 1
  let new ← args.string 2
  return .str (String.ofList (Text.replaceAll old.toList new.toList s.toList))

def startsWith : Function := fun args => do
  args.expect 2
  let s ← args.string 0
  let t ← args.string 1
  return .bool (t.toList.isPrefixOf s.toList)

def endsWith : Function := fun args => do
  args.expect 2
  let s ← args.string 0
  let t ← args.string 1
  return .bool (t.toList.isSuffixOf s.toList)

def wrongCount (n : Nat) : String := "expected 1 or 2 arguments, found " ++ Args.nat n

def join : Function := fun args => do
  let separator ← match args.values.length with
    | 1 => pure ""
    | 2 => args.string 1
    | n => throw (wrongCount n)
  let items ← args.list 0
  return .str (String.ofList
    (Text.joinWith separator.toList (items.map fun v => v.toText.toList)))

def split : Function := fun args => do
  let s ← args.string 0
  let pieces ← match args.values.length with
    | 1 => pure (Text.words s.toList)
    | 2 => do
      let separator ← args.string 1
      if separator.isEmpty then throw "separator cannot be empty"
      pure (Text.splitAt separator.toList s.toList)
    | n => throw (wrongCount n)
  return .list (pieces.map fun cs => .str (String.ofList cs))

def safe : Function := fun args => do
  args.expect 1
  return .safe (← args.get 0).toText

def defined : Function := fun args => do
  args.expect 1
  return .bool (args.scope.contains (← args.string 0))

def get : Function := fun args => do
  let fallback ← match args.values.length with
    | 1 => pure .none
    | 2 => args.get 1
    | n => throw (wrongCount n)
  return (args.scope.get? (← args.string 0)).getD fallback

def locals : Function := fun args => do
  args.expect 0
  return .map args.scope.collect

def all : List (String × Function) :=
  [("bool",bool),("int",int),("float",float),("str",str),("len",len),("min",min),
   ("max",max),("range",range),("contains",contains),("lower",lower),("upper",upper),
   ("capitalize",capitalize),("trim",trim),("replace",replace),
   ("starts_with",startsWith),("ends_with",endsWith),("join",join),("split",split),
   ("safe",safe),("defined",defined),("get",get),("locals",locals)]

end Stencil.Builtin
