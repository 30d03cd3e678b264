import Stencil.Number.Integer
import Stencil.Number.Shortest
import Stencil.Text.Quoted
import Stencil.Text.Span
import Stencil.Value.Basic

/-!
Terms: the expressions of the language. Every part of a term knows its place in the source.

`Term.toText` writes a term with all its parentheses, so that it reads back as the same term.
-/

set_option autoImplicit false

namespace Stencil

inductive Literal where
  | null
  | bool (b : Bool)
  | int (n : Int64)
  | float (x : Binary64)
  | str (s : String)
  deriving DecidableEq, Repr

namespace Literal

def toValue : Literal → Value
  | .null => .none
  | .bool b => .bool b
  | .int n => .int n
  | .float x => .float x
  | .str s => .str s

def toText : Literal → String
  | .null => "null"
  | .bool true => "true"
  | .bool false => "false"
  | .int n => Integer.toText n
  | .float x => x.toText
  | .str s => Text.quote s

def isSigned : Literal → Bool
  | .int n => n < 0
  | .float x => x.isNegative
  | _ => false

end Literal

inductive UnaryOp where
  | neg | not
  deriving DecidableEq, Repr

def UnaryOp.symbol : UnaryOp → String
  | .neg => "-"
  | .not => "!"

inductive BinaryOp where
  | or | and | eq | ne | lt | gt | le | ge | isIn | add | sub | mul | div | rem
  deriving DecidableEq, Repr

def BinaryOp.symbol : BinaryOp → String
  | .or => "||"
  | .and => "&&"
  | .eq => "=="
  | .ne => "!="
  | .lt => "<"
  | .gt => ">"
  | .le => "<="
  | .ge => ">="
  | .isIn => "in"
  | .add => "+"
  | .sub => "-"
  | .mul => "*"
  | .div => "/"
  | .rem => "%"

inductive Term where
  | literal (value : Literal) (span : Span)
  | var (name : Located String)
  | unary (op : UnaryOp) (operand : Term) (span : Span)
  | binary (op : BinaryOp) (left right : Term) (span : Span)
  | call (function : Located String) (args : List Term) (span : Span)
  | index (container key : Term) (span : Span)
  | slice (container : Term) (start stop step : Option Term) (span : Span)
  | list (items : List Term) (span : Span)

namespace Term

/-- The place of a term. Parentheses around a term are not part of it. -/
def span : Term → Span
  | .literal _ s => s
  | .var n => n.span
  | .unary _ _ s => s
  | .binary _ _ _ s => s
  | .call _ _ s => s
  | .index _ _ s => s
  | .slice _ _ _ _ s => s
  | .list _ s => s

/-- Whether the written form starts with a prefix operator or a sign, so that what follows it would
bind tighter. -/
def isPrefixed : Term → Bool
  | .unary .. => true
  | .literal l _ => l.isSigned
  | _ => false

mutual

/-- The written form of a term, fully parenthesized. -/
def toText : Term → String
  | .literal l _ => l.toText
  | .var n => n.value
  | .unary op t _ => op.symbol ++ t.toText
  | .binary op l r _ => "(" ++ l.toText ++ " " ++ op.symbol ++ " " ++ r.toText ++ ")"
  | .call f args _ => f.value ++ "(" ++ listText args ++ ")"
  | .index c k _ =>
    (if c.isPrefixed then "(" ++ c.toText ++ ")" else c.toText) ++ "[" ++ k.toText ++ "]"
  | .slice c start stop step _ =>
    (if c.isPrefixed then "(" ++ c.toText ++ ")" else c.toText)
      ++ "[" ++ boundText start ++ ":" ++ boundText stop
      ++ (if step.isSome then ":" ++ boundText step else "") ++ "]"
  | .list items _ => "[" ++ listText items ++ "]"

def listText : List Term → String
  | [] => ""
  | t :: ts => t.toText ++ moreText ts

def moreText : List Term → String
  | [] => ""
  | t :: ts => ", " ++ t.toText ++ moreText ts

def boundText : Option Term → String
  | none => ""
  | some t => t.toText

end

end Term

end Stencil
