import Stencil.Text.Span

set_option autoImplicit false

namespace Stencil

inductive Region where
  | expression | block | comment
  deriving DecidableEq, Repr

def Region.name : Region → String
  | .expression => "expression"
  | .block => "block"
  | .comment => "comment"

/-- A delimiter opens or closes a region; with a trim mark it also takes the blanks of the raw text
on its outer side. -/
structure Delimiter where
  opens : Bool
  region : Region
  trims : Bool
  deriving DecidableEq, Repr

namespace Delimiter

def at? : List Char → Option Delimiter
  | '{' :: '{' :: r => some ⟨true,.expression,r.head? = some '-'⟩
  | '{' :: '%' :: r => some ⟨true,.block,r.head? = some '-'⟩
  | '{' :: '#' :: r => some ⟨true,.comment,r.head? = some '-'⟩
  | '-' :: '}' :: '}' :: _ => some ⟨false,.expression,true⟩
  | '}' :: '}' :: _ => some ⟨false,.expression,false⟩
  | '-' :: '%' :: '}' :: _ => some ⟨false,.block,true⟩
  | '%' :: '}' :: _ => some ⟨false,.block,false⟩
  | '-' :: '#' :: '}' :: _ => some ⟨false,.comment,true⟩
  | '#' :: '}' :: _ => some ⟨false,.comment,false⟩
  | _ => none

def size (d : Delimiter) : Nat := if d.trims then 3 else 2

end Delimiter

inductive Symbol where
  | lparen | rparen | lbracket | rbracket | comma | dot | colon | assign
  | eq | ne | lt | gt | le | ge | andAnd | orOr | bang
  | plus | minus | star | slash | percent
  deriving DecidableEq, Repr

namespace Symbol

def pair? : Char → Char → Option Symbol
  | '=', '=' => some .eq
  | '!', '=' => some .ne
  | '<', '=' => some .le
  | '>', '=' => some .ge
  | '&', '&' => some .andAnd
  | '|', '|' => some .orOr
  | _, _ => none

def single? : Char → Option Symbol
  | '(' => some .lparen
  | ')' => some .rparen
  | '[' => some .lbracket
  | ']' => some .rbracket
  | ',' => some .comma
  | '.' => some .dot
  | ':' => some .colon
  | '=' => some .assign
  | '!' => some .bang
  | '<' => some .lt
  | '>' => some .gt
  | '+' => some .plus
  | '-' => some .minus
  | '*' => some .star
  | '/' => some .slash
  | '%' => some .percent
  | _ => none

def describe : Symbol → String
  | .lparen => "`(`"
  | .rparen => "`)`"
  | .lbracket => "`[`"
  | .rbracket => "`]`"
  | .comma => "comma"
  | .dot => "member access operator"
  | .colon => "colon"
  | .assign => "`=`"
  | .eq => "`==`"
  | .ne => "`!=`"
  | .lt => "`<`"
  | .gt => "`>`"
  | .le => "`<=`"
  | .ge => "`>=`"
  | .andAnd => "`&&`"
  | .orOr => "`||`"
  | .bang => "`!`"
  | .plus => "plus"
  | .minus => "minus"
  | .star => "`*`"
  | .slash => "`/`"
  | .percent => "`%`"

end Symbol

inductive Keyword where
  | inKw | andKw | orKw | notKw | trueKw | falseKw | nullKw
  deriving DecidableEq, Repr

namespace Keyword

def text : Keyword → String
  | .inKw => "in"
  | .andKw => "and"
  | .orKw => "or"
  | .notKw => "not"
  | .trueKw => "true"
  | .falseKw => "false"
  | .nullKw => "null"

def all : List Keyword := [.inKw,.andKw,.orKw,.notKw,.trueKw,.falseKw,.nullKw]

def ofText? (s : String) : Option Keyword := all.find? fun k => k.text = s

end Keyword

/-- What a token is. A number and a string are kept as they are written, a string without its
quotes. -/
inductive Lexeme where
  | raw (text : String)
  | opening (region : Region)
  | closing (region : Region)
  | symbol (s : Symbol)
  | keyword (k : Keyword)
  | name (n : String)
  | number (text : String)
  | string (body : String)
  deriving DecidableEq, Repr

def Lexeme.describe : Lexeme → String
  | .raw _ => "raw template"
  | .opening r => "begin " ++ r.name
  | .closing r => "end " ++ r.name
  | .symbol s => s.describe
  | .keyword _ => "keyword"
  | .name _ => "identifier"
  | .number _ => "number"
  | .string _ => "string"

structure Token where
  lexeme : Lexeme
  span : Span
  deriving DecidableEq, Repr

end Stencil
