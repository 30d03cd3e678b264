import Stencil.Term.Basic

set_option autoImplicit false

namespace Stencil

/-- The variables of a loop: one for each item, or several that each item is spread over. -/
inductive LoopVars where
  | single (name : Located String)
  | several (names : List (Located String)) (span : Span)
  deriving DecidableEq, Repr

inductive Tag where
  | ifTag (condition : Term)
  | elifTag (condition : Term)
  | elseTag
  | endifTag
  | forTag (vars : LoopVars) (iterable : Term)
  | endforTag
  | setTag (name : Located String) (value : Term)
  | letTag (name : Located String) (value : Term)
  | includeTag (path : Located String) (bindings : List (Located String × Term))
  | textTag (path : Located String)

def Tag.name : Tag → String
  | .ifTag _ => "if"
  | .elifTag _ => "elif"
  | .elseTag => "else"
  | .endifTag => "endif"
  | .forTag _ _ => "for"
  | .endforTag => "endfor"
  | .setTag _ _ => "set"
  | .letTag _ _ => "let"
  | .includeTag _ _ => "include"
  | .textTag _ => "text"

inductive Piece where
  | text (content : String) (span : Span)
  | echo (term : Term) (span : Span)
  | tag (tag : Tag) (span : Span)

def Piece.span : Piece → Span
  | .text _ s => s
  | .echo _ s => s
  | .tag _ s => s

end Stencil
