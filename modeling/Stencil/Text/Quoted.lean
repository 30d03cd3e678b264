set_option autoImplicit false

namespace Stencil.Text

def quoteChar (c : Char) : List Char :=
  if c = '"' then ['\\','"']
  else if c = '\\' then ['\\','\\']
  else if c = '\n' then ['\\','n']
  else if c = '\r' then ['\\','r']
  else if c = '\t' then ['\\','t']
  else [c]

def quote (s : String) : String :=
  String.ofList ('"' :: s.toList.flatMap quoteChar ++ ['"'])

def escapeTarget? (c : Char) : Option Char :=
  if c = 'n' then some '\n'
  else if c = 'r' then some '\r'
  else if c = 't' then some '\t'
  else if c = '\\' ∨ c = '"' ∨ c = '\'' then some c
  else none

/-- An escape without a meaning: how many bytes stand in front of its backslash, and how many bytes
it takes with the backslash. -/
structure BadEscape where
  offset : Nat
  size : Nat
  deriving DecidableEq, Repr

/-- The text that the body of a string literal stands for, or its first escape without a meaning;
`offset` bytes of the body came before. -/
def unescape (offset : Nat) : List Char → Except BadEscape (List Char)
  | [] => .ok []
  | c :: r =>
    if c = '\\' then
      match r with
      | [] => .error ⟨offset,1⟩
      | d :: r =>
        match escapeTarget? d with
        | some t => (unescape (offset + 1 + d.utf8Size) r).map (t :: ·)
        | none => .error ⟨offset,1 + d.utf8Size⟩
    else (unescape (offset + c.utf8Size) r).map (c :: ·)

end Stencil.Text
