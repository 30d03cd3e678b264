import Stencil.Cause
import Stencil.Text.Display

/-!
Errors as they are reported: a cause, perhaps with its place in a source, perhaps with the name of
the template.

An error keeps the first place and the first name that it is given. It is written in one line, with
line and column, or as an excerpt of the source with the place underlined.
-/

set_option autoImplicit false

namespace Stencil

structure Place where
  source : String
  span : Span
  deriving DecidableEq, Repr

structure Error where
  cause : Cause
  place : Option Place := none
  name : Option String := none
  deriving DecidableEq, Repr

namespace Place

def before (p : Place) : List Char :=
  let cs := p.source.toList
  (Text.upTo? cs p.span.start).getD cs

def line (p : Place) : Nat := p.before.count '\n' + 1

def column (p : Place) : Nat := (p.before.reverse.takeWhile (· ≠ '\n')).length + 1

end Place

namespace Excerpt
open Text

/-- The lines of a source. A line feed ends a line, so that none starts behind the last one. -/
def lines : List Char → List (List Char)
  | [] => []
  | c :: r =>
    if c = '\n' then [] :: lines r
    else
      match lines r with
      | [] => [[c]]
      | l :: ls => (c :: l) :: ls

/-- The line in which the byte `offset` lies, counted from zero, and the columns in front of it;
behind the last line, the end of that line. -/
def position [Display] : List (List Char) → (offset : Nat) → Nat × Nat
  | [], _ => (0,0)
  | [l], offset =>
    if offset ≤ Text.byteSize l then (0,((Text.upTo? l offset).map Display.width).getD 0)
    else (0,Display.width l)
  | l :: ls, offset =>
    if offset ≤ Text.byteSize l then (0,((Text.upTo? l offset).map Display.width).getD 0)
    else
      let (line,column) := position ls (offset - (Text.byteSize l + 1))
      (line + 1,column)

def underline [Display] (p : Place) : Nat :=
  max 1 (Display.width ((Text.slice? p.source.toList p.span).getD []))

def blanks (n : Nat) : String := String.ofList (List.replicate n ' ')

/-- The excerpt that shows one line of a source: its number, its text, and below the text so many
carets behind so many columns, with the message behind them. -/
def layout (name : Option String) (message : String) (number column carets : Nat)
    (code : List Char) : String :=
  let digits := Integer.textOfInt number
  let pad := blanks digits.length
  let header := match name with
    | some n => "\n" ++ pad ++ "--> " ++ n ++ ":" ++ digits ++ ":" ++ Integer.textOfInt (column + 1)
    | none => ""
  header ++ "\n " ++ pad ++ " |\n " ++ digits ++ " | " ++ String.ofList code ++ "\n " ++ pad ++ " | "
    ++ blanks column ++ String.ofList (List.replicate carets '^') ++ " " ++ message ++ "\n"

def toText [Display] (p : Place) (name : Option String) (message : String) : String :=
  let ls := lines p.source.toList
  let (line,column) := position ls p.span.start
  layout name message (line + 1) column (underline p) (ls[line]?.getD [])

end Excerpt

namespace Error

def ofFault (source : String) (f : Fault) : Error := ⟨f.cause,some ⟨source,f.span⟩,none⟩

def category (e : Error) : Category := e.cause.category

def message (e : Error) : String := e.cause.message

/-- The error at a place, unless it has one. -/
def placedAt (e : Error) (source : String) (span : Span) : Error :=
  { e with place := e.place.or (some ⟨source,span⟩) }

def named (e : Error) (name : Option String) : Error := { e with name := e.name.or name }

def lineColumn (e : Error) : Option (Nat × Nat) := e.place.map fun p => (p.line,p.column)

def toText (e : Error) : String :=
  match e.lineColumn, e.name with
  | some (line,column), some name =>
    e.message ++ " at " ++ name ++ ":" ++ Integer.textOfInt line ++ ":" ++ Integer.textOfInt column
  | some (line,column), none =>
    e.message ++ " at " ++ Integer.textOfInt line ++ ":" ++ Integer.textOfInt column
  | none, some name => e.message ++ " in " ++ name
  | none, none => e.message

def toReport [Text.Display] (e : Error) : String :=
  match e.place with
  | some p => Excerpt.toText p e.name e.message
  | none => e.toText

def inspect [Text.Display] (e : Error) : String :=
  match e.place with
  | some p => Excerpt.toText p e.name e.message
  | none => e.category.name ++ ": " ++ e.message

end Error

end Stencil
