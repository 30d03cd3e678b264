/-!
Paths of templates and texts.

A path is a sequence of segments with slashes between them. Its normal form has no empty segments,
no `.` and no `..`; the segment in front of a `..` goes with it, and at the root nothing does.
-/

set_option autoImplicit false

namespace Stencil.Path

def split : List Char → List (List Char)
  | [] => [[]]
  | c :: r =>
    if c = '/' then [] :: split r
    else
      match split r with
      | [] => [[c]]
      | s :: ss => (c :: s) :: ss

/-- One step from a directory, whose segments are listed from the innermost one. -/
def walk (directory : List (List Char)) (segment : List Char) : List (List Char) :=
  if segment = [] ∨ segment = ['.'] then directory
  else if segment = ['.','.'] then directory.tail
  else segment :: directory

def segments (path : List Char) : List (List Char) := ((split path).foldl walk []).reverse

def join (segments : List (List Char)) : List Char := (segments.intersperse ['/']).flatten

def normalize (path : String) : String := String.ofList (join (segments path.toList))

def directory? (path : List Char) : Option (List Char) :=
  match (split path).reverse with
  | [] | [_] => none
  | _ :: front => some (join front.reverse)

/-- The normal form of the path that `path` means in the template `current`: from the root if it
starts with a slash, otherwise from the directory of that template. -/
def resolve (current : Option String) (path : String) : String :=
  match path.toList with
  | '/' :: rest => normalize (String.ofList rest)
  | cs =>
    match current.bind fun c => directory? c.toList with
    | some d => normalize (String.ofList (d ++ '/' :: cs))
    | none => normalize path

end Stencil.Path
