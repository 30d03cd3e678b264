import Stencil.Cause
import Stencil.Table

/-!
Scopes: chains of frames of variables. There is always a root frame, and a name is looked up in the
innermost frame that binds it.
-/

set_option autoImplicit false

namespace Stencil

abbrev Frame := List (String × Value)

/-- A chain of frames: the innermost one and those around it, the nearest first. -/
structure Scope where
  innermost : Frame
  outer : List Frame

namespace Scope

def root (globals : Frame) : Scope := ⟨globals,[]⟩

def frames (s : Scope) : List Frame := s.innermost :: s.outer

def get? (s : Scope) (name : String) : Option Value := s.frames.findSome? fun f => Table.get? f name

def lookup (s : Scope) (name : String) : Except Cause Value :=
  match s.get? name with
  | some v => .ok v
  | none => .error (.undefinedName name)

def contains (s : Scope) (name : String) : Bool := (s.get? name).isSome

def define (s : Scope) (name : String) (v : Value) : Scope :=
  { s with innermost := Table.insert name v s.innermost }

/-- The frames with a name rebound in the first of them that binds it, if one does. -/
def rebind? (name : String) (v : Value) : List Frame → Option (List Frame)
  | [] => none
  | f :: fs =>
    if Table.contains f name then some (Table.insert name v f :: fs)
    else (rebind? name v fs).map (f :: ·)

/-- Rebinds a name in the innermost frame that binds it; where none does, binds it in the innermost
frame. -/
def assign (s : Scope) (name : String) (v : Value) : Scope :=
  if Table.contains s.innermost name then s.define name v
  else
    match rebind? name v s.outer with
    | some outer => { s with outer }
    | none => s.define name v

def push (s : Scope) (f : Frame) : Scope := ⟨f,s.frames⟩

/-- Leaves the innermost frame, unless it is the root. -/
def pop (s : Scope) : Scope :=
  match s.outer with
  | [] => s
  | f :: fs => ⟨f,fs⟩

def popped? (s : Scope) : Option Frame := if s.outer.isEmpty then none else some s.innermost

def collect (s : Scope) : Frame := s.frames.foldr (fun f acc => Table.merge acc f) []

end Scope

end Stencil
