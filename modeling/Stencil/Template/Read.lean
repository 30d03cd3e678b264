import Stencil.Template.Piece
import Stencil.Term.Read
import Stencil.Token.Scan

/-!
Reading pieces: from the tokens of a source to its raw texts, echoes and tags. Comments and raw
texts of which nothing is left give no piece. Reading stops at the first fault; the pieces in
front of it stand.
-/

set_option autoImplicit false

namespace Stencil

namespace Tag

def readPath (e : Ending) (ts : List Token) : Except Fault (Located String × Fewer ts) := do
  let (body,rest) ← e.string ts
  return (⟨← Literal.readString body,body.span⟩,rest)

/-- `name = term`, where the term may be a list without brackets if `wide`. -/
def readAssignment (e : Ending) (wide : Bool) (ts : List Token) :
    Except Fault ((Located String × Term) × Fewer ts) := do
  let (name,r₁) ← e.name ts
  let (_,r₂) ← e.expect (.symbol .assign) r₁.1
  let (t,r₃) ← if wide then Term.readList e r₂.1 else Term.read e r₂.1
  return ((name,t),r₁.and (r₂.and r₃))

def readMoreVars (e : Ending) (span : Span) (ts : List Token) :
    Except Fault ((List (Located String) × Span) × NoMore ts) := do
  if ← e.isNext (.symbol .comma) ts then
    let ⟨_,r₁,h₁⟩ ← e.expect (.symbol .comma) ts
    let ⟨name,r₂,h₂⟩ ← e.name r₁
    let ⟨(names,last),r₃,h₃⟩ ← readMoreVars e (span.cover name.span) r₂
    return ⟨(name :: names,last),r₃,by omega⟩
  else return ⟨([],span),ts,Nat.le_refl _⟩
termination_by ts.length

def readVars (e : Ending) (ts : List Token) : Except Fault (LoopVars × Fewer ts) := do
  let (first,r₁) ← e.name ts
  if ← e.isNext (.symbol .comma) r₁.1 then
    let ((names,span),r₂) ← readMoreVars e first.span r₁.1
    return (.several (first :: names) span,r₁.andMaybe r₂)
  else return (.single first,r₁)

def readBindings (e : Ending) (ts : List Token) :
    Except Fault (List (Located String × Term) × Fewer ts) := do
  let ⟨first,r₁,h₁⟩ ← readAssignment e false ts
  if ← e.isNext (.symbol .comma) r₁ then
    let ⟨_,r₂,h₂⟩ ← e.expect (.symbol .comma) r₁
    let ⟨bindings,r₃,h₃⟩ ← readBindings e r₂
    return ⟨first :: bindings,r₃,by omega⟩
  else return ⟨[first],r₁,h₁⟩
termination_by ts.length

def read (e : Ending) (ts : List Token) : Except Fault (Tag × Fewer ts) := do
  let (name,r) ← e.name ts
  match name.value with
  | "if" =>
    let (condition,rest) ← Term.readList e r.1
    return (.ifTag condition,r.and rest)
  | "elif" =>
    let (condition,rest) ← Term.readList e r.1
    return (.elifTag condition,r.and rest)
  | "else" => return (.elseTag,r)
  | "endif" => return (.endifTag,r)
  | "for" =>
    let (vars,r₁) ← readVars e r.1
    let (_,r₂) ← e.keyword .inKw r₁.1
    let (iterable,r₃) ← Term.readList e r₂.1
    return (.forTag vars iterable,r.and (r₁.and (r₂.and r₃)))
  | "endfor" => return (.endforTag,r)
  | "set" =>
    let ((target,value),rest) ← readAssignment e true r.1
    return (.setTag target value,r.and rest)
  | "let" =>
    let ((target,value),rest) ← readAssignment e true r.1
    return (.letTag target value,r.and rest)
  | "include" =>
    let (path,r₁) ← readPath e r.1
    if ← e.isNext (.name "with") r₁.1 then
      let (_,r₂) ← e.expect (.name "with") r₁.1
      let (bindings,r₃) ← readBindings e r₂.1
      return (.includeTag path bindings,r.and (r₁.and (r₂.and r₃)))
    else return (.includeTag path [],r.and r₁)
  | "text" =>
    let (path,rest) ← readPath e r.1
    return (.textTag path,r.and rest)
  | other => .error ⟨.unknownTag other,name.span⟩

end Tag

/-- The pieces of a source up to its end or its first fault. -/
structure Pieces where
  pieces : List Piece
  fault : Option Fault

namespace Piece

def readComment (e : Ending) (ts : List Token) : Except Fault (NoMore ts) :=
  match ts with
  | [] => .error (e.missing "end comment")
  | t :: r =>
    match t.lexeme with
    | .raw _ => (e.expect (.closing .comment) r).map fun (_,rest) =>
      ⟨rest.1,by have := rest.2; simp only [List.length_cons]; omega⟩
    | _ => (e.expect (.closing .comment) (t :: r)).map fun (_,rest) =>
      ⟨rest.1,Nat.le_of_lt rest.2⟩

def read (e : Ending) (t : Token) (ts : List Token) :
    Except Fault (Option Piece × NoMore ts) :=
  match t.lexeme with
  | .raw content =>
    .ok (if t.span.start = t.span.stop then none else some (.text content t.span),
      ⟨ts,Nat.le_refl _⟩)
  | .opening .comment => (readComment e ts).map fun rest => (none,rest)
  | .opening .expression => do
    let ⟨term,r₁,h₁⟩ ← Term.readList e ts
    let ⟨stop,r₂,h₂⟩ ← e.expect (.closing .expression) r₁
    return ⟨some (.echo term (t.span.cover stop)),r₂,by omega⟩
  | .opening .block => do
    let ⟨block,r₁,h₁⟩ ← Tag.read e ts
    let ⟨stop,r₂,h₂⟩ ← e.expect (.closing .block) r₁
    return ⟨some (.tag block (t.span.cover stop)),r₂,by omega⟩
  | l => .error ⟨.unexpected "template" l,t.span⟩

def readAll (e : Ending) (ts : List Token) : Pieces :=
  match ts with
  | [] => ⟨[],e.fault⟩
  | t :: r =>
    match read e t r with
    | .error f => ⟨[],some f⟩
    | .ok (piece,⟨rest,_⟩) =>
      let tail := readAll e rest
      ⟨piece.toList ++ tail.pieces,tail.fault⟩
termination_by ts.length
decreasing_by simp only [List.length_cons]; omega

end Piece

def Pieces.ofSource [Alphabet] (source : String) : Pieces :=
  let s := scan source
  Piece.readAll ⟨source.utf8ByteSize,s.fault⟩ s.tokens

end Stencil
