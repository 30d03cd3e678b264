import Stencil.Cause
import Stencil.Template.Piece

/-!
Nodes: a template as a tree.

A branch is a chain of bodies with conditions, perhaps a last body without one, and an end; a loop
is a body, perhaps another one for the case that there is nothing to visit, and an end.
`Node.pieces` lists the pieces of a tree in the order of the source, and `Node.ofPieces` builds
the tree of a list of pieces.
-/

set_option autoImplicit false

namespace Stencil

mutual

inductive Node where
  | text (content : String) (span : Span)
  | echo (term : Term) (span : Span)
  /-- binds a variable where it is bound already -/
  | assign (name : Located String) (value : Term) (span : Span)
  /-- binds a variable in the innermost frame -/
  | define (name : Located String) (value : Term) (span : Span)
  /-- renders another template in place -/
  | embed (path : Located String) (bindings : List (Located String × Term)) (span : Span)
  /-- writes a stored text as it is -/
  | insert (path : Located String) (span : Span)
  | branch (condition : Term) (span : Span) (body : List Node) (rest : Alternatives)
  | loop (vars : LoopVars) (iterable : Term) (span : Span) (body : List Node) (rest : Tail)

/-- What follows a body that has a condition. -/
inductive Alternatives where
  | elif (condition : Term) (span : Span) (body : List Node) (rest : Alternatives)
  | last (tail : Tail)

/-- What follows the last body that has a condition, or the body of a loop. -/
inductive Tail where
  | otherwise (span : Span) (body : List Node) (close : Span)
  | close (span : Span)

end

mutual

def Node.pieces : Node → List Piece
  | .text content s => [.text content s]
  | .echo t s => [.echo t s]
  | .assign n v s => [.tag (.setTag n v) s]
  | .define n v s => [.tag (.letTag n v) s]
  | .embed p bs s => [.tag (.includeTag p bs) s]
  | .insert p s => [.tag (.textTag p) s]
  | .branch c s body rest => .tag (.ifTag c) s :: (Node.listPieces body ++ rest.pieces)
  | .loop vars t s body rest =>
    .tag (.forTag vars t) s :: (Node.listPieces body ++ rest.pieces .endforTag)

def Node.listPieces : List Node → List Piece
  | [] => []
  | n :: ns => n.pieces ++ Node.listPieces ns

def Alternatives.pieces : Alternatives → List Piece
  | .elif c s body rest => .tag (.elifTag c) s :: (Node.listPieces body ++ rest.pieces)
  | .last tail => tail.pieces .endifTag

def Tail.pieces (closing : Tag) : Tail → List Piece
  | .otherwise s body close =>
    .tag .elseTag s :: (Node.listPieces body ++ [.tag closing close])
  | .close s => [.tag closing s]

end

/-- Where a sequence of nodes stops: at a tag that belongs to a chain around it, or at the end, and
what is left behind it. -/
structure Stop where
  tag : Option (Tag × Span)
  rest : List Piece

def Stop.size (s : Stop) : Nat := s.rest.length + s.tag.toList.length

namespace Node

inductive Chain where
  | branch | loop
  deriving DecidableEq, Repr

namespace Chain

def name : Chain → String
  | .branch => "if"
  | .loop => "for"

def isClosedBy : Chain → Tag → Bool
  | .branch, .endifTag => true
  | .loop, .endforTag => true
  | _, _ => false

end Chain

def readClose (chain : Chain) (opening : Span) (stop : Stop) :
    Except Fault (Span × { rest : List Piece // rest.length < stop.size }) :=
  match h : stop.tag with
  | none => .error ⟨.unclosedTag chain.name,opening⟩
  | some (tag,span) =>
    if chain.isClosedBy tag then .ok (span,⟨stop.rest,by simp [Stop.size,h]⟩)
    else .error ⟨.misplacedTag tag.name,span⟩

mutual

def readNodes (fault : Option Fault) (ps : List Piece) :
    Except Fault (List Node × { stop : Stop // stop.size ≤ ps.length }) :=
  match ps with
  | [] =>
    match fault with
    | some f => .error f
    | none => .ok ([],⟨⟨none,[]⟩,by simp [Stop.size]⟩)
  | .text content s :: r => readBehind fault (.text content s) r
  | .echo t s :: r => readBehind fault (.echo t s) r
  | .tag (.setTag n v) s :: r => readBehind fault (.assign n v s) r
  | .tag (.letTag n v) s :: r => readBehind fault (.define n v s) r
  | .tag (.includeTag p bs) s :: r => readBehind fault (.embed p bs s) r
  | .tag (.textTag p) s :: r => readBehind fault (.insert p s) r
  | .tag (.ifTag c) s :: r => do
    let ⟨body,stop,h⟩ ← readNodes fault r
    let ⟨alternatives,rest,h'⟩ ← readAlternatives fault s stop
    let ⟨nodes,stop',h''⟩ ← readNodes fault rest
    return ⟨.branch c s body alternatives :: nodes,stop',by
      simp only [List.length_cons]; omega⟩
  | .tag (.forTag vars t) s :: r => do
    let ⟨body,stop,h⟩ ← readNodes fault r
    let ⟨tail,rest,h'⟩ ← readTail fault .loop s stop
    let ⟨nodes,stop',h''⟩ ← readNodes fault rest
    return ⟨.loop vars t s body tail :: nodes,stop',by
      simp only [List.length_cons]; omega⟩
  | .tag tag s :: r => .ok ([],⟨⟨some (tag,s),r⟩,by simp [Stop.size]⟩)
termination_by 4 * ps.length + 1

def readBehind (fault : Option Fault) (n : Node) (r : List Piece) :
    Except Fault (List Node × { stop : Stop // stop.size ≤ r.length + 1 }) := do
  let ⟨nodes,stop,h⟩ ← readNodes fault r
  return ⟨n :: nodes,stop,Nat.le_succ_of_le h⟩
termination_by 4 * r.length + 2

def readAlternatives (fault : Option Fault) (opening : Span) (stop : Stop) :
    Except Fault (Alternatives × { rest : List Piece // rest.length < stop.size }) :=
  match h : stop.tag with
  | some (.elifTag c,s) => do
    let ⟨body,stop',h'⟩ ← readNodes fault stop.rest
    let ⟨alternatives,rest,h''⟩ ← readAlternatives fault opening stop'
    return ⟨.elif c s body alternatives,rest,by
      have : stop.size = stop.rest.length + 1 := by simp [Stop.size,h]
      omega⟩
  | _ => do
    let ⟨tail,rest⟩ ← readTail fault .branch opening stop
    return ⟨.last tail,rest⟩
termination_by 4 * stop.size + 1
decreasing_by
  · have : stop.size = stop.rest.length + 1 := by simp [Stop.size,h]
    omega
  · have : stop.size = stop.rest.length + 1 := by simp [Stop.size,h]
    omega
  · omega

def readTail (fault : Option Fault) (chain : Chain) (opening : Span) (stop : Stop) :
    Except Fault (Tail × { rest : List Piece // rest.length < stop.size }) :=
  match h : stop.tag with
  | some (.elseTag,s) => do
    let ⟨body,stop',h'⟩ ← readNodes fault stop.rest
    let ⟨close,rest,h''⟩ ← readClose chain opening stop'
    return ⟨.otherwise s body close,rest,by
      have : stop.size = stop.rest.length + 1 := by simp [Stop.size,h]
      omega⟩
  | _ => do
    let ⟨close,rest⟩ ← readClose chain opening stop
    return ⟨.close close,rest⟩
termination_by 4 * stop.size
decreasing_by
  have : stop.size = stop.rest.length + 1 := by simp [Stop.size,h]
  omega

end

/-- The tree of a sequence of pieces, behind which stands the given fault or the end. -/
def ofPieces (pieces : List Piece) (fault : Option Fault) : Except Fault (List Node) := do
  let ⟨nodes,stop,_⟩ ← readNodes fault pieces
  match stop.tag with
  | none => return nodes
  | some (tag,span) => .error ⟨.misplacedTag tag.name,span⟩

end Node

end Stencil
