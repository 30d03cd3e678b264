import Stencil.Data
import Stencil.Engine
import Stencil.Sink
import Stencil.Term.Evaluate
import Stencil.Text.Identifier
import Stencil.Text.Width
import Stencil.Value.Pieces

/-!
Rendering: writing a template to a sink.

Rendering changes a scope and a sink, and both stay as they are where it fails. The body of a
branch, a round of a loop and an embedded template have a frame of their own, which is left again
in either case.
-/

set_option autoImplicit false

namespace Stencil

/-- What rendering works on; `depth` counts the templates that are being embedded. -/
structure Rendering (σ : Type) where
  scope : Scope
  depth : Nat
  sink : σ

/-- A step of rendering, which leaves a state also where it fails. -/
abbrev Render (σ : Type) (α : Type) := Rendering σ → Rendering σ × Except Error α

namespace Render

variable {σ α β : Type}

protected def pure (a : α) : Render σ α := fun s => (s,.ok a)

protected def bind (m : Render σ α) (k : α → Render σ β) : Render σ β := fun s =>
  match m s with
  | (s',.ok a) => k a s'
  | (s',.error e) => (s',.error e)

instance : Monad (Render σ) where
  pure := Render.pure
  bind := Render.bind

def fail (e : Error) : Render σ α := fun s => (s,.error e)

def mapFailure (g : Error → Error) (m : Render σ α) : Render σ α := fun s =>
  match m s with
  | (s',.ok a) => (s',.ok a)
  | (s',.error e) => (s',.error (g e))

def modifyScope (g : Scope → Scope) : Render σ Unit := fun s =>
  ({ s with scope := g s.scope },.ok ())

def inFrame (f : Frame) (m : Render σ α) : Render σ α := fun s =>
  let (s',r) := m { s with scope := s.scope.push f }
  ({ s' with scope := s'.scope.pop },r)

def getDepth : Render σ Nat := fun s => (s,.ok s.depth)

def deeper (m : Render σ α) : Render σ α := fun s =>
  let (s',r) := m { s with depth := s.depth + 1 }
  ({ s' with depth := s'.depth - 1 },r)

/-- Writes a text. Where the sink fails, the error does not tell why. -/
def write (sink : Sink σ) (text : String) : Render σ Unit := fun s =>
  let (state,r) := sink.write text s.sink
  ({ s with sink := state },match r with
    | .ok () => .ok ()
    | .error _ => .error ⟨.format,none,none⟩)

def writeAll (sink : Sink σ) : List String → Render σ Unit
  | [] => Render.pure ()
  | p :: ps => do
    write sink p
    writeAll sink ps

end Render

open Render

/-- What nodes are rendered with. `embed` renders an embedded document. -/
structure Surroundings (σ : Type) where
  engine : Engine
  sink : Sink σ
  name : Option String
  source : String
  embed : Document → Render σ Unit

namespace Surroundings

variable {σ α : Type} (w : Surroundings σ)

def placed (r : Except Fault α) : Render σ α :=
  match r with
  | .ok a => Render.pure a
  | .error f => fail (Error.ofFault w.source f)

def eval (t : Term) : Render σ Value := fun s =>
  (s,t.evaluate ⟨w.engine.functions,s.scope⟩ w.source)

def echoPieces (v : Value) : List String :=
  if w.engine.autoEscape then v.markupPieces else v.textPieces

end Surroundings

namespace LoopVars

def bind (vars : LoopVars) (item : Value) : Except Fault Frame :=
  match vars with
  | .single n => .ok [(n.value,item)]
  | .several names span =>
    match item with
    | .list values =>
      if values.length = names.length then
        .ok (Table.ofList ((names.map (·.value)).zip values))
      else .error ⟨.unpackLength values.length names.length,span⟩
    | v => .error ⟨.unpackKind v.kind,span⟩

end LoopVars

def loopInfo (index length : Nat) : Value :=
  .map (Table.ofList [("index",.int (Int64.ofNat index)),("first",.bool (index == 0)),
    ("last",.bool (index + 1 == length)),("length",.int (Int64.ofNat length))])

namespace Surroundings

variable {σ : Type} (w : Surroundings σ)

def rounds (vars : LoopVars) (length : Nat) (body : Render σ Unit) :
    (index : Nat) → List Value → Render σ Unit
  | _, [] => Render.pure ()
  | index, item :: items => do
    let frame ← w.placed (vars.bind item)
    inFrame (Table.insert "loop" (loopInfo index length) frame) body
    rounds vars length body (index + 1) items

def bindings : Frame → List (Located String × Term) → Render σ Frame
  | frame, [] => Render.pure frame
  | frame, (name,t) :: rest => do
    let v ← w.eval t
    bindings (Table.insert name.value v frame) rest

def embedAt (path : Located String) (given : List (Located String × Term)) : Render σ Unit :=
  let resolved := Path.resolve w.name path.value
  match Table.get? w.engine.templates resolved with
  | none => w.placed (.error ⟨.unknownTemplate resolved,path.span⟩)
  | some doc => do
    if w.engine.maxIncludeDepth ≤ (← getDepth) then
      w.placed (.error ⟨.includeDepth w.engine.maxIncludeDepth,path.span⟩)
    else
      let frame ← w.bindings [] given
      inFrame frame (deeper (w.embed doc))

/-- Writes the text at a path, or else the source of the template there. -/
def insertAt (path : Located String) : Render σ Unit :=
  let resolved := Path.resolve w.name path.value
  match Table.get? w.engine.texts resolved with
  | some text => write w.sink text
  | none =>
    match Table.get? w.engine.templates resolved with
    | some doc => write w.sink doc.source
    | none => w.placed (.error ⟨.unknownText resolved,path.span⟩)

end Surroundings

mutual

def Node.render {σ : Type} (w : Surroundings σ) : Node → Render σ Unit
  | .text content _ => write w.sink content
  | .echo t _ => do writeAll w.sink (w.echoPieces (← w.eval t))
  | .assign n t _ => do
    let v ← w.eval t
    modifyScope (·.assign n.value v)
  | .define n t _ => do
    let v ← w.eval t
    modifyScope (·.define n.value v)
  | .embed path given _ => w.embedAt path given
  | .insert path _ => w.insertAt path
  | .branch c _ body rest => do
    if (← w.eval c).isTrue then inFrame [] (Node.renderList w body)
    else rest.render w
  | .loop vars t _ body rest => do
    let v ← w.eval t
    let items ← w.placed (Except.placedAt t.span v.iterate)
    if items.isEmpty then rest.render w
    else w.rounds vars items.length (Node.renderList w body) 0 items

def Node.renderList {σ : Type} (w : Surroundings σ) : List Node → Render σ Unit
  | [] => Render.pure ()
  | n :: ns => do
    n.render w
    Node.renderList w ns

def Alternatives.render {σ : Type} (w : Surroundings σ) : Alternatives → Render σ Unit
  | .elif c _ body rest => do
    if (← w.eval c).isTrue then inFrame [] (Node.renderList w body)
    else rest.render w
  | .last tail => tail.render w

def Tail.render {σ : Type} (w : Surroundings σ) : Tail → Render σ Unit
  | .otherwise _ body _ => inFrame [] (Node.renderList w body)
  | .close _ => Render.pure ()

end

namespace Document

variable {σ : Type}

def surroundings (doc : Document) (engine : Engine) (sink : Sink σ)
    (embed : Document → Render σ Unit) : Surroundings σ :=
  ⟨engine,sink,doc.name,doc.source,embed⟩

/-- Renders a document and what it embeds, `levels` documents inside each other. There are never more
than one for each depth up to the engine's limit, so that no document is left out where `levels`
exceeds the limit by one. -/
def render (engine : Engine) (sink : Sink σ) : (levels : Nat) → Document → Render σ Unit
  | 0, _ => Render.pure ()
  | levels + 1, doc => mapFailure (·.named doc.name)
      (Node.renderList (doc.surroundings engine sink (render engine sink levels)) doc.nodes)

end Document

namespace Engine

variable {σ : Type}

def globals : Value → Except Cause Frame
  | .map entries => .ok entries
  | .none => .ok []
  | v => .error (.contextKind v.kind)

/-- Renders a document with the variables of a context. The state of the sink stands also where
rendering fails. -/
def run (e : Engine) (doc : Document) (sink : Sink σ) (state : σ) (context : Value) :
    σ × Except Error Unit :=
  match globals context with
  | .error c => (state,.error ⟨c,none,none⟩)
  | .ok frame =>
    let (s,r) := doc.render e sink (e.maxIncludeDepth + 1) ⟨Scope.root frame,0,state⟩
    (s.sink,r)

/-- Renders a document to a sink, which is flushed at the end. Where the sink failed, its message
takes the place of what rendering reports. -/
def renderTo (e : Engine) (doc : Document) (sink : Sink σ) (state : σ) (context : Value) :
    σ × Except Error Unit :=
  match e.run doc sink.keeping ⟨state,none⟩ context with
  | (kept,.error err) =>
    (kept.state,.error (match kept.failure with
      | some m => ⟨.sink m,none,none⟩
      | none => err))
  | (kept,.ok ()) =>
    let (state',r) := sink.flush kept.state
    (state',match r with
      | .ok () => .ok ()
      | .error m => .error ⟨.sink m,none,none⟩)

def render (e : Engine) (doc : Document) (context : Value) : Except Error String :=
  match e.run doc Sink.text "" context with
  | (text,.ok ()) => .ok text
  | (_,.error err) => .error err

def renderDataTo (e : Engine) (doc : Document) (sink : Sink σ) (state : σ) (d : Data) :
    σ × Except Error Unit :=
  match d.toValue with
  | .ok context => e.renderTo doc sink state context
  | .error c => (state,.error ⟨c,none,none⟩)

def renderData (e : Engine) (doc : Document) (d : Data) : Except Error String :=
  match d.toValue with
  | .ok context => e.render doc context
  | .error c => .error ⟨c,none,none⟩

end Engine

end Stencil
