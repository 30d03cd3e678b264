import Stencil.Function.Builtin
import Stencil.Path
import Stencil.Template.Document

/-!
Engines: the functions, templates and texts that rendering draws on, and its settings.

Templates and texts are stored under the normal forms of their paths.
-/

set_option autoImplicit false

namespace Stencil

structure Engine where
  functions : List (String × Function)
  templates : List (String × Document)
  texts : List (String × String)
  maxIncludeDepth : Nat
  autoEscape : Bool

namespace Engine

def empty : Engine where
  functions := []
  templates := []
  texts := []
  maxIncludeDepth := 64
  autoEscape := true

def standard : Engine := { empty with functions := Table.ofList Builtin.all }

def addFunction (e : Engine) (name : String) (f : Function) : Engine :=
  { e with functions := Table.insert name f e.functions }

def removeFunction (e : Engine) (name : String) : Engine :=
  { e with functions := Table.erase name e.functions }

/-- Compiles a template and stores it. As with rendering, the engine that is left is given also where
that fails. -/
def storeTemplate [Alphabet] (e : Engine) (path source : String) : Engine × Except Error Unit :=
  let name := Path.normalize path
  match Document.compile (some name) source with
  | .ok doc => ({ e with templates := Table.insert name doc e.templates },.ok ())
  | .error err => (e,.error err)

def addTemplate [Alphabet] (e : Engine) (path source : String) : Except Error Engine :=
  let (e',result) := e.storeTemplate path source
  result.map fun _ => e'

theorem addTemplate_eq_ok_iff [Alphabet] {e e' : Engine} {path source : String} :
    e.addTemplate path source = .ok e' ↔
      ∃ doc, Document.compile (some (Path.normalize path)) source = .ok doc ∧
        { e with templates := Table.insert (Path.normalize path) doc e.templates } = e' := by
  simp only [addTemplate,storeTemplate]
  cases Document.compile (some (Path.normalize path)) source <;> simp [Except.map]

def removeTemplate (e : Engine) (path : String) : Engine :=
  { e with templates := Table.erase (Path.normalize path) e.templates }

def addText (e : Engine) (path text : String) : Engine :=
  { e with texts := Table.insert (Path.normalize path) text e.texts }

def getTemplate? (e : Engine) (path : String) : Option Document :=
  Table.get? e.templates (Path.normalize path)

def compile [Alphabet] (source : String) : Except Error Document := Document.compile none source

def inspectNames (names : List String) : String :=
  "[" ++ ", ".intercalate (names.map Text.inspect) ++ "]"

def inspect (e : Engine) : String :=
  "Engine \x7b functions: " ++ inspectNames (Table.keys e.functions) ++ ", templates: "
    ++ inspectNames (Table.keys e.templates) ++ ", texts: " ++ inspectNames (Table.keys e.texts)
    ++ ", max_include_depth: " ++ Integer.textOfInt e.maxIncludeDepth ++ ", auto_escape: "
    ++ Value.boolText e.autoEscape ++ " \x7d"

def inspectCompiled (e : Engine) : String := "Template \x7b engine: " ++ e.inspect ++ ", .. \x7d"

end Engine

def Document.inspect (doc : Document) : String :=
  "TemplateRef \x7b name: " ++ Text.inspect (doc.name.getD "") ++ ", .. \x7d"

end Stencil
