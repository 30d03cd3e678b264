import Stencil.Error
import Stencil.Template.Node
import Stencil.Template.Read

set_option autoImplicit false

namespace Stencil

structure Document where
  name : Option String
  source : String
  nodes : List Node

namespace Document

def parse [Alphabet] (source : String) : Except Fault (List Node) :=
  let p := Pieces.ofSource source
  Node.ofPieces p.pieces p.fault

def compile [Alphabet] (name : Option String) (source : String) : Except Error Document :=
  match parse source with
  | .ok nodes => .ok ⟨name,source,nodes⟩
  | .error f => .error ((Error.ofFault source f).named name)

end Document

end Stencil
