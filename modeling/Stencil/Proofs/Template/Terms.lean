import Stencil.Template.Node

set_option autoImplicit false

namespace Stencil

def Tag.terms : Tag → List Term
  | .ifTag t | .elifTag t | .forTag _ t | .setTag _ t | .letTag _ t => [t]
  | .includeTag _ bindings => bindings.map Prod.snd
  | .elseTag | .endifTag | .endforTag | .textTag _ => []

def Piece.terms : Piece → List Term
  | .text _ _ => []
  | .echo t _ => [t]
  | .tag t _ => t.terms

def Tag.places : Tag → List Span
  | .forTag (.several _ span) t => [span,t.span]
  | .forTag (.single _) t => [t.span]
  | .includeTag path _ | .textTag path => [path.span]
  | _ => []

def Piece.places : Piece → List Span
  | .tag t _ => t.places
  | _ => []

mutual

def Node.terms : Node → List Term
  | .text _ _ | .insert _ _ => []
  | .echo t _ | .assign _ t _ | .define _ t _ => [t]
  | .embed _ bindings _ => bindings.map Prod.snd
  | .branch c _ body rest => c :: (Node.listTerms body ++ rest.terms)
  | .loop _ t _ body rest => t :: (Node.listTerms body ++ rest.terms)

def Node.listTerms : List Node → List Term
  | [] => []
  | n :: ns => n.terms ++ Node.listTerms ns

def Alternatives.terms : Alternatives → List Term
  | .elif c _ body rest => c :: (Node.listTerms body ++ rest.terms)
  | .last tail => tail.terms

def Tail.terms : Tail → List Term
  | .otherwise _ body _ => Node.listTerms body
  | .close _ => []

end

mutual

theorem Node.terms_pieces : ∀ n : Node, n.pieces.flatMap Piece.terms = n.terms
  | .text _ _ | .insert _ _ => rfl
  | .echo _ _ | .assign _ _ _ | .define _ _ _ => rfl
  | .embed _ _ _ => by simp [Node.pieces,Node.terms,Piece.terms,Tag.terms]
  | .branch _ _ body rest => by
    simp [Node.pieces,Node.terms,Piece.terms,Tag.terms,Node.terms_listPieces body,
      rest.terms_pieces]
  | .loop _ _ _ body rest => by
    simp [Node.pieces,Node.terms,Piece.terms,Tag.terms,Node.terms_listPieces body,
      rest.terms_pieces .endforTag rfl]

theorem Node.terms_listPieces :
    ∀ ns : List Node, (Node.listPieces ns).flatMap Piece.terms = Node.listTerms ns
  | [] => rfl
  | n :: ns => by
    simp [Node.listPieces,Node.listTerms,n.terms_pieces,Node.terms_listPieces ns]

theorem Alternatives.terms_pieces : ∀ a : Alternatives, a.pieces.flatMap Piece.terms = a.terms
  | .elif _ _ body rest => by
    simp [Alternatives.pieces,Alternatives.terms,Piece.terms,Tag.terms,Node.terms_listPieces body,
      rest.terms_pieces]
  | .last tail => by
    simp [Alternatives.pieces,Alternatives.terms,tail.terms_pieces .endifTag rfl]

theorem Tail.terms_pieces : ∀ (t : Tail) (closing : Tag), closing.terms = [] →
    (t.pieces closing).flatMap Piece.terms = t.terms
  | .otherwise _ body _, _, h => by
    have helse : Tag.elseTag.terms = [] := rfl
    simp [Tail.pieces,Tail.terms,Piece.terms,helse,h,Node.terms_listPieces body]
  | .close _, _, h => by simp [Tail.pieces,Tail.terms,Piece.terms,h]

end

end Stencil
