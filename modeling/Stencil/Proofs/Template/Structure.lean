import Stencil.Proofs.Template.Tree
import Stencil.Template.Document

set_option autoImplicit false

namespace Stencil

mutual

inductive Derivable : List Piece → Prop where
  | nil : Derivable []
  | text {content : String} {s : Span} {ps : List Piece} : Derivable ps →
      Derivable (.text content s :: ps)
  | echo {t : Term} {s : Span} {ps : List Piece} : Derivable ps → Derivable (.echo t s :: ps)
  | set {n : Located String} {v : Term} {s : Span} {ps : List Piece} : Derivable ps →
      Derivable (.tag (.setTag n v) s :: ps)
  | let {n : Located String} {v : Term} {s : Span} {ps : List Piece} : Derivable ps →
      Derivable (.tag (.letTag n v) s :: ps)
  | include {path : Located String} {bindings : List (Located String × Term)} {s : Span}
      {ps : List Piece} : Derivable ps → Derivable (.tag (.includeTag path bindings) s :: ps)
  | insert {path : Located String} {s : Span} {ps : List Piece} : Derivable ps →
      Derivable (.tag (.textTag path) s :: ps)
  | branch {c : Term} {s : Span} {body rest ps : List Piece} : Derivable body →
      DerivableElifs rest → Derivable ps →
      Derivable (.tag (.ifTag c) s :: (body ++ (rest ++ ps)))
  | loop {vars : LoopVars} {t : Term} {s : Span} {body rest ps : List Piece} : Derivable body →
      DerivableEnd .endforTag rest → Derivable ps →
      Derivable (.tag (.forTag vars t) s :: (body ++ (rest ++ ps)))

inductive DerivableElifs : List Piece → Prop where
  | elif {c : Term} {s : Span} {body rest : List Piece} : Derivable body → DerivableElifs rest →
      DerivableElifs (.tag (.elifTag c) s :: (body ++ rest))
  | last {rest : List Piece} : DerivableEnd .endifTag rest → DerivableElifs rest

inductive DerivableEnd : Tag → List Piece → Prop where
  | otherwise {closing : Tag} {s close : Span} {body : List Piece} : Derivable body →
      DerivableEnd closing (.tag .elseTag s :: (body ++ [.tag closing close]))
  | close {closing : Tag} {s : Span} : DerivableEnd closing [.tag closing s]

end

theorem Derivable.append {ps qs : List Piece} (hq : Derivable qs) : Derivable ps →
    Derivable (ps ++ qs)
  | .nil => hq
  | .text h => .text (hq.append h)
  | .echo h => .echo (hq.append h)
  | .set h => .set (hq.append h)
  | .let h => .let (hq.append h)
  | .include h => .include (hq.append h)
  | .insert h => .insert (hq.append h)
  | .branch hbody hrest h => by
    simpa using Derivable.branch hbody hrest (hq.append h)
  | .loop hbody hrest h => by
    simpa using Derivable.loop hbody hrest (hq.append h)

mutual

theorem Node.derivable : (n : Node) → Derivable n.pieces
  | .text _ _ => .text .nil
  | .echo _ _ => .echo .nil
  | .assign _ _ _ => .set .nil
  | .define _ _ _ => .let .nil
  | .embed _ _ _ => .include .nil
  | .insert _ _ => .insert .nil
  | .branch _ _ body rest => by
    simpa [Node.pieces] using Derivable.branch (Node.list_derivable body) rest.derivable .nil
  | .loop _ _ _ body rest => by
    simpa [Node.pieces] using
      Derivable.loop (Node.list_derivable body) (rest.derivable .endforTag) .nil

theorem Node.list_derivable : (nodes : List Node) → Derivable (Node.listPieces nodes)
  | [] => .nil
  | n :: ns => (Node.list_derivable ns).append n.derivable

theorem Alternatives.derivable : (alternatives : Alternatives) →
    DerivableElifs alternatives.pieces
  | .elif _ _ body rest => .elif (Node.list_derivable body) rest.derivable
  | .last tail => .last (tail.derivable .endifTag)

theorem Tail.derivable (closing : Tag) : (tail : Tail) → DerivableEnd closing (tail.pieces closing)
  | .otherwise _ body _ => .otherwise (Node.list_derivable body)
  | .close _ => .close

end

mutual

theorem Derivable.exists_nodes {ps : List Piece} : Derivable ps →
    ∃ nodes, Node.listPieces nodes = ps
  | .nil => ⟨[],rfl⟩
  | .text h => by
    obtain ⟨nodes,rfl⟩ := h.exists_nodes
    exact ⟨.text _ _ :: nodes,rfl⟩
  | .echo h => by
    obtain ⟨nodes,rfl⟩ := h.exists_nodes
    exact ⟨.echo _ _ :: nodes,rfl⟩
  | .set h => by
    obtain ⟨nodes,rfl⟩ := h.exists_nodes
    exact ⟨.assign _ _ _ :: nodes,rfl⟩
  | .let h => by
    obtain ⟨nodes,rfl⟩ := h.exists_nodes
    exact ⟨.define _ _ _ :: nodes,rfl⟩
  | .include h => by
    obtain ⟨nodes,rfl⟩ := h.exists_nodes
    exact ⟨.embed _ _ _ :: nodes,rfl⟩
  | .insert h => by
    obtain ⟨nodes,rfl⟩ := h.exists_nodes
    exact ⟨.insert _ _ :: nodes,rfl⟩
  | .branch hbody hrest h => by
    obtain ⟨body,rfl⟩ := hbody.exists_nodes
    obtain ⟨rest,rfl⟩ := hrest.exists_alternatives
    obtain ⟨nodes,rfl⟩ := h.exists_nodes
    exact ⟨.branch _ _ body rest :: nodes,by
      rw [Node.listPieces,Node.pieces,List.cons_append,List.append_assoc]⟩
  | .loop hbody hrest h => by
    obtain ⟨body,rfl⟩ := hbody.exists_nodes
    obtain ⟨rest,rfl⟩ := hrest.exists_tail
    obtain ⟨nodes,rfl⟩ := h.exists_nodes
    exact ⟨.loop _ _ _ body rest :: nodes,by
      rw [Node.listPieces,Node.pieces,List.cons_append,List.append_assoc]⟩

theorem DerivableElifs.exists_alternatives {ps : List Piece} : DerivableElifs ps →
    ∃ alternatives : Alternatives, alternatives.pieces = ps
  | .elif hbody hrest => by
    obtain ⟨body,rfl⟩ := hbody.exists_nodes
    obtain ⟨rest,rfl⟩ := hrest.exists_alternatives
    exact ⟨.elif _ _ body rest,rfl⟩
  | .last h => by
    obtain ⟨tail,rfl⟩ := h.exists_tail
    exact ⟨.last tail,rfl⟩

theorem DerivableEnd.exists_tail {closing : Tag} {ps : List Piece} : DerivableEnd closing ps →
    ∃ tail : Tail, tail.pieces closing = ps
  | .otherwise hbody => by
    obtain ⟨body,rfl⟩ := hbody.exists_nodes
    exact ⟨.otherwise _ body _,rfl⟩
  | .close => ⟨.close _,rfl⟩

end

theorem derivable_iff_exists_nodes {ps : List Piece} :
    Derivable ps ↔ ∃ nodes, Node.listPieces nodes = ps := by
  constructor
  · exact Derivable.exists_nodes
  · rintro ⟨nodes,rfl⟩
    exact Node.list_derivable nodes

end Stencil
