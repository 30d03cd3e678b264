import Stencil.Proofs.Template.Regions
import Stencil.Proofs.Template.Stacked
import Stencil.Text.Identifier

set_option autoImplicit false

namespace Stencil.Document

variable {source : String} {ps : List Piece} {nodes : List Node}

section
variable [Alphabet]

/-- A source that is tokens throughout, and the pieces of its parts. -/
structure Outlined (source : String) (ps : List Piece) : Prop where
  scanned : (scan source).fault = none
  parts : Grammar.Parts (scan source).tokens ps

theorem outlined_iff : Outlined source ps ↔ Pieces.ofSource source = ⟨ps,none⟩ := by
  constructor
  · intro h
    exact (Piece.readAll_eq_iff h.scanned).mpr h.parts
  · intro h
    have hscanned : (scan source).fault = none := Piece.fault_of_readAll (congrArg Pieces.fault h)
    exact ⟨hscanned,(Piece.readAll_eq_iff hscanned).mp h⟩

theorem elements_parse (h : Outlined source ps) (broken : Fault) :
    (parse source).map Node.elements = Stack.run broken none ⟨[],[]⟩ ps := by
  rw [Stack.run_eq_ofPieces,parse,outlined_iff.mp h]

/-- A source whose texts, echoes and tags are well formed compiles exactly if their sequence is
derivable, and it has only this sequence of them. Its tree is the one that is linked on the stack: a walk
meets each of them once, in the order of the source, every chain of its tags is whole, and no other tree
has the same walk. -/
theorem parse_iff_derivable (h : Outlined source ps) (broken : Fault) :
    ((∃ nodes, parse source = .ok nodes) ↔ Derivable ps) ∧
    (∀ qs, Outlined source qs → qs = ps) ∧
    (parse source).map Node.elements = Stack.run broken none ⟨[],[]⟩ ps ∧
    ∀ es, Stack.run broken none ⟨[],[]⟩ ps = .ok es → WellLinked es ∧ Element.walkAll es = ps ∧
      ∀ others, Element.walkAll (Node.elements others) = ps → Node.elements others = es := by
  have hpieces := outlined_iff.mp h
  refine ⟨?_,fun qs hqs => ?_,elements_parse h broken,fun es hes => ?_⟩
  · rw [derivable_iff_exists_nodes]
    simp [parse_eq_ok_iff,hpieces]
  · exact congrArg Pieces.pieces ((outlined_iff.mp hqs).symm.trans hpieces)
  · obtain ⟨nodes,hnodes,rfl⟩ := map_eq_ok_iff.mp ((elements_parse h broken).trans hes)
    obtain ⟨_,hwalk⟩ := parse_eq_ok_iff.mp hnodes
    rw [hpieces] at hwalk
    refine ⟨Node.wellLinked nodes,by rw [Node.walkAll_elements,hwalk],fun others hothers => ?_⟩
    rw [Node.walkAll_elements] at hothers
    rw [Node.listPieces_injective (hothers.trans hwalk.symm)]

end

/-- A comment gives no piece, and the tags of a branch are one chain. -/
theorem parse_branch :
    let source := "\x7b# n #\x7d\x7b% if a %\x7db\x7b% else %\x7d\x7b\x7b c \x7d\x7d\x7b% endif %\x7d"
    let condition : Term := .var ⟨"a",⟨13,14⟩⟩
    let echoed : Term := .var ⟨"c",⟨31,32⟩⟩
    let ps : List Piece := [.tag (.ifTag condition) ⟨7,17⟩,.text "b" ⟨17,18⟩,.tag .elseTag ⟨18,28⟩,
      .echo echoed ⟨28,35⟩,.tag .endifTag ⟨35,46⟩]
    let nodes : List Node := [.branch condition ⟨7,17⟩ [.text "b" ⟨17,18⟩]
      (.last (.otherwise ⟨18,28⟩ [.echo echoed ⟨28,35⟩] ⟨35,46⟩))]
    let third : LinkedTag := .mk .endifTag ⟨35,46⟩ [] none
    let second : LinkedTag := .mk .elseTag ⟨18,28⟩ [.echo echoed ⟨28,35⟩] (some third)
    let first : LinkedTag := .mk (.ifTag condition) ⟨7,17⟩ [.text "b" ⟨17,18⟩] (some second)
    let broken : Fault := ⟨.unclosedTag "",⟨0,0⟩⟩
    Outlined source ps ∧ Derivable ps ∧ parse source = .ok nodes ∧
    Stack.run broken none ⟨[],[]⟩ ps = .ok [.tag first] ∧ first.chain = [first,second,third] ∧
    Linkage [.ifTag condition,.elseTag,.endifTag] ∧ Element.walkAll [.tag first] = ps := by
  intro source condition echoed ps nodes third second first broken
  have htokens : (scan source).tokens = [⟨.opening .comment,⟨0,2⟩⟩,⟨.raw " n ",⟨2,5⟩⟩,
      ⟨.closing .comment,⟨5,7⟩⟩,⟨.opening .block,⟨7,9⟩⟩,⟨.name "if",⟨10,12⟩⟩,⟨.name "a",⟨13,14⟩⟩,
      ⟨.closing .block,⟨15,17⟩⟩,⟨.raw "b",⟨17,18⟩⟩,⟨.opening .block,⟨18,20⟩⟩,
      ⟨.name "else",⟨21,25⟩⟩,⟨.closing .block,⟨26,28⟩⟩,⟨.opening .expression,⟨28,30⟩⟩,
      ⟨.name "c",⟨31,32⟩⟩,⟨.closing .expression,⟨33,35⟩⟩,⟨.opening .block,⟨35,37⟩⟩,
      ⟨.name "endif",⟨38,43⟩⟩,⟨.closing .block,⟨44,46⟩⟩] := by decide +kernel
  have hname (n : String) (s : Span) : Grammar.Whole [⟨.name n,s⟩] (.var ⟨n,s⟩) :=
    .single (.of_unary (.of_primary (.name rfl)) .or)
  have hparts : Grammar.Parts (scan source).tokens ps := by
    rw [htokens]
    exact .cons (.comment rfl (.raw rfl) rfl) (.cons (.tag rfl (.ifTag rfl (hname ..)) rfl)
      (.cons (.text rfl (by decide)) (.cons (.tag rfl (.elseTag rfl) rfl)
      (.cons (.echo rfl (hname ..) rfl) (.cons (.tag rfl (.endifTag rfl) rfl) .nil)))))
  have hscanned : (scan source).fault = none := by decide +kernel
  have houtlined : Outlined source ps := ⟨hscanned,hparts⟩
  have hnodes : parse source = .ok nodes :=
    parse_eq_ok_iff.mpr (by rw [outlined_iff.mp houtlined]; exact ⟨rfl,rfl⟩)
  obtain ⟨hderivable,_,_,htree⟩ := parse_iff_derivable houtlined broken
  obtain ⟨hlinked,hwalk,_⟩ := htree [.tag first] rfl
  have hlinkage := hlinked.linkage (.here List.mem_cons_self)
  exact ⟨houtlined,hderivable.mp ⟨nodes,hnodes⟩,hnodes,rfl,rfl,hlinkage,hwalk⟩

end Stencil.Document
