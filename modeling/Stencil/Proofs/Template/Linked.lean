import Stencil.Proofs.Template.Structure

set_option autoImplicit false

namespace Stencil

mutual

inductive Element where
  | text (content : String) (span : Span)
  | echo (term : Term) (span : Span)
  | tag (tag : LinkedTag)

/-- A tag with its body and the next tag of its chain. -/
inductive LinkedTag where
  | mk (tag : Tag) (span : Span) (body : List Element) (next : Option LinkedTag)

end

namespace LinkedTag

def tag : LinkedTag → Tag
  | .mk t _ _ _ => t

def span : LinkedTag → Span
  | .mk _ s _ _ => s

def body : LinkedTag → List Element
  | .mk _ _ b _ => b

def next : LinkedTag → Option LinkedTag
  | .mk _ _ _ n => n

mutual

def chain : LinkedTag → List LinkedTag
  | .mk t s b n => .mk t s b n :: chainOf n

def chainOf : Option LinkedTag → List LinkedTag
  | none => []
  | some t => t.chain

end

end LinkedTag

mutual

def Element.walk : Element → List Piece
  | .text content s => [.text content s]
  | .echo t s => [.echo t s]
  | .tag t => t.walk

def Element.walkAll : List Element → List Piece
  | [] => []
  | e :: es => e.walk ++ Element.walkAll es

def LinkedTag.walk : LinkedTag → List Piece
  | .mk t s b n => .tag t s :: (Element.walkAll b ++ LinkedTag.walkNext n)

def LinkedTag.walkNext : Option LinkedTag → List Piece
  | none => []
  | some t => t.walk

end

mutual

def Node.element : Node → Element
  | .text content s => .text content s
  | .echo t s => .echo t s
  | .assign n v s => .tag (.mk (.setTag n v) s [] none)
  | .define n v s => .tag (.mk (.letTag n v) s [] none)
  | .embed path bindings s => .tag (.mk (.includeTag path bindings) s [] none)
  | .insert path s => .tag (.mk (.textTag path) s [] none)
  | .branch c s body rest => .tag (.mk (.ifTag c) s (Node.elements body) (some rest.linked))
  | .loop vars t s body rest =>
    .tag (.mk (.forTag vars t) s (Node.elements body) (some (rest.linked .endforTag)))

def Node.elements : List Node → List Element
  | [] => []
  | n :: ns => n.element :: Node.elements ns

def Alternatives.linked : Alternatives → LinkedTag
  | .elif c s body rest => .mk (.elifTag c) s (Node.elements body) (some rest.linked)
  | .last tail => tail.linked .endifTag

def Tail.linked (closing : Tag) : Tail → LinkedTag
  | .otherwise s body close =>
    .mk .elseTag s (Node.elements body) (some (.mk closing close [] none))
  | .close s => .mk closing s [] none

end

inductive Within (e : Element) : List Element → Prop where
  | here {es : List Element} : e ∈ es → Within e es
  | inside {es : List Element} {t u : LinkedTag} : .tag t ∈ es → u ∈ t.chain →
      Within e u.body → Within e es

def Tag.isEnd : Tag → Bool
  | .endifTag | .endforTag => true
  | _ => false

def Tag.isSingle : Tag → Bool
  | .setTag _ _ | .letTag _ _ | .includeTag _ _ | .textTag _ => true
  | _ => false

/-- The tags of a whole chain. -/
inductive Linkage : List Tag → Prop where
  | single {t : Tag} : t.isSingle = true → Linkage [t]
  | branch {c : Term} {elifs : List Term} {otherwise : List Tag} :
      otherwise = [] ∨ otherwise = [.elseTag] →
      Linkage (.ifTag c :: (elifs.map .elifTag ++ (otherwise ++ [.endifTag])))
  | loop {vars : LoopVars} {t : Term} {otherwise : List Tag} :
      otherwise = [] ∨ otherwise = [.elseTag] →
      Linkage (.forTag vars t :: (otherwise ++ [.endforTag]))

/-- Every chain is whole, starts at an element of a body, and has bodies only where it may. -/
structure WellLinked (es : List Element) : Prop where
  linkage {t : LinkedTag} : Within (.tag t) es → Linkage (t.chain.map LinkedTag.tag)
  starts {t : LinkedTag} : Within (.tag t) es → t.tag.isLink = false
  bodiless {t u : LinkedTag} : Within (.tag t) es → u ∈ t.chain →
    u.tag.isSingle = true ∨ u.tag.isEnd = true → u.body = [] ∧ u.next = none

namespace Node

mutual

theorem walk_element : (n : Node) → n.element.walk = n.pieces
  | .text _ _ | .echo _ _ | .assign _ _ _ | .define _ _ _ | .embed _ _ _ | .insert _ _ => rfl
  | .branch _ _ body rest => by
    simp [element,pieces,Element.walk,LinkedTag.walk,LinkedTag.walkNext,walkAll_elements body,
      walk_alternatives rest]
  | .loop _ _ _ body rest => by
    simp [element,pieces,Element.walk,LinkedTag.walk,LinkedTag.walkNext,walkAll_elements body,
      walk_tail .endforTag rest]

theorem walkAll_elements : (nodes : List Node) →
    Element.walkAll (elements nodes) = listPieces nodes
  | [] => rfl
  | n :: ns => by
    simp [elements,listPieces,Element.walkAll,walk_element n,walkAll_elements ns]

theorem walk_alternatives : (alternatives : Alternatives) →
    alternatives.linked.walk = alternatives.pieces
  | .elif _ _ body rest => by
    simp [Alternatives.linked,Alternatives.pieces,LinkedTag.walk,LinkedTag.walkNext,
      walkAll_elements body,walk_alternatives rest]
  | .last tail => walk_tail .endifTag tail

theorem walk_tail (closing : Tag) : (tail : Tail) →
    (tail.linked closing).walk = tail.pieces closing
  | .otherwise _ body _ => by
    simp [Tail.linked,Tail.pieces,LinkedTag.walk,LinkedTag.walkNext,Element.walkAll,
      walkAll_elements body]
  | .close _ => rfl

end

theorem elements_eq_map (nodes : List Node) : elements nodes = nodes.map element := by
  induction nodes with
  | nil => rfl
  | cons n ns ih => simp [elements,ih]

end Node

namespace LinkedTag

@[simp] theorem chain_mk {t : Tag} {s : Span} {b : List Element} {n : Option LinkedTag} :
    chain (.mk t s b n) = .mk t s b n :: chainOf n := rfl

@[simp] theorem chainOf_none : chainOf none = [] := rfl

@[simp] theorem chainOf_some {t : LinkedTag} : chainOf (some t) = t.chain := rfl

/-- A tag of a tree: its body is one of nodes, and none if it stands alone or ends a chain. -/
structure Regular (t : LinkedTag) : Prop where
  nodes : ∃ ns, t.body = Node.elements ns
  bodiless : t.tag.isSingle = true ∨ t.tag.isEnd = true → t.body = [] ∧ t.next = none

theorem regular_leaf {t : Tag} {s : Span} : Regular (.mk t s [] none) :=
  ⟨⟨[],rfl⟩,fun _ => ⟨rfl,rfl⟩⟩

theorem regular_linked {t : Tag} {s : Span} {body : List Node} {n : Option LinkedTag}
    (hsingle : t.isSingle = false) (hend : t.isEnd = false) :
    Regular (.mk t s (Node.elements body) n) := by
  refine ⟨⟨body,rfl⟩,fun h => ?_⟩
  simp [tag,hsingle,hend] at h

end LinkedTag

namespace Tail

theorem tags_linked (closing : Tag) (tail : Tail) : ∃ otherwise : List Tag,
    (otherwise = [] ∨ otherwise = [.elseTag]) ∧
      (tail.linked closing).chain.map LinkedTag.tag = otherwise ++ [closing] := by
  cases tail with
  | otherwise s body close => exact ⟨[.elseTag],.inr rfl,rfl⟩
  | close s => exact ⟨[],.inl rfl,rfl⟩

theorem regular_linked {closing : Tag} {tail : Tail} {u : LinkedTag}
    (h : u ∈ (tail.linked closing).chain) : u.Regular := by
  cases tail with
  | otherwise s body close =>
    simp only [linked,LinkedTag.chain_mk,LinkedTag.chainOf_some,LinkedTag.chainOf_none,
      List.mem_cons,List.not_mem_nil,or_false] at h
    obtain rfl | rfl := h
    · exact LinkedTag.regular_linked rfl rfl
    · exact LinkedTag.regular_leaf
  | close s =>
    simp only [linked,LinkedTag.chain_mk,LinkedTag.chainOf_none,List.mem_cons,List.not_mem_nil,
      or_false] at h
    obtain rfl := h
    exact LinkedTag.regular_leaf

end Tail

namespace Alternatives

theorem tags_linked : (alternatives : Alternatives) → ∃ (elifs : List Term)
    (otherwise : List Tag), (otherwise = [] ∨ otherwise = [.elseTag]) ∧
      alternatives.linked.chain.map LinkedTag.tag =
        elifs.map .elifTag ++ (otherwise ++ [.endifTag])
  | .elif c s body rest => by
    obtain ⟨elifs,otherwise,hotherwise,htags⟩ := tags_linked rest
    exact ⟨c :: elifs,otherwise,hotherwise,by simp [linked,LinkedTag.tag,htags]⟩
  | .last tail => by
    obtain ⟨otherwise,hotherwise,htags⟩ := tail.tags_linked .endifTag
    exact ⟨[],otherwise,hotherwise,by simp [linked,htags]⟩

theorem regular_linked {u : LinkedTag} : (alternatives : Alternatives) →
    u ∈ alternatives.linked.chain → u.Regular
  | .elif c s body rest, h => by
    simp only [linked,LinkedTag.chain_mk,LinkedTag.chainOf_some,List.mem_cons] at h
    obtain rfl | hrest := h
    · exact LinkedTag.regular_linked rfl rfl
    · exact regular_linked rest hrest
  | .last tail, h => Tail.regular_linked h

end Alternatives

namespace Node

variable {n : Node} {nodes : List Node} {t u : LinkedTag}

theorem linkage_element (h : n.element = .tag t) : Linkage (t.chain.map LinkedTag.tag) := by
  cases n with
  | text _ _ => simp [element] at h
  | echo _ _ => simp [element] at h
  | assign _ _ _ | define _ _ _ | embed _ _ _ | insert _ _ =>
    obtain rfl := Element.tag.inj h
    exact .single rfl
  | branch c s body rest =>
    obtain rfl := Element.tag.inj h
    obtain ⟨elifs,otherwise,hotherwise,htags⟩ := rest.tags_linked
    simpa [htags,LinkedTag.tag] using Linkage.branch hotherwise
  | loop vars t s body rest =>
    obtain rfl := Element.tag.inj h
    obtain ⟨otherwise,hotherwise,htags⟩ := rest.tags_linked .endforTag
    simpa [htags,LinkedTag.tag] using Linkage.loop hotherwise

theorem isLink_element (h : n.element = .tag t) : t.tag.isLink = false := by
  cases n with
  | text _ _ | echo _ _ => simp [element] at h
  | assign _ _ _ | define _ _ _ | embed _ _ _ | insert _ _ | branch _ _ _ _ | loop _ _ _ _ _ =>
    obtain rfl := Element.tag.inj h
    rfl

theorem regular_element (h : n.element = .tag t) (hu : u ∈ t.chain) : u.Regular := by
  cases n with
  | text _ _ | echo _ _ => simp [element] at h
  | assign _ _ _ | define _ _ _ | embed _ _ _ | insert _ _ =>
    obtain rfl := Element.tag.inj h
    obtain rfl : u = _ := by simpa using hu
    exact LinkedTag.regular_leaf
  | branch c s body rest =>
    obtain rfl := Element.tag.inj h
    simp only [LinkedTag.chain_mk,LinkedTag.chainOf_some,List.mem_cons] at hu
    obtain rfl | hrest := hu
    · exact LinkedTag.regular_linked rfl rfl
    · exact rest.regular_linked hrest
  | loop vars t s body rest =>
    obtain rfl := Element.tag.inj h
    simp only [LinkedTag.chain_mk,LinkedTag.chainOf_some,List.mem_cons] at hu
    obtain rfl | hrest := hu
    · exact LinkedTag.regular_linked rfl rfl
    · exact Tail.regular_linked hrest

theorem exists_of_within {e : Element} {es : List Element} (h : Within e es)
    (hes : ∃ nodes, es = elements nodes) : ∃ n : Node, n.element = e := by
  induction h with
  | here he =>
    obtain ⟨nodes,rfl⟩ := hes
    rw [elements_eq_map] at he
    obtain ⟨n,_,hn⟩ := List.mem_map.mp he
    exact ⟨n,hn⟩
  | inside ht hu _ ih =>
    obtain ⟨nodes,rfl⟩ := hes
    rw [elements_eq_map] at ht
    obtain ⟨n,_,hn⟩ := List.mem_map.mp ht
    exact ih (regular_element hn hu).nodes

theorem wellLinked (nodes : List Node) : WellLinked (elements nodes) where
  linkage ht := by
    obtain ⟨n,hn⟩ := exists_of_within ht ⟨nodes,rfl⟩
    exact linkage_element hn
  starts ht := by
    obtain ⟨n,hn⟩ := exists_of_within ht ⟨nodes,rfl⟩
    exact isLink_element hn
  bodiless ht hu := by
    obtain ⟨n,hn⟩ := exists_of_within ht ⟨nodes,rfl⟩
    exact (regular_element hn hu).bodiless

end Node

namespace Document

variable {source : String} {nodes : List Node}

theorem parse_eq_ok_iff [Alphabet] : parse source = .ok nodes ↔
    (Pieces.ofSource source).fault = none ∧
      Node.listPieces nodes = (Pieces.ofSource source).pieces :=
  Node.ofPieces_eq_ok_iff

end Document

end Stencil
