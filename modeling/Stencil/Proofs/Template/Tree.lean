import Stencil.Proofs.Outcome
import Stencil.Template.Node

set_option autoImplicit false

namespace Stencil

def Piece.leaf? : Piece → Option Node
  | .text content s => some (.text content s)
  | .echo t s => some (.echo t s)
  | .tag (.setTag n v) s => some (.assign n v s)
  | .tag (.letTag n v) s => some (.define n v s)
  | .tag (.includeTag p bs) s => some (.embed p bs s)
  | .tag (.textTag p) s => some (.insert p s)
  | _ => none

def Tag.isLink : Tag → Bool
  | .elifTag _ | .elseTag | .endifTag | .endforTag => true
  | _ => false

theorem Piece.pieces_of_leaf? {p : Piece} {n : Node} (h : p.leaf? = some n) : n.pieces = [p] := by
  unfold leaf? at h
  split at h <;> first | (cases h; rfl) | cases h

def Node.Chain.closing : Chain → Tag
  | .branch => .endifTag
  | .loop => .endforTag

theorem Node.Chain.isClosedBy_iff {chain : Chain} {tag : Tag} :
    chain.isClosedBy tag = true ↔ tag = chain.closing := by
  cases chain <;> cases tag <;> simp [isClosedBy,closing]

namespace Stop

def pieces (stop : Stop) : List Piece :=
  stop.tag.toList.map (fun t => .tag t.1 t.2) ++ stop.rest

@[simp] theorem pieces_mk_some {tag : Tag} {s : Span} {rest : List Piece} :
    pieces ⟨some (tag,s),rest⟩ = .tag tag s :: rest := rfl

/-- Nodes end in front of a tag that belongs to a chain around them, or with the source. -/
inductive Clean (fault : Option Fault) : Stop → Prop where
  | ended : fault = none → Clean fault ⟨none,[]⟩
  | link {tag : Tag} {s : Span} {rest : List Piece} : tag.isLink = true →
      Clean fault ⟨some (tag,s),rest⟩

end Stop

namespace Node

variable {fault : Option Fault} {chain : Chain} {opening s : Span} {stop : Stop}
  {rest r : List Piece} {nodes : List Node}

theorem gives_readClose {close : Span} : Gives (readClose chain opening stop) close rest ↔
    stop = ⟨some (chain.closing,close),rest⟩ := by
  obtain ⟨tag,left⟩ := stop
  unfold readClose
  split
  · rename_i h
    obtain rfl : tag = none := h
    simp
  · rename_i t s h
    obtain rfl : tag = some (t,s) := h
    split
    · rename_i hclosed
      simp [Node.Chain.isClosedBy_iff.mp hclosed]
    · rename_i hclosed
      simp only [Gives.error_iff,false_iff]
      rintro ⟨⟩
      exact hclosed (Node.Chain.isClosedBy_iff.mpr rfl)

theorem gives_readTail_of_else {tail : Tail} (h : stop.tag = some (.elseTag,s)) :
    Gives (readTail fault chain opening stop) tail rest ↔ ∃ body close,
      Gives (readNodes fault stop.rest) body ⟨some (chain.closing,close),rest⟩ ∧
        tail = .otherwise s body close := by
  rw [readTail.eq_def]
  split
  · rename_i s' h'
    obtain ⟨rfl⟩ : s' = s := by simpa [h'] using h
    simp only [Gives.bind_gives_iff,Gives.pure_iff,gives_readClose]
    constructor
    · rintro ⟨body,_,_,hbody,close,r,_,rfl,rfl,rfl⟩
      exact ⟨body,close,hbody,rfl⟩
    · rintro ⟨body,close,hbody,rfl⟩
      exact ⟨body,_,hbody.holds,hbody,close,rest,by simp [Stop.size],rfl,rfl,rfl⟩
  · rename_i hne
    exact absurd h (hne s)

theorem gives_readTail_of_ne {tail : Tail} (h : ∀ s, stop.tag ≠ some (.elseTag,s)) :
    Gives (readTail fault chain opening stop) tail rest ↔ ∃ close,
      stop = ⟨some (chain.closing,close),rest⟩ ∧ tail = .close close := by
  rw [readTail.eq_def]
  split
  · rename_i s' h'
    exact absurd h' (h s')
  · simp only [Gives.bind_gives_iff,Gives.pure_iff,gives_readClose]
    constructor
    · rintro ⟨close,_,_,rfl,rfl,rfl⟩
      exact ⟨close,rfl,rfl⟩
    · rintro ⟨close,rfl,rfl⟩
      exact ⟨close,rest,by simp [Stop.size],rfl,rfl,rfl⟩

theorem gives_readAlternatives_of_elif {condition : Term} {alternatives : Alternatives}
    (h : stop.tag = some (.elifTag condition,s)) :
    Gives (readAlternatives fault opening stop) alternatives rest ↔ ∃ body stop' more,
      Gives (readNodes fault stop.rest) body stop' ∧
        Gives (readAlternatives fault opening stop') more rest ∧
        alternatives = .elif condition s body more := by
  rw [readAlternatives.eq_def]
  split
  · rename_i c s' h'
    obtain ⟨rfl,rfl⟩ : c = condition ∧ s' = s := by simpa [h'] using h
    simp only [Gives.bind_gives_iff,Gives.pure_iff]
    constructor
    · rintro ⟨body,stop',_,hbody,more,_,_,hmore,rfl,rfl⟩
      exact ⟨body,stop',more,hbody,hmore,rfl⟩
    · rintro ⟨body,stop',more,hbody,hmore,rfl⟩
      exact ⟨body,stop',hbody.holds,hbody,more,rest,hmore.holds,hmore,rfl,rfl⟩
  · rename_i hne
    exact absurd h (hne condition s)

theorem gives_readAlternatives_of_ne {alternatives : Alternatives}
    (h : ∀ c s, stop.tag ≠ some (.elifTag c,s)) :
    Gives (readAlternatives fault opening stop) alternatives rest ↔ ∃ tail,
      Gives (readTail fault .branch opening stop) tail rest ∧ alternatives = .last tail := by
  rw [readAlternatives.eq_def]
  split
  · rename_i c s' h'
    exact absurd h' (h c s')
  · simp only [Gives.bind_gives_iff,Gives.pure_iff]
    constructor
    · rintro ⟨tail,_,_,htail,rfl,rfl⟩
      exact ⟨tail,htail,rfl⟩
    · rintro ⟨tail,htail,rfl⟩
      exact ⟨tail,rest,htail.holds,htail,rfl,rfl⟩

theorem gives_readNodes_nil : Gives (readNodes fault []) nodes stop ↔
    fault = none ∧ nodes = [] ∧ stop = ⟨none,[]⟩ := by
  cases fault <;> simp [readNodes,eq_comm]

theorem gives_readBehind {n : Node} : Gives (readBehind fault n r) nodes stop ↔
    ∃ more, Gives (readNodes fault r) more stop ∧ nodes = n :: more := by
  rw [readBehind]
  simp only [Gives.bind_gives_iff,Gives.pure_iff]
  constructor
  · rintro ⟨more,_,_,hmore,rfl,rfl⟩
    exact ⟨more,hmore,rfl⟩
  · rintro ⟨more,hmore,rfl⟩
    exact ⟨more,stop,hmore.holds,hmore,rfl,rfl⟩

theorem gives_readNodes_of_leaf {p : Piece} {n : Node} (h : p.leaf? = some n) :
    Gives (readNodes fault (p :: r)) nodes stop ↔
      ∃ more, Gives (readNodes fault r) more stop ∧ nodes = n :: more := by
  rw [← gives_readBehind]
  unfold Piece.leaf? at h
  split at h <;> first | (cases h; rw [readNodes]) | cases h

theorem gives_readNodes_of_link {tag : Tag} (h : tag.isLink = true) :
    Gives (readNodes fault (.tag tag s :: r)) nodes stop ↔
      nodes = [] ∧ stop = ⟨some (tag,s),r⟩ := by
  unfold Tag.isLink at h
  split at h <;> first | contradiction | (rw [readNodes] <;> simp [eq_comm])

theorem gives_readNodes_of_if {condition : Term} :
    Gives (readNodes fault (.tag (.ifTag condition) s :: r)) nodes stop ↔
      ∃ body stop' alternatives rest more, Gives (readNodes fault r) body stop' ∧
        Gives (readAlternatives fault s stop') alternatives rest ∧
        Gives (readNodes fault rest) more stop ∧
        nodes = .branch condition s body alternatives :: more := by
  rw [readNodes]
  simp only [Gives.bind_gives_iff,Gives.pure_iff]
  constructor
  · rintro ⟨body,stop',_,hbody,alternatives,rest,_,halternatives,more,_,_,hmore,rfl,rfl⟩
    exact ⟨body,stop',alternatives,rest,more,hbody,halternatives,hmore,rfl⟩
  · rintro ⟨body,stop',alternatives,rest,more,hbody,halternatives,hmore,rfl⟩
    exact ⟨body,stop',hbody.holds,hbody,alternatives,rest,halternatives.holds,halternatives,
      more,stop,hmore.holds,hmore,rfl,rfl⟩

theorem gives_readNodes_of_for {vars : LoopVars} {iterable : Term} :
    Gives (readNodes fault (.tag (.forTag vars iterable) s :: r)) nodes stop ↔
      ∃ body stop' tail rest more, Gives (readNodes fault r) body stop' ∧
        Gives (readTail fault .loop s stop') tail rest ∧
        Gives (readNodes fault rest) more stop ∧
        nodes = .loop vars iterable s body tail :: more := by
  rw [readNodes]
  simp only [Gives.bind_gives_iff,Gives.pure_iff]
  constructor
  · rintro ⟨body,stop',_,hbody,tail,rest,_,htail,more,_,_,hmore,rfl,rfl⟩
    exact ⟨body,stop',tail,rest,more,hbody,htail,hmore,rfl⟩
  · rintro ⟨body,stop',tail,rest,more,hbody,htail,hmore,rfl⟩
    exact ⟨body,stop',hbody.holds,hbody,tail,rest,htail.holds,htail,
      more,stop,hmore.holds,hmore,rfl,rfl⟩

end Node

theorem Piece.leaf_or_tag (p : Piece) : (∃ n, p.leaf? = some n) ∨
    (∃ tag s, p = .tag tag s ∧ tag.isLink = true) ∨ (∃ c s, p = .tag (.ifTag c) s) ∨
    ∃ vars t s, p = .tag (.forTag vars t) s := by
  match p with
  | .text _ _ | .echo _ _ => exact .inl ⟨_,rfl⟩
  | .tag t s => cases t <;> simp [leaf?,Tag.isLink]

namespace Node

mutual

theorem readNodes_sound {fault : Option Fault} {ps : List Piece} {nodes : List Node} {stop : Stop}
    (h : Gives (readNodes fault ps) nodes stop) :
    listPieces nodes ++ stop.pieces = ps ∧ stop.Clean fault := by
  match ps with
  | [] =>
    obtain ⟨hfault,rfl,rfl⟩ := gives_readNodes_nil.mp h
    exact ⟨rfl,.ended hfault⟩
  | p :: r =>
    obtain ⟨n,hn⟩ | ⟨tag,s,rfl,htag⟩ | ⟨c,s,rfl⟩ | ⟨vars,t,s,rfl⟩ := p.leaf_or_tag
    · obtain ⟨more,hmore,rfl⟩ := (gives_readNodes_of_leaf hn).mp h
      obtain ⟨rfl,hstop⟩ := readNodes_sound hmore
      exact ⟨by simp [listPieces,Piece.pieces_of_leaf? hn],hstop⟩
    · obtain ⟨rfl,rfl⟩ := (gives_readNodes_of_link htag).mp h
      exact ⟨rfl,.link htag⟩
    · obtain ⟨body,stop',alternatives,rest,more,hbody,halternatives,hmore,rfl⟩ :=
        gives_readNodes_of_if.mp h
      have := hbody.holds
      have := halternatives.holds
      obtain ⟨rfl,_⟩ := readNodes_sound hbody
      have hpieces := readAlternatives_sound halternatives
      obtain ⟨rfl,hstop⟩ := readNodes_sound hmore
      exact ⟨by simp [listPieces,pieces,← hpieces],hstop⟩
    · obtain ⟨body,stop',tail,rest,more,hbody,htail,hmore,rfl⟩ := gives_readNodes_of_for.mp h
      have := hbody.holds
      have := htail.holds
      obtain ⟨rfl,_⟩ := readNodes_sound hbody
      have hpieces := readTail_sound htail
      obtain ⟨rfl,hstop⟩ := readNodes_sound hmore
      exact ⟨by simp [listPieces,pieces,← hpieces,Chain.closing],hstop⟩
termination_by 4 * ps.length + 1

theorem readAlternatives_sound {fault : Option Fault} {opening : Span} {stop : Stop}
    {alternatives : Alternatives} {rest : List Piece}
    (h : Gives (readAlternatives fault opening stop) alternatives rest) :
    alternatives.pieces ++ rest = stop.pieces := by
  by_cases hstop : ∃ c s, stop.tag = some (.elifTag c,s)
  · obtain ⟨c,s,hc⟩ := hstop
    obtain ⟨body,stop',more,hbody,hmore,rfl⟩ := (gives_readAlternatives_of_elif hc).mp h
    have hsize : stop.size = stop.rest.length + 1 := by simp [Stop.size,hc]
    have := hbody.holds
    have hpieces := readAlternatives_sound hmore
    obtain ⟨hrest,_⟩ := readNodes_sound hbody
    simp [Alternatives.pieces,Stop.pieces,hc,hpieces,← hrest]
  · simp only [not_exists] at hstop
    obtain ⟨tail,htail,rfl⟩ := (gives_readAlternatives_of_ne hstop).mp h
    exact readTail_sound htail
termination_by 4 * stop.size + 1

theorem readTail_sound {fault : Option Fault} {chain : Chain} {opening : Span} {stop : Stop}
    {tail : Tail} {rest : List Piece}
    (h : Gives (readTail fault chain opening stop) tail rest) :
    tail.pieces chain.closing ++ rest = stop.pieces := by
  by_cases hstop : ∃ s, stop.tag = some (.elseTag,s)
  · obtain ⟨s,hs⟩ := hstop
    obtain ⟨body,close,hbody,rfl⟩ := (gives_readTail_of_else hs).mp h
    have hsize : stop.size = stop.rest.length + 1 := by simp [Stop.size,hs]
    obtain ⟨hrest,_⟩ := readNodes_sound hbody
    simp [Tail.pieces,Stop.pieces,hs,← hrest]
  · simp only [not_exists] at hstop
    obtain ⟨close,rfl,rfl⟩ := (gives_readTail_of_ne hstop).mp h
    rfl
termination_by 4 * stop.size

end

theorem Chain.isLink_closing (chain : Chain) : chain.closing.isLink = true := by
  cases chain <;> rfl

theorem reads_of_leaf {fault : Option Fault} {r : List Piece} {nodes : List Node} {stop : Stop}
    {p : Piece} {n : Node} (hn : p.leaf? = some n)
    (h : Gives (readNodes fault r) nodes stop) :
    Gives (readNodes fault (n.pieces ++ r)) (n :: nodes) stop := by
  rw [Piece.pieces_of_leaf? hn]
  exact (gives_readNodes_of_leaf hn).mpr ⟨nodes,h,rfl⟩

mutual

theorem reads {fault : Option Fault} {r : List Piece} {nodes : List Node} {stop : Stop} (n : Node)
    (h : Gives (readNodes fault r) nodes stop) :
    Gives (readNodes fault (n.pieces ++ r)) (n :: nodes) stop := by
  match n with
  | .text content s => exact reads_of_leaf (p := .text content s) rfl h
  | .echo t s => exact reads_of_leaf (p := .echo t s) rfl h
  | .assign n v s => exact reads_of_leaf (p := .tag (.setTag n v) s) rfl h
  | .define n v s => exact reads_of_leaf (p := .tag (.letTag n v) s) rfl h
  | .embed path bs s => exact reads_of_leaf (p := .tag (.includeTag path bs) s) rfl h
  | .insert path s => exact reads_of_leaf (p := .tag (.textTag path) s) rfl h
  | .branch c s body alternatives =>
    obtain ⟨stop',hpieces,hclean,halternatives⟩ := alternatives_read alternatives fault s r
    have hbody := list_reads body hclean
    rw [pieces,List.cons_append,List.append_assoc,hpieces]
    exact gives_readNodes_of_if.mpr ⟨body,stop',alternatives,r,_,hbody,halternatives,h,rfl⟩
  | .loop vars t s body tail =>
    obtain ⟨stop',hpieces,hclean,_,htail⟩ := tail_reads tail .loop fault s r
    have hbody := list_reads body hclean
    simp only [Chain.closing] at hpieces
    rw [pieces,List.cons_append,List.append_assoc,hpieces]
    exact gives_readNodes_of_for.mpr ⟨body,stop',tail,r,_,hbody,htail,h,rfl⟩

theorem list_reads {fault : Option Fault} {stop : Stop} : (nodes : List Node) → stop.Clean fault →
    Gives (readNodes fault (listPieces nodes ++ stop.pieces)) nodes stop
  | [], .ended hfault => gives_readNodes_nil.mpr ⟨hfault,rfl,rfl⟩
  | [], .link htag => (gives_readNodes_of_link htag).mpr ⟨rfl,rfl⟩
  | n :: ns, hclean => by
    rw [listPieces,List.append_assoc]
    exact reads n (list_reads ns hclean)

theorem alternatives_read (alternatives : Alternatives) (fault : Option Fault) (opening : Span)
    (rest : List Piece) : ∃ stop : Stop, alternatives.pieces ++ rest = stop.pieces ∧
      stop.Clean fault ∧ Gives (readAlternatives fault opening stop) alternatives rest := by
  match alternatives with
  | .elif c s body more =>
    obtain ⟨stop',hpieces,hclean,hmore⟩ := alternatives_read more fault opening rest
    have hbody := list_reads body hclean
    refine ⟨⟨some (.elifTag c,s),listPieces body ++ stop'.pieces⟩,?_,.link rfl,?_⟩
    · simp [Alternatives.pieces,hpieces]
    · exact (gives_readAlternatives_of_elif rfl).mpr ⟨body,stop',more,hbody,hmore,rfl⟩
  | .last tail =>
    obtain ⟨stop,hpieces,hclean,hne,htail⟩ := tail_reads tail .branch fault opening rest
    exact ⟨stop,hpieces,hclean,(gives_readAlternatives_of_ne hne).mpr ⟨tail,htail,rfl⟩⟩

theorem tail_reads (tail : Tail) (chain : Chain) (fault : Option Fault) (opening : Span)
    (rest : List Piece) : ∃ stop : Stop, tail.pieces chain.closing ++ rest = stop.pieces ∧
      stop.Clean fault ∧ (∀ c s, stop.tag ≠ some (.elifTag c,s)) ∧
      Gives (readTail fault chain opening stop) tail rest := by
  match tail with
  | .otherwise s body close =>
    have hclean : Stop.Clean fault ⟨some (chain.closing,close),rest⟩ := .link chain.isLink_closing
    have hbody := list_reads body hclean
    refine ⟨⟨some (.elseTag,s),_⟩,?_,.link rfl,by simp,
      (gives_readTail_of_else rfl).mpr ⟨body,close,hbody,rfl⟩⟩
    simp [Tail.pieces]
  | .close s =>
    refine ⟨⟨some (chain.closing,s),rest⟩,rfl,.link chain.isLink_closing,?_,?_⟩
    · cases chain <;> simp [Chain.closing]
    · refine (gives_readTail_of_ne ?_).mpr ⟨s,rfl,rfl⟩
      cases chain <;> simp [Chain.closing]

end

/-- The tree of a sequence of pieces is the one tree with these pieces. -/
theorem ofPieces_eq_ok_iff {ps : List Piece} {fault : Option Fault} {nodes : List Node} :
    ofPieces ps fault = .ok nodes ↔ fault = none ∧ listPieces nodes = ps := by
  constructor
  · intro h
    unfold ofPieces at h
    cases hread : readNodes fault ps with
    | error f => simp [hread,bind,Except.bind] at h
    | ok result =>
      obtain ⟨ns,stop,hstop⟩ := result
      have hgives : Gives (readNodes fault ps) ns stop := ⟨hstop,hread⟩
      obtain ⟨hpieces,hclean⟩ := readNodes_sound hgives
      cases hclean with
      | link _ => simp [hread,bind,Except.bind] at h
      | ended hfault =>
        obtain rfl : ns = nodes := by simpa [hread,bind,Except.bind,pure,Except.pure] using h
        exact ⟨hfault,by simpa [Stop.pieces] using hpieces⟩
  · rintro ⟨rfl,rfl⟩
    have hclean : Stop.Clean none ⟨none,[]⟩ := .ended rfl
    have hgives := list_reads nodes hclean
    rw [show Stop.pieces ⟨none,[]⟩ = [] from rfl,List.append_nil] at hgives
    obtain ⟨_,hread⟩ := hgives
    simp [ofPieces,hread,bind,Except.bind,pure,Except.pure]

theorem listPieces_injective {nodes nodes' : List Node} (h : listPieces nodes = listPieces nodes') :
    nodes = nodes' := by
  have h₁ := ofPieces_eq_ok_iff.mpr ⟨rfl,h⟩
  have h₂ := ofPieces_eq_ok_iff.mpr ⟨rfl,(Eq.refl (listPieces nodes'))⟩
  simpa [h₁] using h₂

end Node

end Stencil
