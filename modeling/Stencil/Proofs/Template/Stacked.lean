import Stencil.Proofs.Template.Linked

/-!
Chains on a stack: an opening tag pushes a chain, what stands behind a tag is collected in its body,
and an end tag pops the chain and links its tags. This gives the trees and the faults of the reading
of nodes, which follows the chains by recursion.
-/

set_option autoImplicit false

namespace Stencil

inductive Link where
  | elif | otherwise

inductive Role where
  | opens (chain : Node.Chain)
  | links (link : Link)
  | ends (chain : Node.Chain)
  | single

def Tag.role : Tag → Role
  | .ifTag _ => .opens .branch
  | .forTag _ _ => .opens .loop
  | .elifTag _ => .links .elif
  | .elseTag => .links .otherwise
  | .endifTag => .ends .branch
  | .endforTag => .ends .loop
  | .setTag _ _ | .letTag _ _ | .includeTag _ _ | .textTag _ => .single

theorem Tag.links_or_ends {tag : Tag} (h : tag.isLink = true) :
    (∃ link, tag.role = .links link) ∨ ∃ chain, tag.role = .ends chain := by
  cases tag <;> first | exact .inl ⟨_,rfl⟩ | exact .inr ⟨_,rfl⟩ | cases h

inductive ChainState where
  | primary | alternate

def ChainState.advance : Node.Chain → ChainState → Link → Option ChainState
  | .branch, .primary, .elif => some .primary
  | _, .primary, .otherwise => some .alternate
  | _, _, _ => none

namespace LinkedTag

def collect (t : LinkedTag) (es : List Element) : LinkedTag := .mk t.tag t.span (t.body ++ es) t.next

def linkTo (t next : LinkedTag) : LinkedTag := .mk t.tag t.span t.body (some next)

variable {tag : Tag} {s : Span} {body es es' : List Element} {t next : LinkedTag}
  {following : Option LinkedTag}

@[simp] theorem collect_mk : collect (.mk tag s body following) es = .mk tag s (body ++ es) following :=
  rfl

@[simp] theorem linkTo_mk : linkTo (.mk tag s body following) next = .mk tag s body (some next) := rfl

@[simp] theorem collect_nil : t.collect [] = t := by
  cases t
  simp

@[simp] theorem collect_collect : (t.collect es).collect es' = t.collect (es ++ es') := by
  cases t
  simp

end LinkedTag

/-- The first tag of a chain, each of its tags linked to the next one. The tags are given from the last
one on. -/
def linkChain : List LinkedTag → Option LinkedTag
  | [] => none
  | t :: ts => some (ts.foldl (fun next t => t.linkTo next) t)

/-- A chain that is not ended yet, and its tags from the last one on. -/
structure OpenChain where
  chain : Node.Chain
  state : ChainState
  tags : List LinkedTag

/-- What is collected outside of chains, and the chains that are open, the innermost one first. -/
structure Stack where
  root : List Element
  chains : List OpenChain

namespace Stack

def push (s : Stack) (e : Element) : Stack :=
  match s.chains with
  | ⟨chain,state,t :: ts⟩ :: cs =>
    { s with chains := ⟨chain,state,t.collect [e] :: ts⟩ :: cs }
  | _ => { s with root := s.root ++ [e] }

def misplaced (tag : Tag) (span : Span) : Fault := ⟨.misplacedTag tag.name,span⟩

def tagStep (broken : Fault) (s : Stack) (tag : Tag) (span : Span) : Except Fault Stack :=
  match tag.role with
  | .single => .ok (s.push (.tag (.mk tag span [] none)))
  | .opens chain =>
    .ok { s with chains := ⟨chain,.primary,[.mk tag span [] none]⟩ :: s.chains }
  | .links link =>
    match s.chains with
    | [] => .error (misplaced tag span)
    | c :: cs =>
      match c.state.advance c.chain link with
      | none => .error (misplaced tag span)
      | some state =>
        .ok { s with chains := ⟨c.chain,state,.mk tag span [] none :: c.tags⟩ :: cs }
  | .ends chain =>
    match s.chains with
    | [] => .error (misplaced tag span)
    | c :: cs =>
      if c.chain = chain then
        match linkChain (.mk tag span [] none :: c.tags) with
        | some head => .ok (push { s with chains := cs } (.tag head))
        | none => .error broken
      else .error (misplaced tag span)

def step (broken : Fault) (s : Stack) : Piece → Except Fault Stack
  | .text content span => .ok (s.push (.text content span))
  | .echo t span => .ok (s.push (.echo t span))
  | .tag tag span => s.tagStep broken tag span

def finish (s : Stack) : Except Fault (List Element) :=
  match s.chains with
  | [] => .ok s.root
  | c :: _ =>
    match c.tags.getLast? with
    | some t => .error ⟨.unclosedTag t.tag.name,t.span⟩
    | none => .ok s.root

/-- The elements of a sequence of pieces, behind which stands the given fault or the end. A chain
without tags would be the fault `broken`. -/
def run (broken : Fault) (fault : Option Fault) (s : Stack) : List Piece → Except Fault (List Element)
  | [] =>
    match fault with
    | some f => .error f
    | none => s.finish
  | p :: ps => do
    let s ← s.step broken p
    run broken fault s ps

end Stack

namespace OpenChain

def first? (c : OpenChain) : Option (Tag × Span) := c.tags.getLast?.map fun t => (t.tag,t.span)

def Started (c : OpenChain) : Prop :=
  ∃ tag span, c.first? = some (tag,span) ∧ tag.name = c.chain.name

def opening (c : OpenChain) : Span := (c.first?.map Prod.snd).getD ⟨0,0⟩

def link (c : OpenChain) (es : List Element) (next : LinkedTag) : LinkedTag :=
  match c.tags with
  | [] => next
  | t :: ts => ts.foldl (fun next t => t.linkTo next) ((t.collect es).linkTo next)

end OpenChain

theorem map_eq_bind {ε α β : Type} (x : Except ε α) (g : α → β) :
    x.map g = x >>= fun a => pure (g a) := by
  cases x <;> rfl

namespace Node

variable {fault : Option Fault} {chain : Chain} {opening s : Span} {r : List Piece} {tag : Tag}
  {stop : Stop}

def follow (fault : Option Fault) (opening : Span) : Chain → ChainState → Stop →
    Except Fault (LinkedTag × List Piece)
  | .branch, .primary, stop =>
    (readAlternatives fault opening stop).map fun p => (p.1.linked,p.2.1)
  | .loop, .primary, stop =>
    (readTail fault .loop opening stop).map fun p => (p.1.linked .endforTag,p.2.1)
  | chain, .alternate, stop =>
    (readClose chain opening stop).map fun p => (.mk chain.closing p.1 [] none,p.2.1)

theorem follow_branch : follow fault opening .branch .primary stop =
    (readAlternatives fault opening stop).map fun p => (p.1.linked,p.2.1) := rfl

theorem follow_loop : follow fault opening .loop .primary stop =
    (readTail fault .loop opening stop).map fun p => (p.1.linked .endforTag,p.2.1) := rfl

theorem follow_alternate : follow fault opening chain .alternate stop =
    (readClose chain opening stop).map fun p => (.mk chain.closing p.1 [] none,p.2.1) := by
  cases chain <;> rfl

def collected (fault : Option Fault) (ps : List Piece) : Except Fault (List Element × Stop) :=
  (readNodes fault ps).map fun p => (elements p.1,p.2.1)

def followBehind (fault : Option Fault) (opening : Span) (chain : Chain) (state : ChainState)
    (tag : Tag) (s : Span) (r : List Piece) : Except Fault (LinkedTag × List Piece) := do
  let (es,stop) ← collected fault r
  let (next,rest) ← follow fault opening chain state stop
  return (.mk tag s es (some next),rest)

theorem readTail_else : (readTail fault chain opening ⟨some (.elseTag,s),r⟩).map
      (fun p => (p.1.linked chain.closing,p.2.1)) =
    followBehind fault opening chain .alternate .elseTag s r := by
  rw [readTail.eq_def]
  simp only [followBehind,collected,follow_alternate,map_eq_bind,bind_assoc,pure_bind]
  rfl

theorem readTail_of_ne (h : ∀ s, stop.tag ≠ some (.elseTag,s)) :
    (readTail fault chain opening stop).map (fun p => (p.1.linked chain.closing,p.2.1)) =
      follow fault opening chain .alternate stop := by
  rw [readTail.eq_def,follow_alternate]
  split
  · rename_i s hs
    exact absurd hs (h s)
  · cases readClose chain opening stop <;> rfl

theorem readAlternatives_elif {c : Term} :
    (readAlternatives fault opening ⟨some (.elifTag c,s),r⟩).map (fun p => (p.1.linked,p.2.1)) =
      followBehind fault opening .branch .primary (.elifTag c) s r := by
  rw [readAlternatives.eq_def]
  simp only [followBehind,collected,follow_branch,map_eq_bind,bind_assoc,pure_bind]
  rfl

theorem readAlternatives_of_ne (h : ∀ c s, stop.tag ≠ some (.elifTag c,s)) :
    (readAlternatives fault opening stop).map (fun p => (p.1.linked,p.2.1)) =
      (readTail fault .branch opening stop).map fun p => (p.1.linked .endifTag,p.2.1) := by
  rw [readAlternatives.eq_def]
  split
  · rename_i c s hs
    exact absurd hs (h c s)
  · cases readTail fault .branch opening stop <;> rfl

theorem follow_links {link : Link} {state : ChainState} (h : tag.role = .links link) :
    follow fault opening chain state ⟨some (tag,s),r⟩ = match state.advance chain link with
      | none => .error (Stack.misplaced tag s)
      | some state' => followBehind fault opening chain state' tag s r := by
  cases state with
  | alternate =>
    rw [follow_alternate]
    cases tag <;> cases h <;> cases chain <;> rfl
  | primary =>
    cases tag with
    | elifTag c =>
      cases h
      cases chain with
      | branch =>
        rw [follow_branch,readAlternatives_elif]
        rfl
      | loop =>
        rw [follow_loop]
        exact (readTail_of_ne (by simp)).trans rfl
    | elseTag =>
      cases h
      cases chain with
      | branch =>
        rw [follow_branch,readAlternatives_of_ne (by simp)]
        exact readTail_else
      | loop => exact readTail_else
    | _ => cases h

theorem follow_primary (helif : ∀ c s, stop.tag ≠ some (.elifTag c,s))
    (helse : ∀ s, stop.tag ≠ some (.elseTag,s)) :
    follow fault opening chain .primary stop = follow fault opening chain .alternate stop := by
  cases chain with
  | branch =>
    rw [follow_branch,readAlternatives_of_ne helif]
    exact readTail_of_ne helse
  | loop => exact readTail_of_ne helse

theorem follow_ends {chain' : Chain} {state : ChainState} (h : tag.role = .ends chain') :
    follow fault opening chain state ⟨some (tag,s),r⟩ =
      if chain = chain' then .ok (.mk tag s [] none,r) else .error (Stack.misplaced tag s) := by
  have hclose : follow fault opening chain .alternate ⟨some (tag,s),r⟩ =
      if chain = chain' then .ok (.mk tag s [] none,r) else .error (Stack.misplaced tag s) := by
    rw [follow_alternate]
    cases tag <;> cases h <;> cases chain <;> rfl
  cases state with
  | alternate => exact hclose
  | primary =>
    rw [← hclose]
    apply follow_primary
    · rintro c s' ⟨⟩
      cases h
    · rintro s' ⟨⟩
      cases h

theorem follow_ended {state : ChainState} (h : stop.tag = none) :
    follow fault opening chain state stop = .error ⟨.unclosedTag chain.name,opening⟩ := by
  have hclose : follow fault opening chain .alternate stop =
      .error ⟨.unclosedTag chain.name,opening⟩ := by
    obtain ⟨_,rest⟩ := stop
    obtain rfl := h
    rw [follow_alternate]
    rfl
  cases state with
  | alternate => exact hclose
  | primary => rw [← hclose,follow_primary (by simp [h]) (by simp [h])]

theorem collected_opens (h : tag.role = .opens chain) :
    collected fault (.tag tag s :: r) = do
      let (first,rest) ← followBehind fault s chain .primary tag s r
      let (es,stop) ← collected fault rest
      return (.tag first :: es,stop) := by
  cases tag with
  | ifTag c =>
    cases h
    rw [collected,readNodes]
    simp only [followBehind,collected,follow_branch,map_eq_bind,bind_assoc,pure_bind]
    rfl
  | forTag vars t =>
    cases h
    rw [collected,readNodes]
    simp only [followBehind,collected,follow_loop,map_eq_bind,bind_assoc,pure_bind]
    rfl
  | _ => cases h

theorem collected_leaf {p : Piece} {n : Node} (h : p.leaf? = some n) :
    collected fault (p :: r) = (collected fault r).map fun q => (n.element :: q.1,q.2) := by
  have hbehind : (readBehind fault n r).map (fun p => (elements p.1,p.2.1)) =
      (collected fault r).map fun q => (n.element :: q.1,q.2) := by
    rw [readBehind]
    simp only [collected,map_eq_bind,bind_assoc,pure_bind]
    rfl
  rw [← hbehind]
  unfold Piece.leaf? at h
  split at h <;> first | (cases h; rw [collected,readNodes]; rfl) | cases h

theorem collected_link (h : tag.isLink = true) :
    collected fault (.tag tag s :: r) = .ok ([],⟨some (tag,s),r⟩) := by
  unfold Tag.isLink at h
  split at h <;> first | contradiction | (rw [collected,readNodes] <;> first | rfl | simp)

end Node

namespace OpenChain

variable {chain : Node.Chain} {state : ChainState} {t : LinkedTag} {ts : List LinkedTag}

theorem first?_collect {es : List Element} :
    first? ⟨chain,state,t.collect es :: ts⟩ = first? ⟨chain,state,t :: ts⟩ := by
  cases ts <;> rfl

theorem exists_tags {c : OpenChain} (h : c.Started) : ∃ u us, c.tags = u :: us := by
  obtain ⟨tag,span,hfirst,_⟩ := h
  refine List.ne_nil_iff_exists_cons.mp fun hnil => ?_
  simp [first?,hnil] at hfirst

theorem first?_cons {c : OpenChain} (h : c.Started) :
    first? ⟨c.chain,state,t :: c.tags⟩ = c.first? := by
  obtain ⟨u,us,htags⟩ := exists_tags h
  simp [first?,htags]

theorem link_collect {e : Element} {es : List Element} {next : LinkedTag} :
    link ⟨chain,state,t.collect [e] :: ts⟩ es next = link ⟨chain,state,t :: ts⟩ (e :: es) next := by
  simp [link]

theorem link_nil {c : OpenChain} {tag : Tag} {s : Span} {es : List Element} {next : LinkedTag}
    (h : c.Started) (state : ChainState) : c.link [] (.mk tag s es (some next)) =
      link ⟨c.chain,state,.mk tag s [] none :: c.tags⟩ es next := by
  obtain ⟨u,us,htags⟩ := exists_tags h
  simp [link,htags]

theorem linkChain_eq {c : OpenChain} {last : LinkedTag} (h : c.Started) :
    linkChain (last :: c.tags) = some (c.link [] last) := by
  obtain ⟨u,us,htags⟩ := exists_tags h
  simp [linkChain,link,htags]

end OpenChain

namespace Stack
open Node

variable {broken : Fault} {fault : Option Fault} {s s' : Stack} {e : Element} {p : Piece}
  {ps : List Piece}

def Started (s : Stack) : Prop := ∀ c ∈ s.chains, c.Started

def close (fault : Option Fault) (root : List Element) :
    List OpenChain → List Element → Stop → Except Fault (List Element)
  | [], es, stop =>
    match stop.tag with
    | none => .ok (root ++ es)
    | some (tag,span) => .error (misplaced tag span)
  | c :: cs, es, stop => do
    let (next,rest) ← follow fault c.opening c.chain c.state stop
    let (es',stop') ← collected fault rest
    close fault root cs (.tag (c.link es next) :: es') stop'

def answer (fault : Option Fault) (s : Stack) (ps : List Piece) : Except Fault (List Element) := do
  let (es,stop) ← collected fault ps
  close fault s.root s.chains es stop

theorem close_push {es : List Element} {stop : Stop} (hs : s.Started) :
    close fault (s.push e).root (s.push e).chains es stop =
      close fault s.root s.chains (e :: es) stop := by
  obtain ⟨root,chains⟩ := s
  match chains with
  | [] => simp [push,close]
  | ⟨chain,state,[]⟩ :: cs =>
    obtain ⟨_,_,h⟩ := OpenChain.exists_tags (hs _ List.mem_cons_self)
    cases h
  | ⟨chain,state,t :: ts⟩ :: cs =>
    simp only [push,close,OpenChain.opening,OpenChain.first?_collect,OpenChain.link_collect]

theorem Started.push (hs : s.Started) : (s.push e).Started := by
  obtain ⟨root,chains⟩ := s
  match chains with
  | [] => simp [Stack.push,Started]
  | ⟨chain,state,[]⟩ :: cs => exact hs
  | ⟨chain,state,t :: ts⟩ :: cs =>
    obtain ⟨hc,hcs⟩ := List.forall_mem_cons.mp hs
    refine List.forall_mem_cons.mpr ⟨?_,hcs⟩
    rwa [OpenChain.Started,OpenChain.first?_collect]

theorem answer_push (hs : s.Started) : answer fault (s.push e) ps =
    collected fault ps >>= fun q => close fault s.root s.chains (e :: q.1) q.2 := by
  simp only [answer,close_push hs]

theorem step_of_leaf {n : Node} (h : p.leaf? = some n) : s.step broken p = .ok (s.push n.element) := by
  unfold Piece.leaf? at h
  split at h <;> first | (cases h; rfl) | cases h

theorem answer_leaf {n : Node} (hs : s.Started) (h : p.leaf? = some n) :
    answer fault s (p :: ps) = answer fault (s.push n.element) ps := by
  rw [answer_push hs,answer,collected_leaf h]
  simp only [map_eq_bind,bind_assoc,pure_bind]

theorem answer_opens {tag : Tag} {span : Span} {chain : Chain} (h : tag.role = .opens chain) :
    answer fault s (.tag tag span :: ps) =
      answer fault ⟨s.root,⟨chain,.primary,[.mk tag span [] none]⟩ :: s.chains⟩ ps := by
  rw [answer,answer,collected_opens h]
  simp only [followBehind,close,bind_assoc,pure_bind]
  rfl

theorem answer_link {tag : Tag} {span : Span} (h : tag.isLink = true) :
    answer fault s (.tag tag span :: ps) = close fault s.root s.chains [] ⟨some (tag,span),ps⟩ := by
  rw [answer,collected_link h]
  rfl

theorem answer_links {tag : Tag} {span : Span} {link : Link} {root : List Element} {c : OpenChain}
    {cs : List OpenChain} (hc : c.Started) (h : tag.role = .links link) :
    answer fault ⟨root,c :: cs⟩ (.tag tag span :: ps) = match c.state.advance c.chain link with
      | none => .error (misplaced tag span)
      | some state =>
        answer fault ⟨root,⟨c.chain,state,.mk tag span [] none :: c.tags⟩ :: cs⟩ ps := by
  have hlink : tag.isLink = true := by cases tag <;> first | rfl | cases h
  rw [answer_link hlink,close,follow_links h]
  cases c.state.advance c.chain link with
  | none => rfl
  | some state =>
    have hopening : OpenChain.opening ⟨c.chain,state,.mk tag span [] none :: c.tags⟩ = c.opening := by
      rw [OpenChain.opening,OpenChain.first?_cons hc,OpenChain.opening]
    simp only [followBehind,answer,close,hopening,bind_assoc,pure_bind,OpenChain.link_nil hc state]

theorem answer_ends {tag : Tag} {span : Span} {chain : Chain} {root : List Element} {c : OpenChain}
    {cs : List OpenChain} (hs : Started ⟨root,cs⟩) (h : tag.role = .ends chain) :
    answer fault ⟨root,c :: cs⟩ (.tag tag span :: ps) = if c.chain = chain then
        answer fault (push ⟨root,cs⟩ (.tag (c.link [] (.mk tag span [] none)))) ps
      else .error (misplaced tag span) := by
  have hlink : tag.isLink = true := by cases tag <;> first | rfl | cases h
  rw [answer_push hs,answer_link hlink,close,follow_ends h]
  split <;> rfl

/-- A step gives the stack from which the same is collected in the end. -/
theorem answer_step (hs : s.Started) (broken : Fault) :
    answer fault s (p :: ps) = s.step broken p >>= fun s => answer fault s ps := by
  obtain ⟨n,hn⟩ | ⟨tag,span,rfl,hlink⟩ | ⟨c,span,rfl⟩ | ⟨vars,t,span,rfl⟩ := p.leaf_or_tag
  · rw [answer_leaf hs hn,step_of_leaf hn]
    rfl
  · obtain ⟨root,chains⟩ := s
    have hrole := Tag.links_or_ends hlink
    cases chains with
    | nil =>
      rw [answer_link hlink,close]
      obtain ⟨link,hrole⟩ | ⟨chain,hrole⟩ := hrole <;> simp only [step,tagStep,hrole] <;> rfl
    | cons c cs =>
      obtain ⟨hc,hcs⟩ := List.forall_mem_cons.mp hs
      obtain ⟨link,hrole⟩ | ⟨chain,hrole⟩ := hrole
      · rw [answer_links hc hrole]
        simp only [step,tagStep,hrole]
        cases c.state.advance c.chain link <;> rfl
      · rw [answer_ends hcs hrole]
        simp only [step,tagStep,hrole,OpenChain.linkChain_eq hc]
        split <;> rfl
  · exact answer_opens rfl
  · exact answer_opens rfl

theorem Started.step (hs : s.Started) (h : s.step broken p = .ok s') : s'.Started := by
  obtain ⟨n,hn⟩ | ⟨tag,span,rfl,hlink⟩ | ⟨c,span,rfl⟩ | ⟨vars,t,span,rfl⟩ := p.leaf_or_tag
  · obtain rfl := Except.ok.inj ((step_of_leaf hn).symm.trans h)
    exact hs.push
  · obtain ⟨root,chains⟩ := s
    have hrole := Tag.links_or_ends hlink
    cases chains with
    | nil =>
      obtain ⟨link,hrole⟩ | ⟨chain,hrole⟩ := hrole <;> simp [Stack.step,tagStep,hrole] at h
    | cons c cs =>
      obtain ⟨hc,hcs⟩ := List.forall_mem_cons.mp hs
      obtain ⟨link,hrole⟩ | ⟨chain,hrole⟩ := hrole
      · simp only [Stack.step,tagStep,hrole] at h
        split at h
        · cases h
        · cases h
          refine List.forall_mem_cons.mpr ⟨?_,hcs⟩
          rwa [OpenChain.Started,OpenChain.first?_cons hc]
      · simp only [Stack.step,tagStep,hrole,OpenChain.linkChain_eq hc] at h
        split at h
        · cases h
          exact Started.push hcs
        · cases h
  · obtain rfl := Except.ok.inj h
    exact List.forall_mem_cons.mpr ⟨⟨_,_,rfl,rfl⟩,hs⟩
  · obtain rfl := Except.ok.inj h
    exact List.forall_mem_cons.mpr ⟨⟨_,_,rfl,rfl⟩,hs⟩

theorem answer_nil : answer none s [] = close none s.root s.chains [] ⟨none,[]⟩ := by
  rw [answer,collected,readNodes]
  rfl

theorem close_ended (hs : s.Started) : close fault s.root s.chains [] ⟨none,[]⟩ = s.finish := by
  obtain ⟨root,chains⟩ := s
  cases chains with
  | nil => simp [close,finish]
  | cons c cs =>
    obtain ⟨tag,span,hfirst,hname⟩ := hs c List.mem_cons_self
    obtain ⟨t,ht,heq⟩ := Option.map_eq_some_iff.mp hfirst
    cases heq
    have hopening : c.opening = t.span := by rw [OpenChain.opening,hfirst]; rfl
    rw [close,follow_ended rfl,hopening,← hname,finish]
    simp only [ht]
    rfl

theorem run_eq_answer (hs : s.Started) : run broken fault s ps = answer fault s ps := by
  induction ps generalizing s with
  | nil =>
    cases fault with
    | some f =>
      rw [answer,collected,readNodes]
      rfl
    | none =>
      rw [answer_nil,close_ended hs]
      rfl
  | cons p ps ih =>
    rw [answer_step hs broken,run]
    exact bind_congr_of_ok fun s' h => ih (hs.step h)

/-- The chains that are read by recursion are those on the stack, no chain of which is without tags. -/
theorem run_eq_ofPieces (broken : Fault) : run broken fault ⟨[],[]⟩ ps =
    (Node.ofPieces ps fault).map Node.elements := by
  rw [run_eq_answer (by simp [Started]),answer,collected,ofPieces]
  cases readNodes fault ps with
  | error f => rfl
  | ok q =>
    obtain ⟨nodes,⟨tag,rest⟩,h⟩ := q
    cases tag <;> rfl

end Stack

end Stencil
