import Stencil.Proofs.Template.Placed
import Stencil.Proofs.Template.Regions
import Stencil.Render
import Stencil.Text.Identifier

/-!
The texts of a template: they are the segments of its source between the delimiters, less the blanks
that the delimiters next to them take.
-/

set_option autoImplicit false

namespace Stencil
open Text

mutual

def Node.texts : Node → List (Located String)
  | .text content s => [⟨content,s⟩]
  | .echo _ _ | .assign _ _ _ | .define _ _ _ | .embed _ _ _ | .insert _ _ => []
  | .branch _ _ body rest => Node.listTexts body ++ rest.texts
  | .loop _ _ _ body rest => Node.listTexts body ++ rest.texts

def Node.listTexts : List Node → List (Located String)
  | [] => []
  | n :: ns => n.texts ++ Node.listTexts ns

def Alternatives.texts : Alternatives → List (Located String)
  | .elif _ _ body rest => Node.listTexts body ++ rest.texts
  | .last tail => tail.texts

def Tail.texts : Tail → List (Located String)
  | .otherwise _ body _ => Node.listTexts body
  | .close _ => []

end

mutual

theorem Node.texts_pieces : ∀ n : Node, n.pieces.filterMap Piece.text? = n.texts
  | .text _ _ | .echo _ _ | .assign _ _ _ | .define _ _ _ | .embed _ _ _ | .insert _ _ => rfl
  | .branch _ _ body rest => by
    simp [Node.pieces,Node.texts,Piece.text?,Node.texts_listPieces body,rest.texts_pieces]
  | .loop _ _ _ body rest => by
    simp [Node.pieces,Node.texts,Piece.text?,Node.texts_listPieces body,rest.texts_pieces]

theorem Node.texts_listPieces :
    ∀ ns : List Node, (Node.listPieces ns).filterMap Piece.text? = Node.listTexts ns
  | [] => rfl
  | n :: ns => by
    simp [Node.listPieces,Node.listTexts,n.texts_pieces,Node.texts_listPieces ns]

theorem Alternatives.texts_pieces : ∀ a : Alternatives, a.pieces.filterMap Piece.text? = a.texts
  | .elif _ _ body rest => by
    simp [Alternatives.pieces,Alternatives.texts,Piece.text?,Node.texts_listPieces body,
      rest.texts_pieces]
  | .last tail => by simp [Alternatives.pieces,Alternatives.texts,tail.texts_pieces]

theorem Tail.texts_pieces : ∀ (t : Tail) (closing : Tag),
    (t.pieces closing).filterMap Piece.text? = t.texts
  | .otherwise _ body _, _ => by
    simp [Tail.pieces,Tail.texts,Piece.text?,Node.texts_listPieces body]
  | .close _, _ => by simp [Tail.pieces,Tail.texts,Piece.text?]

end

/-- The source between two delimiters that are next to each other, or up to the first one, or behind
the last one. -/
structure Segment where
  /-- the closing delimiter directly in front -/
  before : Option Span
  span : Span
  /-- the opening delimiter directly behind -/
  after : Option Span
  deriving DecidableEq, Repr

namespace Segment

def reads (source : String) (texts : List String) (s : Span) : Bool :=
  (slice? source.toList s).any fun text => texts.any fun t => t.toList == text

def trimsStart (source : String) (g : Segment) : Bool :=
  g.before.any (reads source ["-\x7d\x7d","-%\x7d","-#\x7d"])

def trimsEnd (source : String) (g : Segment) : Bool :=
  g.after.any (reads source ["\x7b\x7b-","\x7b%-","\x7b#-"])

/-- The text of a segment, less the blanks at the ends that are trimmed, and its place. -/
def kept (source : String) (g : Segment) : Located String :=
  let text := (slice? source.toList g.span).getD []
  let body := if g.trimsEnd source then text.rdropWhile isBlank else text
  let lead := if g.trimsStart source then body.takeWhile isBlank else []
  let kept := if g.trimsStart source then body.dropWhile isBlank else body
  let first := g.span.start + byteSize lead
  ⟨String.ofList kept,⟨first,first + byteSize kept⟩⟩

end Segment

/-- The segments of what stands behind the delimiter `before`, up to the end of a source of `size`
bytes. -/
def segmentsFrom (size : Nat) (before : Option Span) : List Token → List Segment
  | [] => [⟨before,⟨before.elim 0 Span.stop,size⟩,none⟩]
  | t :: ts =>
    match t.lexeme with
    | .opening _ =>
      ⟨before,⟨before.elim 0 Span.stop,t.span.start⟩,some t.span⟩ :: segmentsFrom size before ts
    | .closing _ => segmentsFrom size (some t.span) ts
    | _ => segmentsFrom size before ts

def segments [Alphabet] (source : String) : List Segment :=
  segmentsFrom source.utf8ByteSize none (scan source).tokens

def keptTexts (source : String) (gs : List Segment) : List (Located String) :=
  (gs.map (Segment.kept source)).filter fun t => t.value ≠ ""

def Behind (source : String) : Option Span → (start : Nat) → (trims : Bool) → Prop
  | none, start, trims => start = 0 ∧ trims = false
  | some s, start, trims => s.stop = start ∧
    ∃ d : Delimiter, d.opens = false ∧ d.trims = trims ∧ slice? source.toList s = some d.text

def Before (source : String) : Option Span → (stop : Nat) → (trims : Bool) → Prop
  | none, stop, trims => stop = source.utf8ByteSize ∧ trims = false
  | some s, stop, trims => s.start = stop ∧
    ∃ d : Delimiter, d.opens = true ∧ d.trims = trims ∧ slice? source.toList s = some d.text

/-- A segment stands between delimiters, and no delimiter opens a region in it. -/
structure Segment.Placed (source : String) (g : Segment) : Prop where
  within : g.span.Within source
  before : ∃ trims, Behind source g.before g.span.start trims
  after : ∃ trims, Before source g.after g.span.stop trims
  closed : ∀ n cs, Stands source n cs → g.span.start ≤ n → n < g.span.stop →
    ∀ d, Delimiter.at? cs = some d → d.opens = false

/-- From the byte `start` up to the byte `stop` there are blanks and lexemes, and no delimiter in
front of one. -/
inductive Lexed [Alphabet] (source : String) : (start stop : Nat) → Prop where
  | nil (n : Nat) : Lexed source n n
  | blanks {start stop : Nat} {gap rest : List Char} : Stands source start (gap ++ rest) →
      (∀ c ∈ gap, Lexeme.isSeparator c = true) → Lexed source (start + byteSize gap) stop →
      Lexed source start stop
  | lexeme {start stop n : Nat} {afterDot : Bool} {c : Char} {r : List Char} {l : Lexeme} :
      Stands source start (c :: r) → Delimiter.at? (c :: r) = none →
      Lexeme.read afterDot c r = .ok (some l,n) →
      Lexed source (start + byteSize (c :: r.take n)) stop → Lexed source start stop

def Uncommented (source : String) (start : Nat) (c : Span) : Prop :=
  ∀ n cs, Stands source n cs → start ≤ n → n + 2 < c.stop → ¬['#','}'] <+: cs

def Region.ClosedAt (source : String) (region : Region) (c : Span) : Prop :=
  ∃ d : Delimiter, d.opens = false ∧ d.region = region ∧ slice? source.toList c = some d.text

/-- The first delimiter that closes the region behind the byte `start` stands in the span. -/
structure Region.Ends [Alphabet] (source : String) (start : Nat) (region : Region) (c : Span) :
    Prop where
  le : start ≤ c.start
  closed : region.ClosedAt source c
  first : if region = .comment then Uncommented source start c else Lexed source start c.start

/-- The source behind the delimiter `before`, cut into segments with one region between two of
them, which goes on up to the first delimiter that closes it. -/
inductive Cuts [Alphabet] (source : String) : Option Span → List Segment → Prop where
  | last {g : Segment} : g.Placed source → g.after = none → Cuts source g.before [g]
  | cons {g : Segment} {gs : List Segment} {o c : Span} {d : Delimiter} : g.Placed source →
      g.after = some o → slice? source.toList o = some d.text → d.opens = true →
      d.region.Ends source o.stop c → Cuts source (some c) gs → Cuts source g.before (g :: gs)

section

variable {source : String} {before after : Option Span} {start : Nat} {b e : Bool}
  {text rest : List Char} {ts us : List Token}

theorem Behind.trimsStart (h : Behind source before start b) (s : Span) :
    Segment.trimsStart source ⟨before,s,after⟩ = b := by
  cases before with
  | none => simp [Segment.trimsStart,h.2]
  | some s =>
    obtain ⟨_,⟨opens,region,trims⟩,rfl,rfl,hslice⟩ := h
    simp only [Segment.trimsStart,Option.any_some,Segment.reads,hslice]
    cases region <;> cases trims <;> decide

theorem Before.trimsEnd {stop : Nat} (h : Before source after stop e) (s : Span) :
    Segment.trimsEnd source ⟨before,s,after⟩ = e := by
  cases after with
  | none => simp [Segment.trimsEnd,h.2]
  | some s =>
    obtain ⟨_,⟨opens,region,trims⟩,rfl,rfl,hslice⟩ := h
    simp only [Segment.trimsEnd,Option.any_some,Segment.reads,hslice]
    cases region <;> cases trims <;> decide

theorem byteSize_takeWhile_add_dropWhile (p : Char → Bool) (cs : List Char) :
    byteSize (cs.takeWhile p) + byteSize (cs.dropWhile p) = byteSize cs := by
  rw [← byteSize_append,List.takeWhile_append_dropWhile]

theorem rawToken_kept (htext : Stands source start (text ++ rest))
    (hbefore : Behind source before start b)
    (hafter : Before source after (start + byteSize text) e) :
    Scan.rawToken start text b e =
      let t := Segment.kept source ⟨before,⟨start,start + byteSize text⟩,after⟩
      ⟨.raw t.value,t.span⟩ := by
  have hslice : slice? source.toList ⟨start,start + byteSize text⟩ = some text := htext.slice?
  simp only [Segment.kept,hbefore.trimsStart,hafter.trimsEnd,hslice,Option.getD_some]
  simp only [Scan.rawToken,trimEnd_eq_rdropWhile,trimStart]
  generalize (if e = true then text.rdropWhile isBlank else text) = body
  have hsize := byteSize_takeWhile_add_dropWhile isBlank body
  cases b with
  | false => simp [byteSize]
  | true =>
    have hfirst : byteSize body - byteSize (body.dropWhile isBlank) =
      byteSize (body.takeWhile isBlank) := by omega
    simp [hfirst]

theorem Segment.kept_empty_iff (g : Segment) :
    (g.kept source).span.start = (g.kept source).span.stop ↔ (g.kept source).value = "" := by
  simp only [kept]
  generalize (if g.trimsStart source then List.dropWhile isBlank _ else _) = cs
  cases cs with
  | nil => simp [byteSize]
  | cons c r =>
    have hpos := byteSize_pos (List.cons_ne_nil c r)
    simp
    omega

theorem keptTexts_cons (g : Segment) (gs : List Segment) :
    keptTexts source (g :: gs) = keptTexts source [g] ++ keptTexts source gs :=
  List.filter_append [g.kept source] _

theorem Outside.rawTokens {texts : List (Located String)}
    (htext : Stands source start (text ++ rest)) (hbefore : Behind source before start b)
    (hafter : Before source after (start + byteSize text) e) (h : Outside ts texts) :
    Outside (Scan.rawTokens start text b e ++ ts)
      (keptTexts source [⟨before,⟨start,start + byteSize text⟩,after⟩] ++ texts) := by
  have hkept := rawToken_kept htext hbefore hafter
  unfold Scan.rawTokens keptTexts
  split
  · rename_i hnil
    subst hnil
    have hempty : Scan.rawToken start [] b e = ⟨.raw "",⟨start,start⟩⟩ := by
      cases b <;> cases e <;> rfl
    rw [hempty] at hkept
    have hvalue := Lexeme.raw.inj (congrArg Token.lexeme hkept)
    simpa [← hvalue] using h
  · have hraw := Outside.raw (congrArg Token.lexeme hkept) h
    rw [hkept] at hraw ⊢
    simp only [Segment.kept_empty_iff] at hraw
    simp only [List.map_cons,List.map_nil,List.filter_cons,List.filter_nil]
    split at hraw <;> simpa [*] using hraw

def Token.Plain (t : Token) : Prop :=
  ∀ region, t.lexeme ≠ .opening region ∧ t.lexeme ≠ .closing region

theorem Token.plain_of_inner {t : Token} (h : t.lexeme.Inner) : t.Plain := by
  intro region
  constructor <;> intro hregion <;> rw [hregion] at h <;> exact h

theorem segmentsFrom_append {size : Nat} (h : ∀ t ∈ us, t.Plain) :
    segmentsFrom size before (us ++ ts) = segmentsFrom size before ts := by
  induction us with
  | nil => rfl
  | cons t us ih =>
    obtain ⟨ht,hus⟩ := List.forall_mem_cons.mp h
    rw [List.cons_append,segmentsFrom]
    split
    · rename_i hopening
      exact absurd hopening (ht _).1
    · rename_i hclosing
      exact absurd hclosing (ht _).2
    · exact ih hus

theorem plain_rawTokens (start : Nat) (text : List Char) (b e : Bool) :
    ∀ t ∈ Scan.rawTokens start text b e, t.Plain := by
  unfold Scan.rawTokens
  split
  · simp
  · simp [Scan.rawToken,Token.Plain]

/-- Behind the delimiter `before` the tokens have the texts of the segments that are there. -/
structure Told [Alphabet] (source : String) (before : Option Span) (ts : List Token) : Prop where
  texts : Outside ts (keptTexts source (segmentsFrom source.utf8ByteSize before ts))
  cuts : Cuts source before (segmentsFrom source.utf8ByteSize before ts)

def Closes [Alphabet] (source : String) (region : Region) (Ends : Span → Prop)
    (ts : List Token) : Prop :=
  ∃ us c rest, ts = us ++ c :: rest ∧ c.lexeme = .closing region ∧ (∀ t ∈ us, t.Plain) ∧
    Ends c.span ∧ Told source (some c.span) rest

theorem placed_segment {after : Option Span} (htext : Stands source start (text ++ rest))
    (hopening : Scan.NoOpening text rest) (hbefore : Behind source before start b)
    (hafter : Before source after (start + byteSize text) e) :
    Segment.Placed source ⟨before,⟨start,start + byteSize text⟩,after⟩ where
  within := Span.within_of_stands htext
  before := ⟨b,hbefore⟩
  after := ⟨e,hafter⟩
  closed n cs hcs hle hlt d hd := by
    obtain ⟨l,r,rfl,hr,rfl⟩ := htext.exists_suffix hcs hle hlt
    exact hopening l r rfl hr d hd

theorem Behind.stop (h : Behind source before start b) : before.elim 0 Span.stop = start := by
  cases before with
  | none => exact h.1.symm
  | some s => exact h.1

theorem told_last [Alphabet] (htext : Stands source start text) (hopening : Scan.NoOpening text [])
    (hbefore : Behind source before start b) :
    Told source before (Scan.rawTokens start text b false) := by
  have hsize := htext.utf8ByteSize
  rw [← List.append_nil text] at htext
  have hafter : Before source none (start + byteSize text) false := ⟨hsize,rfl⟩
  have hsegments : segmentsFrom source.utf8ByteSize before (Scan.rawTokens start text b false) =
      [⟨before,⟨start,start + byteSize text⟩,none⟩] := by
    have hplain := plain_rawTokens start text b false
    rw [← List.append_nil (Scan.rawTokens start text b false),segmentsFrom_append hplain,
      segmentsFrom,hbefore.stop,hsize]
  constructor
  · rw [hsegments]
    simpa using Outside.nil.rawTokens htext hbefore hafter
  · rw [hsegments]
    exact .last (placed_segment htext hopening hbefore hafter) rfl

theorem told_opening [Alphabet] {d : Delimiter} (htext : Stands source start (text ++ (d.text ++ rest)))
    (hopening : Scan.NoOpening text (d.text ++ rest)) (hopens : d.opens = true)
    (hbefore : Behind source before start b)
    (h : Closes source d.region (d.region.Ends source (start + byteSize text + d.size)) ts) :
    Told source before (Scan.rawTokens start text b d.trims ++
      ⟨.opening d.region,⟨start + byteSize text,start + byteSize text + d.size⟩⟩ :: ts) := by
  obtain ⟨us,c,rest',rfl,hclosing,hus,hends,htold⟩ := h
  have hslice := Scan.slice?_delimiter htext.append
  have hafter : Before source (some ⟨start + byteSize text,start + byteSize text + d.size⟩)
      (start + byteSize text) d.trims := ⟨rfl,d,hopens,rfl,hslice⟩
  have hsegments : segmentsFrom source.utf8ByteSize before (Scan.rawTokens start text b d.trims ++
      ⟨.opening d.region,⟨start + byteSize text,start + byteSize text + d.size⟩⟩ ::
        (us ++ c :: rest')) = ⟨before,⟨start,start + byteSize text⟩,
          some ⟨start + byteSize text,start + byteSize text + d.size⟩⟩ ::
            segmentsFrom source.utf8ByteSize (some c.span) rest' := by
    rw [segmentsFrom_append (plain_rawTokens _ _ _ _),segmentsFrom,hbefore.stop,
      segmentsFrom_append hus,segmentsFrom,hclosing]
  constructor
  · rw [hsegments,keptTexts_cons]
    refine Outside.rawTokens htext hbefore hafter (.region rfl hclosing ?_ htold.texts)
    exact fun t ht region => (hus t ht region).2
  · rw [hsegments]
    exact .cons (placed_segment htext hopening hbefore hafter) rfl hslice hopens hends htold.cuts

theorem told_closing [Alphabet] {d : Delimiter} (hd : Stands source start (d.text ++ rest))
    (hcloses : d.opens = false)
    (h : ∀ before, Behind source before (start + d.size) d.trims → Told source before ts) :
    Told source (some ⟨start,start + d.size⟩) ts := by
  exact h _ ⟨rfl,d,hcloses,rfl,Scan.slice?_delimiter hd⟩

theorem uncommented_of_first {d : Delimiter}
    (h : Stands source start (text ++ (d.text ++ rest)))
    (hfirst : ¬['#','}'] <:+: (text ++ d.text).dropLast) :
    Uncommented source start ⟨start + byteSize text,start + byteSize text + d.size⟩ := by
  rintro n cs hcs hle hlt ⟨more,rfl⟩
  replace hlt : n + 2 < start + byteSize text + d.size := hlt
  rw [← List.append_assoc] at h
  have hsize : byteSize (text ++ d.text) = byteSize text + d.size := by
    rw [byteSize_append,d.byteSize_text]
  obtain ⟨front,back,hback,_,hmore⟩ := h.exists_suffix hcs hle (by omega)
  have hrest : 2 < byteSize back := by
    have hall := h.utf8ByteSize.trans hcs.utf8ByteSize.symm
    rw [byteSize_append,hsize,hmore,byteSize_append] at hall
    omega
  -- the delimiter that is found there ends in front of the last character
  obtain ⟨further,hmoreover,_⟩ | ⟨further,rfl,_⟩ := List.append_eq_append_iff.mp hmore.symm
  · have htwo : byteSize ['#','}'] = 2 := rfl
    rw [hmoreover,byteSize_append] at htwo
    omega
  · have hmoreover : further ≠ [] := by
      rintro rfl
      exact absurd hrest (by decide)
    refine hfirst ⟨front,further.dropLast,?_⟩
    rw [hback,List.dropLast_append_of_ne_nil (by simp),List.dropLast_append_of_ne_nil hmoreover,
      List.append_assoc]

namespace Scan

def Mode.Told [Alphabet] (source : String) : Mode → Nat → List Token → Prop
  | .raw trims, start, ts =>
    ∀ before, Behind source before start trims → Stencil.Told source before ts
  | .inside _ region _, start, ts => Closes source region (fun c => start ≤ c.start ∧
      region.ClosedAt source c ∧ Lexed source start c.start) ts
  | .comment _, start, ts => Closes source .comment (fun c => start ≤ c.start ∧
      Region.comment.ClosedAt source c ∧ Uncommented source start c) ts

theorem Mode.closes_of_behind [Alphabet] {region : Region} {opening : Span}
    (h : (Mode.behind region opening).Told source start ts) :
    Closes source region (region.Ends source start) ts := by
  unfold Mode.behind at h
  split at h
  · rename_i hcomment
    subst hcomment
    obtain ⟨us,c,rest,hts,hclosing,hus,⟨hle,hslice,hfirst⟩,htold⟩ := h
    exact ⟨us,c,rest,hts,hclosing,hus,⟨hle,hslice,hfirst⟩,htold⟩
  · rename_i hcomment
    obtain ⟨us,c,rest,hts,hclosing,hus,⟨hle,hslice,hfirst⟩,htold⟩ := h
    exact ⟨us,c,rest,hts,hclosing,hus,⟨hle,hslice,by rwa [if_neg hcomment]⟩,htold⟩

/-- By induction along the scan, to the end of the source. -/
theorem Runs.told [Alphabet] {mode : Mode} {cs : List Char} (h : Runs none mode start cs ts)
    (hcs : Stands source start cs) : mode.Told source start ts := by
  induction h with
  | last hopening _ => exact fun before hbefore => told_last hcs hopening hbefore
  | opens hopening hopens hfirst _ ih =>
    subst hfirst
    have hrest := (delimited hcs.append).2
    exact fun before hbefore =>
      told_opening hcs hopening hopens hbefore (Mode.closes_of_behind (ih hrest))
  | blanks hgap _ ih =>
    obtain ⟨us,c,rest,rfl,hclosing,hus,⟨hle,hslice,hlexed⟩,htold⟩ := ih hcs.append
    exact ⟨us,c,rest,rfl,hclosing,hus,⟨Nat.le_trans (Nat.le_add_right _ _) hle,hslice,
      .blanks hcs hgap hlexed⟩,htold⟩
  | lexeme hdelimiter hread htake _ ih =>
    obtain ⟨us,c,rest,rfl,hclosing,hus,⟨hle,hslice,hlexed⟩,htold⟩ := ih hcs.append
    have hplain := Token.plain_of_inner (t := ⟨_,⟨0,0⟩⟩) (Lexeme.written_of_read hread).1
    refine ⟨_ :: us,c,rest,rfl,hclosing,List.forall_mem_cons.mpr ⟨hplain,hus⟩,
      ⟨Nat.le_trans (Nat.le_add_right _ _) hle,hslice,?_⟩,htold⟩
    exact .lexeme hcs hdelimiter hread (by rwa [List.append_eq,htake])
  | closes hcloses _ ih =>
    have hrest := (delimited hcs).2
    exact ⟨[],_,_,rfl,rfl,by simp,⟨Nat.le_refl _,⟨_,hcloses,rfl,slice?_delimiter hcs⟩,.nil _⟩,
      told_closing hcs hcloses (ih hrest)⟩
  | ends hcloses hregion hearlier hfirst _ ih =>
    subst hfirst
    have hrest := (delimited hcs.append).2
    exact ⟨_,_,_,rfl,rfl,plain_rawTokens _ _ _ _,⟨Nat.le_add_right _ _,⟨_,hcloses,hregion,
      slice?_delimiter hcs.append⟩,uncommented_of_first hcs hearlier⟩,
      told_closing hcs.append hcloses (ih hrest)⟩
  | unclosed _ hfault | stray hfault | unread _ hfault => cases hfault

end Scan

theorem told_scan [Alphabet] (h : (scan source).fault = none) :
    Told source none (scan source).tokens := by
  have hruns := runs_scan source
  rw [h] at hruns
  exact hruns.told (stands_toList source) none ⟨rfl,rfl⟩

namespace Document

variable {name : Option String} {doc : Document}

theorem texts_of_compile [Alphabet] (h : compile name source = .ok doc) :
    Node.listTexts doc.nodes = keptTexts source (segments source) ∧
      Cuts source none (segments source) := by
  obtain ⟨nodes,hnodes,rfl⟩ := parse_of_compile h
  obtain ⟨hfault,hpieces⟩ := Node.ofPieces_eq_ok_iff.mp hnodes
  have htold := told_scan (Piece.fault_of_readAll hfault)
  have houtside := Piece.outside_readAll hfault
  have hread : (Pieces.ofSource source).pieces.filterMap Piece.text? =
      keptTexts source (segments source) := houtside.unique htold.texts
  refine ⟨?_,htold.cuts⟩
  rw [← hread,← hpieces,Node.texts_listPieces]

theorem scan_of_no_opening [Alphabet]
    (h : ∀ d : Delimiter, d.opens = true → ¬d.text <:+: source.toList) :
    scan source = ⟨Scan.rawTokens 0 source.toList false false,none⟩ := by
  have hruns := runs_scan source
  generalize hsource : source.toList = cs at hruns h ⊢
  generalize htokens : (scan source).tokens = ts at hruns
  cases hruns with
  | last _ hfault =>
    cases hscan : scan source
    simp_all
  | @opens _ _ _ text rest d _ _ hopens => exact absurd ⟨text,rest,by simp⟩ (h d hopens)
  | unclosed hopened => cases hopened

theorem parse_of_no_opening [Alphabet]
    (h : ∀ d : Delimiter, d.opens = true → ¬d.text <:+: source.toList) :
    parse source = .ok (if source = "" then [] else [.text source ⟨0,source.utf8ByteSize⟩]) := by
  refine Node.ofPieces_eq_ok_iff.mpr ?_
  have hnil (e : Ending) : Piece.readAll e [] = ⟨[],e.fault⟩ := by rw [Piece.readAll]
  have hsize := (stands_toList source).utf8ByteSize
  rw [Nat.zero_add] at hsize
  simp only [Pieces.ofSource,scan_of_no_opening h,Scan.rawTokens,Scan.rawToken_untrimmed,
    Nat.zero_add,hsize,String.ofList_toList]
  by_cases hempty : source = ""
  · simp [hempty,hnil,Node.listPieces]
  · have hpos : source.utf8ByteSize ≠ 0 := by simpa using hempty
    have hne : source.toList ≠ [] := by simpa using hempty
    rw [if_neg hne,if_neg hempty,Piece.readAll]
    simp [Piece.read,hnil,Ne.symm hpos,Node.listPieces,Node.pieces]

theorem render_of_no_opening {engine : Engine} {context : Value} {frame : Frame}
    (hcontext : Engine.globals context = .ok frame)
    (h : doc.nodes = if source = "" then [] else [.text source ⟨0,source.utf8ByteSize⟩]) :
    engine.render doc context = .ok source := by
  have hlist (w : Surroundings String) (hw : w.sink = Sink.text) (scope : Scope) :
      Node.renderList w doc.nodes ⟨scope,0,""⟩ = (⟨scope,0,source⟩,.ok ()) := by
    rw [h]
    split
    · simp [*,Node.renderList,Render.pure]
    · simp [hw,Node.renderList,Node.render,bind,Render.bind,Render.pure,Render.write,Sink.text]
  have hnodes := hlist
    (doc.surroundings engine Sink.text (render engine Sink.text engine.maxIncludeDepth)) rfl
    (Scope.root frame)
  unfold Engine.render Engine.run
  rw [hcontext]
  simp only [render,Render.mapFailure,hnodes]

/-- The texts of a compiled template are the segments of its source between the delimiters, in their
order. Each one is trimmed at an end if and only if the delimiter next to it there has a trim mark,
and it has no node if nothing of it is left. A source in which no delimiter opens a region renders
to itself. -/
theorem texts_are_segments [Alphabet] (name : Option String) (source : String) :
    (∀ doc, compile name source = .ok doc →
      Node.listTexts doc.nodes = keptTexts source (segments source) ∧
        Cuts source none (segments source)) ∧
    ((∀ d : Delimiter, d.opens = true → ¬d.text <:+: source.toList) →
      ∃ doc, compile name source = .ok doc ∧ ∀ (engine : Engine) context frame,
        Engine.globals context = .ok frame → engine.render doc context = .ok source) := by
  refine ⟨fun doc h => texts_of_compile h,fun h => ?_⟩
  have hparse := parse_of_no_opening h
  refine ⟨_,by rw [compile,hparse],fun engine context frame hcontext => ?_⟩
  exact render_of_no_opening hcontext rfl

/-- Trim marks at an echo and a tag, and a comment. -/
theorem texts_are_segments_of_trimmed :
    let source := "a \x7b\x7b- b -\x7d\x7d \x7b# c #\x7d\td\x7b% if e -%\x7d f\x7b% endif %\x7d"
    (∃ doc, compile none source = .ok doc ∧ Node.listTexts doc.nodes =
      [⟨"a",⟨0,1⟩⟩,⟨"\td",⟨19,21⟩⟩,⟨"f",⟨33,34⟩⟩]) ∧
    ∃ doc, compile none "a -\x7d\x7d" = .ok doc ∧
      Engine.standard.render doc .none = .ok "a -\x7d\x7d" := by
  intro source
  obtain ⟨doc,hdoc⟩ : ∃ doc, compile none source = .ok doc := by
    have hok : (compile none source).isOk = true := by decide +kernel
    cases h : compile none source with
    | ok doc => exact ⟨doc,rfl⟩
    | error err => simp [h,Except.isOk,Except.toBool] at hok
  have hsegments : keptTexts source (segments source) =
      [⟨"a",⟨0,1⟩⟩,⟨"\td",⟨19,21⟩⟩,⟨"f",⟨33,34⟩⟩] := by decide +kernel
  have htexts := ((texts_are_segments none source).1 doc hdoc).1
  refine ⟨⟨doc,hdoc,htexts.trans hsegments⟩,?_⟩
  have hopening (d : Delimiter) (hd : d.opens = true) :
      ¬d.text <:+: "a -\x7d\x7d".toList := by
    obtain ⟨opens,region,trims⟩ := d
    obtain rfl : opens = true := hd
    cases region <;> cases trims <;> decide
  obtain ⟨doc',hdoc',hrender⟩ := (texts_are_segments none "a -\x7d\x7d").2 hopening
  exact ⟨doc',hdoc',hrender Engine.standard .none [] rfl⟩

end Document

end

end Stencil
