import Stencil.Proofs.Template.Local
import Stencil.Proofs.Template.Regions
import Stencil.Proofs.Template.Stacked
import Stencil.Proofs.Token.Delimited
import Stencil.Text.Identifier

set_option autoImplicit false

namespace Stencil

variable {e : Ending} {rest us ts : List Token} {o c : Token} {region : Region}
  {fault : Option Fault} {f : Fault}

theorem Lexeme.Inner.unclosed {l : Lexeme} (h : l.Inner) (r : Region) : l ≠ .closing r := by
  rintro rfl
  exact h

theorem Region.Admits.unclosed (h : region.Admits us) : Grammar.Unclosed us := by
  cases region with
  | expression | block => exact fun u hu => (h u hu).unclosed
  | comment =>
    obtain rfl | ⟨t,text,rfl,ht⟩ := h
    · exact Grammar.Unclosed.nil
    · simp [ht]

namespace Piece

def outcome {P : List Token → Prop}
    (x : Except Fault (Option Piece × { rest : List Token // P rest })) :
    Except Fault (Option Piece × List Token) :=
  x.map fun p => (p.1,p.2.1)

/-- The reading of a region depends on nothing behind its closing delimiter, not even on whether there
is anything, and leaves what stands there. -/
theorem read_closed (ho : o.lexeme = .opening region) (hus : region.Admits us)
    (hc : c.lexeme = .closing region) : ∃ x : Except Fault (Option Piece),
      (∀ f, x = .error f → f.InStep) ∧
      ∀ e rest, outcome (read e o (us ++ c :: rest)) = x.map (·,rest) := by
  have halike (e e' : Ending) (rest rest' : List Token) :
      Alike (fun _ _ => False) (fun r r' => r = rest ∧ r' = rest') (read e o (us ++ c :: rest))
        (read e' o (us ++ c :: rest')) :=
    alike_read ho (.append hus.unclosed (.closed hc))
  refine ⟨(read ⟨0,none⟩ o (us ++ [c])).map Prod.fst,fun f hf => ?_,fun e rest => ?_⟩
  · have h := halike ⟨0,none⟩ ⟨0,none⟩ [] []
    rw [error_of_map hf] at h
    cases h with
    | error hstep => exact hstep
    | cut hmet => exact hmet.elim
  · have h := halike ⟨0,none⟩ e [] rest
    generalize read ⟨0,none⟩ o (us ++ [c]) = x at h
    generalize read e o (us ++ c :: rest) = x' at h
    cases h with
    | ok hr =>
      obtain ⟨_,rfl⟩ := hr
      rfl
    | error _ => rfl
    | cut hmet => exact hmet.elim

theorem not_gives_of_unclosed {piece : Option Piece} (ho : o.lexeme = .opening region)
    (hus : Grammar.Unclosed us) : ¬Gives (read e o us) piece rest := by
  intro h
  obtain ⟨content,hcontent,_⟩ | ⟨_,vs,c,_,rfl,hc,_⟩ := gives_read h
  · exact nomatch hcontent.symm.trans ho
  · exact hus c (by simp) _ hc

/-- The reading of a region in which the scan stops fails by a fault of its tokens, or if there is none
by the fault of the scan. -/
theorem read_cut (ho : o.lexeme = .opening region) (hus : region.Admits us) :
    ∃ own : Option Fault, (∀ f, own = some f → f.InStep) ∧
      ∀ e f, e.fault = some f → read e o us = .error (own.getD f) := by
  have hfails (e : Ending) : ∃ f, read e o us = .error f := by
    refine exists_error_iff.mpr ?_
    rintro ⟨⟨piece,r⟩,h⟩
    exact not_gives_of_unclosed ho hus.unclosed (Gives.iff_ok.mpr h)
  by_cases hall : ∀ e f, e.fault = some f → read e o us = .error f
  · exact ⟨none,by simp,hall⟩
  simp only [not_forall] at hall
  obtain ⟨e,f,hf,hne⟩ := hall
  obtain ⟨own,hown⟩ := hfails e
  have halike (e' : Ending) (f' : Fault) (hf' : e'.fault = some f') :
      own.InStep ∧ read e' o us = .error own := by
    have habreast : Abreast (fun g _ => g = f) e e' [] [] (us ++ []) (us ++ []) :=
      .append hus.unclosed (.cut hf hf' rfl)
    rw [List.append_nil] at habreast
    have h := alike_read ho habreast
    obtain ⟨g,hg⟩ := hfails e'
    rw [hown,hg] at h
    cases h with
    | error hstep => exact ⟨hstep,hg⟩
    | cut hmet => exact absurd (hmet ▸ hown) hne
  exact ⟨some own,by simpa using (halike e f hf).1,fun e' f' hf' => (halike e' f' hf').2⟩

theorem readAll_of_error (h : read e o ts = .error f) : readAll e (o :: ts) = ⟨[],some f⟩ := by
  rw [readAll,h]

theorem readAll_of_ok {p : Option Piece × NoMore ts} (h : read e o ts = .ok p) :
    readAll e (o :: ts) =
      ⟨p.1.toList ++ (readAll e p.2.1).pieces,(readAll e p.2.1).fault⟩ := by
  rw [readAll,h]

theorem readAll_of_outcome {piece : Option Piece} (h : outcome (read e o ts) = .ok (piece,rest)) :
    readAll e (o :: ts) = ⟨piece.toList ++ (readAll e rest).pieces,(readAll e rest).fault⟩ := by
  obtain ⟨p,hp,houtcome⟩ := map_eq_ok_iff.mp h
  obtain ⟨rfl,rfl⟩ := Prod.mk.inj houtcome
  exact readAll_of_ok hp

/-- By induction along the tokens, one region after the other: the reading stops at a fault of the
tokens, or else where the scan stopped. -/
theorem readAll_eq (hts : Scan.InStep fault ts) : ∃ ps, ∃ own : Option Fault,
    (∀ f, own = some f → f.InStep) ∧
      ∀ e, (fault ≠ none → e.fault ≠ none) → readAll e ts = ⟨ps,own.or e.fault⟩ := by
  induction hts with
  | ended => exact ⟨[],none,by simp,fun e _ => by rw [readAll]; rfl⟩
  | @raw t text ts ht _ ih =>
    obtain ⟨ps,own,hown,hread⟩ := ih
    let piece := if t.span.start = t.span.stop then none else some (Piece.text text t.span)
    refine ⟨piece.toList ++ ps,own,hown,fun e he => ?_⟩
    have houtcome : outcome (read e t ts) = .ok (piece,ts) := by
      rw [read.eq_def,ht]
      rfl
    rw [readAll_of_outcome houtcome,hread e he]
  | @region o c region us ts ho hus hc _ ih =>
    obtain ⟨x,hx,hclosed⟩ := read_closed ho hus hc
    cases x with
    | error f =>
      refine ⟨[],some f,by simpa using hx f rfl,fun e _ => ?_⟩
      exact readAll_of_error (error_of_map (hclosed e ts))
    | ok piece =>
      obtain ⟨ps,own,hown,hread⟩ := ih
      refine ⟨piece.toList ++ ps,own,hown,fun e he => ?_⟩
      rw [readAll_of_outcome (hclosed e ts),hread e he]
  | @cut o region us f ho hus hsome =>
    obtain ⟨own,hown,hcut⟩ := read_cut ho hus
    refine ⟨[],own,hown,fun e he => ?_⟩
    obtain ⟨f',hf'⟩ := Option.ne_none_iff_exists'.mp (he (by simp [hsome]))
    rw [readAll_of_error (hcut e f' hf'),hf']
    cases own <;> rfl

end Piece

theorem Scan.Runs.inStep_fault [Alphabet] {mode : Scan.Mode} {start : Nat} {cs : List Char}
    (h : Scan.Runs fault mode start cs ts) (hf : fault = some f) : f.InStep := by
  induction h with
  | last _ hfault =>
    rw [hfault] at hf
    cases hf
  | opens _ _ _ _ ih | blanks _ _ ih | lexeme _ _ _ _ ih | closes _ _ ih | ends _ _ _ _ _ ih => exact ih
  | unclosed _ hfault | stray hfault =>
    obtain rfl := Option.some.inj (hf.symm.trans hfault)
    trivial
  | @unread _ _ _ _ _ _ cause hcause hfault =>
    obtain rfl := Option.some.inj (hf.symm.trans hfault)
    cases cause <;> trivial

namespace Stack

variable {broken : Fault} {s s' : Stack} {p : Piece} {ps : List Piece}

theorem error_of_step (h : s.step broken p = .error f) : f = broken ∨ f.InStep := by
  match p with
  | .text _ _ | .echo _ _ => cases h
  | .tag tag span =>
    simp only [step,tagStep] at h
    split at h
    · cases h
    · cases h
    · split at h
      · cases h
        exact .inr trivial
      · split at h
        · cases h
          exact .inr trivial
        · cases h
    · split at h
      · cases h
        exact .inr trivial
      · split at h
        · split at h
          · cases h
          · cases h
            exact .inl rfl
        · cases h
          exact .inr trivial

theorem error_of_finish (h : s.finish = .error f) : f.InStep := by
  unfold finish at h
  split at h
  · cases h
  · split at h
    · cases h
      trivial
    · cases h

/-- By induction along the pieces: a run fails at a step, whatever stands behind the pieces, or it gets
to what stands there. -/
theorem run_cases (broken : Fault) (s : Stack) (ps : List Piece) :
    (∃ f, (f = broken ∨ f.InStep) ∧ ∀ fault, run broken fault s ps = .error f) ∨
      ∃ s', ∀ fault, run broken fault s ps = run broken fault s' [] := by
  induction ps generalizing s with
  | nil => exact .inr ⟨s,fun _ => rfl⟩
  | cons p ps ih =>
    cases hstep : s.step broken p with
    | error f =>
      refine .inl ⟨f,error_of_step hstep,fun fault => ?_⟩
      rw [run,hstep]
      rfl
    | ok s' =>
      have hrun (fault : Option Fault) : run broken fault s (p :: ps) = run broken fault s' ps := by
        rw [run,hstep]
        rfl
      simpa only [hrun] using ih s'

end Stack

theorem Node.ofPieces_fails (ps : List Piece) : ∃ own : Option Fault,
    (∀ f, own = some f → f.InStep) ∧ (∀ f, ofPieces ps (some f) = .error (own.getD f)) ∧
      ∀ f, ofPieces ps none = .error f → f.InStep := by
  let broken : Fault := ⟨.misplacedTag "",⟨0,0⟩⟩
  have hrun {fault : Option Fault} {f : Fault} :
      Stack.run broken fault ⟨[],[]⟩ ps = .error f ↔ ofPieces ps fault = .error f := by
    rw [Stack.run_eq_ofPieces]
    cases ofPieces ps fault <;> simp [Except.map]
  obtain ⟨f,hf,hfails⟩ | ⟨s,hs⟩ := Stack.run_cases broken ⟨[],[]⟩ ps
  · have hstep : f.InStep := by
      obtain rfl | hf := hf
      · trivial
      · exact hf
    refine ⟨some f,by simpa using hstep,fun _ => hrun.mp (hfails _),fun g hg => ?_⟩
    obtain rfl := Except.error.inj ((hfails none).symm.trans (hrun.mpr hg))
    exact hstep
  · refine ⟨none,by simp,fun f => hrun.mp (hs _),fun f hf => ?_⟩
    exact Stack.error_of_finish ((hs none).symm.trans (hrun.mpr hf))

namespace Document

variable {source : String}

section
variable [Alphabet]

theorem inStep_of_parse (h : parse source = .error f) : f.InStep := by
  obtain ⟨ps,own,hown,hread⟩ := Piece.readAll_eq (inStep_scan source)
  obtain ⟨own',hown',hsome,hnone⟩ := Node.ofPieces_fails ps
  rw [parse,Pieces.ofSource,hread _ id] at h
  have hfault : ∀ g, own.or (scan source).fault = some g → g.InStep := by
    intro g hg
    obtain hg | ⟨_,hg⟩ := Option.or_eq_some_iff.mp hg
    · exact hown g hg
    · exact (runs_scan source).inStep_fault hg
  cases hor : own.or (scan source).fault with
  | none => exact hnone f (hor ▸ h)
  | some g =>
    obtain rfl := Except.error.inj ((hsome g).symm.trans (hor ▸ h))
    cases own' with
    | none => exact hfault g hor
    | some g' => exact hown' g' rfl

/-- What is compiled if the scan of the source stops at the given fault. -/
def parseUpTo (source : String) (f : Fault) : Except Fault (List Node) :=
  let p := Piece.readAll ⟨source.utf8ByteSize,some f⟩ (scan source).tokens
  Node.ofPieces p.pieces p.fault

theorem parseUpTo_fails (h : (scan source).fault = some f) : parse source = parseUpTo source f ∧
    ∃ own : Option Fault, ∀ f', parseUpTo source f' = .error (own.getD f') := by
  refine ⟨by rw [parse,Pieces.ofSource,h]; rfl,?_⟩
  obtain ⟨ps,own,_,hread⟩ := Piece.readAll_eq (inStep_scan source)
  obtain ⟨own',_,hown',_⟩ := Node.ofPieces_fails ps
  refine ⟨own'.or own,fun f' => ?_⟩
  rw [parseUpTo,hread _ (by simp)]
  have hor : own.or (some f') = some (own.getD f') := by cases own <;> rfl
  rw [hor,hown']
  cases own' <;> rfl

structure InStep (source : String) : Prop where
  /-- Behind an opening delimiter there are the tokens of its region, up to its closing delimiter or up
  to a fault. Outside of regions there are raw texts and opening delimiters, up to the end. -/
  tokens : Scan.InStep (scan source).fault (scan source).tokens
  /-- The reading of a region depends on nothing behind its closing delimiter, not even on whether
  there is anything, and leaves what stands there. -/
  closed {o c : Token} {region : Region} {us : List Token} : o.lexeme = .opening region →
    region.Admits us → c.lexeme = .closing region → ∃ x : Except Fault (Option Piece),
      ∀ e rest, Piece.outcome (Piece.read e o (us ++ c :: rest)) = x.map (·,rest)
  /-- The reading of a region in which the scan stops fails by a fault of its tokens, or else by the
  one that stopped the scan. -/
  cut {o : Token} {region : Region} {us : List Token} : o.lexeme = .opening region →
    region.Admits us → ∃ own : Option Fault,
      ∀ e f, e.fault = some f → Piece.read e o us = .error (own.getD f)
  /-- No reader meets the end of the source where it wants a token, and none meets a token that does
  not start a piece where it wants one. -/
  faults {f : Fault} : parse source = .error f →
    (∀ wanted, f.cause ≠ .unexpectedEnd wanted) ∧ ∀ found, f.cause ≠ .unexpected "template" found
  /-- No chain is without tags: it does not matter what would be done with one. -/
  chains (broken : Fault) : let p := Pieces.ofSource source
    Stack.run broken p.fault ⟨[],[]⟩ p.pieces = (parse source).map Node.elements
  /-- Where the scan stops, compiling fails: by a fault of what stands in front, whatever it is that
  stops the scan, or else by what stops it. -/
  stopped {f : Fault} : (scan source).fault = some f → parse source = parseUpTo source f ∧
    ∃ own : Option Fault, ∀ f', parseUpTo source f' = .error (own.getD f')
  /-- Where a token is wanted in an expression or a tag but the source ends, or another region opens,
  the scan stops, and the fault is told at the opening delimiter. -/
  unclosed {before us more : List Token} {o : Token} {region : Region} {gap rest : List Char} :
    (scan source).tokens = before ++ o :: (us ++ more) → o.lexeme = .opening region →
    region ≠ .comment → (∀ u ∈ us, u.lexeme.Inner) →
    (∀ c ∈ gap, Lexeme.isSeparator c = true) → Scan.AtEnd rest →
    Text.Stands source (Scan.stopOf o.span.stop us) (gap ++ rest) →
      more = [] ∧ (scan source).fault = some ⟨.unclosedRegion region,o.span⟩

theorem in_step (source : String) : InStep source where
  tokens := inStep_scan source
  closed ho hus hc := by
    obtain ⟨x,_,hx⟩ := Piece.read_closed ho hus hc
    exact ⟨x,hx⟩
  cut ho hus := by
    obtain ⟨own,_,hown⟩ := Piece.read_cut ho hus
    exact ⟨own,hown⟩
  faults h := by
    have hf := inStep_of_parse h
    refine ⟨fun wanted hcause => ?_,fun found hcause => ?_⟩
    all_goals
      unfold Fault.InStep at hf
      rw [hcause] at hf
    · exact hf
    · exact hf rfl
  chains broken := Stack.run_eq_ofPieces broken
  stopped := parseUpTo_fails
  unclosed := Scan.fault_of_end

end

/-- Another echo opens where the first one is not closed. -/
theorem in_step_of_unclosed :
    let source := "x\x7b\x7b a \x7b\x7b b \x7d\x7d"
    (scan source).tokens = [⟨.raw "x",⟨0,1⟩⟩] ++
        ⟨.opening .expression,⟨1,3⟩⟩ :: ([⟨.name "a",⟨4,5⟩⟩] ++ []) ∧
      (scan source).fault = some ⟨.unclosedRegion .expression,⟨1,3⟩⟩ ∧
        parse source = .error ⟨.unclosedRegion .expression,⟨1,3⟩⟩ := by
  intro source
  have htokens : (scan source).tokens = [⟨.raw "x",⟨0,1⟩⟩] ++
      ⟨.opening .expression,⟨1,3⟩⟩ :: ([⟨.name "a",⟨4,5⟩⟩] ++ []) := by decide +kernel
  have hrest : Scan.AtEnd "\x7b\x7b b \x7d\x7d".toList := .inr ⟨⟨true,.expression,false⟩,rfl,rfl⟩
  have hstands : Text.Stands source 5 ([' '] ++ "\x7b\x7b b \x7d\x7d".toList) :=
    ⟨"x\x7b\x7b a".toList,by decide +kernel,by decide +kernel⟩
  have hinner : ∀ u ∈ [(⟨.name "a",⟨4,5⟩⟩ : Token)], u.lexeme.Inner := by simp [Lexeme.Inner]
  have hgap : ∀ c ∈ [' '], Lexeme.isSeparator c = true := by simp [Lexeme.isSeparator]
  have hunclosed := (in_step source).unclosed htokens rfl (by decide) hinner hgap hrest hstands
  have hparse : (parse source).map (fun _ => ()) = .error ⟨.unclosedRegion .expression,⟨1,3⟩⟩ := by
    decide +kernel
  exact ⟨htokens,hunclosed.2,error_of_map hparse⟩

end Document

end Stencil
