import Stencil.Proofs.Grammar.Echo
import Stencil.Proofs.Template.Inherited
import Stencil.Proofs.Term.Derivable
import Stencil.Text.Identifier

set_option autoImplicit false

namespace Stencil

theorem Document.writable_terms [Alphabet] {source : String} {nodes : List Node} {t : Term}
    (h : parse source = .ok nodes) (ht : t ∈ Node.listTerms nodes) : t.Writable := by
  rw [← Node.terms_listPieces] at ht
  obtain ⟨p,hp,hterm⟩ := List.mem_flatMap.mp ht
  have hpieces := ((Inheritance.writable_closed _).settles_parse (valid_scan source)).ok nodes h
  exact (hpieces p hp).terms t hterm

namespace Scan

variable {cs : List Char} {ls : List Lexeme}

theorem foldr_cons (ts : List Token) (s : Scan) : ts.foldr cons s = ⟨ts ++ s.tokens,s.fault⟩ := by
  induction ts with
  | nil => rfl
  | cons t ts ih => rw [List.foldr_cons,ih]; rfl

theorem run_closing [Alphabet] (opening : Span) (start : Nat) :
    ∃ c, run (.inside opening .expression false) start [' ','}','}'] = ⟨[c],none⟩ ∧
      c.lexeme = .closing .expression := by
  have hahead : NoBlankAhead ['}','}'] := ⟨'}',['}'],rfl,by decide⟩
  obtain ⟨ts,stop,hts,hrun⟩ := scans_blank opening .expression start _ hahead
  obtain rfl := List.map_eq_nil_iff.mp hts
  let c : Token := ⟨.closing .expression,⟨stop,stop + 2⟩⟩
  have hclosing : run (.inside opening .expression false) stop ['}','}'] =
      cons c (run (.raw false) (stop + 2) []) := by
    rw [run.eq_def]
    rfl
  have hend : run (.raw false) (stop + 2) [] = ⟨[],none⟩ := by
    rw [run.eq_def]
    rfl
  refine ⟨c,?_,rfl⟩
  rw [List.foldr_nil,hclosing,hend] at hrun
  exact hrun

theorem scan_echo [Alphabet] (hcs : Scans cs ls Calm) (hstart : StartsTerm cs) :
    ∃ o ts c, run (.raw false) 0 ('{' :: '{' :: ' ' :: (cs ++ [' ','}','}'])) =
        ⟨o :: (ts ++ [c]),none⟩ ∧ o.lexeme = .opening .expression ∧
      ts.map Token.lexeme = ls ∧ c.lexeme = .closing .expression := by
  let opening : Span := ⟨0,2⟩
  have hterm : Scans (' ' :: cs) ls Calm :=
    scans_blank.append hcs fun _ _ => hstart.append.noBlankAhead
  obtain ⟨ts,stop,hts,hrun⟩ := hterm opening .expression 2 [' ','}','}'] ⟨' ',_,rfl,by decide⟩
  obtain ⟨c,hclosing,hc⟩ := run_closing opening stop
  rw [hclosing,foldr_cons] at hrun
  refine ⟨⟨.opening .expression,opening⟩,ts,c,?_,rfl,hts,hc⟩
  have hopening : run (.raw false) 0 ('{' :: '{' :: ' ' :: (cs ++ [' ','}','}'])) =
      cons ⟨.opening .expression,opening⟩
        (run (.inside opening .expression false) 2 (' ' :: (cs ++ [' ','}','}']))) := by
    rw [run.eq_def]
    rfl
  rw [hopening]
  exact congrArg (cons _) hrun

end Scan

namespace Document

theorem parse_of_scan [Alphabet] {source : String} {o c : Token} {ts : List Token} {t : Term}
    (hscan : scan source = ⟨o :: (ts ++ [c]),none⟩) (ho : o.lexeme = .opening .expression)
    (hc : c.lexeme = .closing .expression) (ht : Grammar.Whole ts t) :
    parse source = .ok [.echo t (o.span.cover c.span)] := by
  let e : Ending := ⟨source.utf8ByteSize,none⟩
  have hend : Grammar.EndsRegion [c] := ⟨c,[],rfl,.inl hc⟩
  obtain ⟨_,hread⟩ := (Piece.gives_read_echo (e := e) ho).mpr ⟨t,c,ht.reads hend,hc,rfl⟩
  have hnil : Piece.readAll e [] = ⟨[],none⟩ := by rw [Piece.readAll]
  have hpieces : Pieces.ofSource source = ⟨[.echo t (o.span.cover c.span)],none⟩ := by
    unfold Pieces.ofSource
    simp only [hscan]
    rw [Piece.readAll,hread]
    simp [e,hnil]
  refine Node.ofPieces_eq_ok_iff.mpr ⟨?_,?_⟩
  · rw [hpieces]
  · rw [hpieces]
    rfl

/-- A writable term reads back from an echo, up to the places of its parts. -/
theorem parse_writable [Alphabet] {t : Term} (h : t.Writable) : ∃ u span,
    parse ("\x7b\x7b " ++ t.toText ++ " \x7d\x7d") = .ok [.echo u span] ∧ u.bare = t.bare := by
  have hstart := Scan.startsTerm_toText t h
  obtain ⟨o,ts,c,hrun,ho,hts,hc⟩ := Scan.scan_echo (Scan.scans_toText t h) hstart
  obtain ⟨u,hbare,hu,_⟩ := Grammar.denotes t h ts hts
  have hscan : scan ("\x7b\x7b " ++ t.toText ++ " \x7d\x7d") = ⟨o :: (ts ++ [c]),none⟩ := by
    unfold scan
    simpa using hrun
  exact ⟨u,_,parse_of_scan hscan ho hc (.single (.of_unary hu .or)),hbare⟩

variable {name name' : Option String} {source : String} {d : Document} {t : Term}

/-- Every term of a compiled template reads back: between the delimiters of an echo its text
compiles to that echo alone, whose term differs from it in places only. -/
theorem compile_toText [Alphabet] (h : compile name source = .ok d)
    (ht : t ∈ Node.listTerms d.nodes) :
    ∃ u span, (compile name' ("\x7b\x7b " ++ t.toText ++ " \x7d\x7d")).map Document.nodes =
      .ok [.echo u span] ∧ u.bare = t.bare := by
  unfold compile at h
  split at h
  · rename_i nodes hnodes
    obtain rfl := Except.ok.inj h
    obtain ⟨u,span,hparse,hbare⟩ := parse_writable (writable_terms hnodes ht)
    refine ⟨u,span,?_,hbare⟩
    simp [compile,hparse,Except.map]
  · cases h

def prefixedSlice : Term :=
  .slice (.unary .neg (.var ⟨"a",⟨5,6⟩⟩) ⟨4,6⟩) none (some (.literal (.int 2) ⟨9,10⟩)) none ⟨4,11⟩

theorem compile_prefixedSlice : compile none "\x7b\x7b (-a)[:2] \x7d\x7d" =
    .ok ⟨none,"\x7b\x7b (-a)[:2] \x7d\x7d",[.echo prefixedSlice ⟨0,14⟩]⟩ := by
  with_unfolding_all rfl

theorem compile_toText_prefixedSlice : ∃ u span,
    (compile none ("\x7b\x7b " ++ prefixedSlice.toText ++ " \x7d\x7d")).map Document.nodes =
      .ok [.echo u span] ∧ u.bare = prefixedSlice.bare :=
  compile_toText compile_prefixedSlice (by simp [Node.listTerms,Node.terms])

end Document

end Stencil
