import Stencil.Proofs.Text.Quoted
import Stencil.Proofs.Token.Strings
import Stencil.Term.Read
import Stencil.Text.Identifier

set_option autoImplicit false

namespace Stencil
open Text

namespace Text

def escapable : List Char := ['n','r','t','\\','"','\'']

variable {c : Char} {p : Part} {ps : List Part}

theorem lookup_escapes_eq_none_iff : escapes.lookup c = none ↔ c ∉ escapable := by
  simp [List.lookup_eq_none_iff,escapes,escapable]

theorem Part.meaning?_eq_none_iff : p.meaning? = none ↔ ∃ c, p = .escape c ∧ c ∉ escapable := by
  cases p with
  | plain c => simp [meaning?]
  | escape c => simp only [meaning?,lookup_escapes_eq_none_iff,escape.injEq,exists_eq_left']

theorem Part.meaning?_escape_ne_none_iff :
    (Part.escape c).meaning? ≠ none ↔ c ∈ escapable := by
  rw [meaning?,ne_eq,lookup_escapes_eq_none_iff,not_not]

end Text

namespace Literal

structure Blames (source : String) (t : Token) (ps : List Part) (f : Fault) : Prop where
  cause : f.cause = .unknownEscape
  first : ∃ before c after, ps = before ++ .escape c :: after ∧ c ∉ escapable ∧
    (∀ d, .escape d ∈ before → d ∈ escapable) ∧
    f.span.start = t.span.start + 1 + byteSize (written before) ∧
    slice? source.toList f.span = some ['\\',c]

/-- How the string is decoded whose body consists of the parts. -/
structure Decodes (source : String) (t : Token) (body : String) (ps : List Part) : Prop where
  fails : (∃ f, readString ⟨body,t.span⟩ = .error f) ↔ ∃ c, .escape c ∈ ps ∧ c ∉ escapable
  blames : ∀ f, readString ⟨body,t.span⟩ = .error f → Blames source t ps f
  replaces : ∀ s, readString ⟨body,t.span⟩ = .ok s ↔ ps.map Part.meaning? = s.toList.map some

variable {source : String} {t : Token} {body : String} {quote : Char} {ps : List Part}

theorem readString_eq_ok_iff (h : t.Delimits source body quote ps) (s : String) :
    readString ⟨body,t.span⟩ = .ok s ↔ ps.map Part.meaning? = s.toList.map some := by
  rw [← unescape_eq_ok_iff h.fits 0,← h.parts]
  simp only [readString]
  cases unescape 0 body.toList with
  | ok cs => simp [String.ext_iff]
  | error bad => simp

theorem blames_of_readString {f : Fault} (h : t.Delimits source body quote ps)
    (hread : readString ⟨body,t.span⟩ = .error f) : Blames source t ps f := by
  simp only [readString] at hread
  split at hread
  · cases hread
  rename_i bad hbad
  cases hread
  rw [h.parts] at hbad
  obtain ⟨before,p,after,rfl,hbefore,hp,rfl⟩ := (unescape_eq_error_iff h.fits 0 bad).mp hbad
  obtain ⟨c,rfl,hc⟩ := Part.meaning?_eq_none_iff.mp hp
  obtain ⟨rest,hstands⟩ := stands_of_slice? h.inner
  rw [h.parts,written_append,written_cons,List.append_assoc,List.append_assoc] at hstands
  rw [Nat.zero_add]
  refine ⟨rfl,before,c,after,rfl,hc,fun d hd => ?_,rfl,hstands.append.slice?⟩
  exact Part.meaning?_escape_ne_none_iff.mp (hbefore _ hd)

theorem readString_fails_iff (h : t.Delimits source body quote ps) :
    (∃ f, readString ⟨body,t.span⟩ = .error f) ↔ ∃ c, .escape c ∈ ps ∧ c ∉ escapable := by
  constructor
  · rintro ⟨f,hf⟩
    obtain ⟨_,before,c,after,rfl,hc,_⟩ := blames_of_readString h hf
    exact ⟨c,by simp,hc⟩
  · rintro ⟨c,hmem,hc⟩
    rw [exists_error_iff]
    rintro ⟨s,hs⟩
    have hsome : (Part.escape c).meaning? ∈ s.toList.map some := by
      rw [← (readString_eq_ok_iff h s).mp hs]
      exact List.mem_map_of_mem hmem
    rw [Part.meaning?_eq_none_iff.mpr ⟨c,rfl,hc⟩] at hsome
    simp at hsome

theorem decodes (h : t.Delimits source body quote ps) : Decodes source t body ps :=
  ⟨readString_fails_iff h,fun _ => blames_of_readString h,readString_eq_ok_iff h⟩

theorem readString_flatMap (s : String) (span : Span) :
    readString ⟨String.ofList (s.toList.flatMap quoteChar),span⟩ = .ok s := by
  simp [readString,unescape_flatMap]

end Literal

namespace Scan

theorem read_flatMap [Alphabet] (afterDot : Bool) (cs rest : List Char) :
    Lexeme.read afterDot '"' (cs.flatMap quoteChar ++ '"' :: rest) =
      .ok (some (.string (String.ofList (cs.flatMap quoteChar))),
        (cs.flatMap quoteChar).length + 1) := by
  have hlength := stringLength_flatMap cs rest
  generalize cs.flatMap quoteChar = body at hlength ⊢
  have hpair (r : List Char) : r.head?.bind (Symbol.pair? '"') = none := by cases r <;> rfl
  unfold Lexeme.read
  rw [hpair]
  simp [Symbol.single?,hlength]

/-- Wherever a quoted text stands in an expression or a block, the whole of it is one string. -/
theorem run_quote [Alphabet] (s : String) (opening : Span) (region : Region) (afterDot : Bool)
    (start : Nat)
    (rest : List Char) : run (.inside opening region afterDot) start ((quote s).toList ++ rest) =
      cons ⟨.string (String.ofList (s.toList.flatMap quoteChar)),
        ⟨start,start + byteSize (quote s).toList⟩⟩
        (run (.inside opening region false) (start + byteSize (quote s).toList) rest) := by
  have hread := read_flatMap afterDot s.toList rest
  have hquote : (quote s).toList = '"' :: (s.toList.flatMap quoteChar ++ ['"']) := by simp [quote]
  have hdelimiter (r : List Char) : Delimiter.at? ('"' :: r) = none := rfl
  rw [hquote]
  generalize s.toList.flatMap quoteChar = body at hread ⊢
  have hdot : (Lexeme.string (String.ofList body) == .symbol .dot) = false := by simp
  simp only [List.cons_append,List.append_assoc,List.nil_append]
  rw [run.eq_def]
  simp only [hdelimiter,hread,hdot,List.take_length_add_append,List.drop_length_add_append,
    List.take_succ_cons,List.take_zero,List.drop_succ_cons,List.drop_zero]

end Scan

/-- What the scan takes for a string is decoded from one quote to the other, part by part, and every
text is scanned and decoded as it was quoted. -/
theorem strings_decoded [Alphabet] :
    (∀ source, ∀ t ∈ (scan source).tokens, ∀ body, t.lexeme = .string body → ∃ quote ps,
      t.Delimits source body quote ps ∧ Literal.Decodes source t body ps) ∧
    ∀ s opening region afterDot start rest, ∃ body,
      let span : Span := ⟨start,start + byteSize (quote s).toList⟩
      Scan.run (.inside opening region afterDot) start ((quote s).toList ++ rest) =
        Scan.cons ⟨.string body,span⟩ (Scan.run (.inside opening region false) span.stop rest) ∧
      Literal.readString ⟨body,span⟩ = .ok s := by
  constructor
  · intro source t ht body hbody
    have hinner : t.lexeme.Inner := by rw [hbody]; trivial
    obtain ⟨quote,ps,h⟩ := (Scan.isRead_run (stands_toList source) t ht hinner).delimits hbody
    exact ⟨quote,ps,h,Literal.decodes h⟩
  · intro s opening region afterDot start rest
    exact ⟨_,Scan.run_quote s opening region afterDot start rest,Literal.readString_flatMap s _⟩

/-- The second escape has no meaning. -/
theorem strings_decoded_to_second_escape :
    let source := "\x7b\x7b 'é\\'\\q' \x7d\x7d"
    let t : Token := ⟨.string "é\\'\\q",⟨3,11⟩⟩
    t ∈ (scan source).tokens ∧ ∃ quote ps, t.Delimits source "é\\'\\q" quote ps ∧
      Literal.Decodes source t "é\\'\\q" ps ∧
      Literal.Blames source t ps ⟨.unknownEscape,⟨8,10⟩⟩ := by
  intro source t
  have hmem : t ∈ (scan source).tokens := by decide +kernel
  obtain ⟨quote,ps,h,hdecodes⟩ := strings_decoded.1 source t hmem _ rfl
  exact ⟨hmem,quote,ps,h,hdecodes,hdecodes.blames _ (by decide +kernel)⟩

end Stencil
