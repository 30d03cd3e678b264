import Mathlib.Data.List.TakeWhile
import Stencil.Proofs.Token.Steps

set_option autoImplicit false

namespace Stencil
open Text

/-- The token lies in the source. A string stands there as it is written, behind its quote. -/
structure Token.Placed (source : String) (t : Token) : Prop where
  within : t.span.Within source
  proper : (∀ text, t.lexeme ≠ .raw text) → t.span.Proper source
  string : ∀ body, t.lexeme = .string body →
    ∃ r, Stands source (t.span.start + 1) (body.toList ++ r)

structure Fault.OfReading (source : String) (f : Fault) : Prop where
  within : f.span.Within source
  category : f.cause.category = .lex ∨ f.cause.category = .syntactic

namespace Lexeme

def Inner : Lexeme → Prop
  | .raw _ | .opening _ | .closing _ => False
  | .symbol _ | .keyword _ | .name _ | .number _ | .string _ => True

theorem inner_ofWord (s : String) : (ofWord s).Inner := by
  unfold ofWord
  split <;> trivial

theorem written_of_read [Alphabet] {afterDot : Bool} {c : Char} {r : List Char} {l : Lexeme}
    {n : Nat} (h : read afterDot c r = .ok (some l,n)) :
    l.Inner ∧ ∀ body, l = .string body → c.utf8Size = 1 ∧ body.toList <+: r := by
  unfold read at h
  split at h
  · cases h
    simp [Inner]
  split at h
  · cases h
    simp [Inner]
  split at h
  · rename_i hquote
    split at h
    · cases h
      refine ⟨trivial,fun body hbody => ?_⟩
      obtain rfl := Lexeme.string.inj hbody
      refine ⟨?_,by simpa using List.take_prefix _ _⟩
      obtain rfl | rfl := hquote <;> rfl
    · cases h
  split at h
  · split at h
    · cases h
      simp [Inner]
    · split at h
      · cases h
        simp [Inner]
      · cases h
  split at h
  · cases h
  split at h
  · cases h
    refine ⟨inner_ofWord _,fun body hbody => ?_⟩
    unfold ofWord at hbody
    split at hbody <;> cases hbody
  · cases h

end Lexeme

namespace Scan

variable {source : String} {start : Nat} {cs text : List Char}

theorem placed_raw {content : String} {span : Span} (hspan : span.Within source) :
    Token.Placed source ⟨.raw content,span⟩ :=
  ⟨hspan,fun hraw => absurd rfl (hraw content),fun _ h => nomatch h⟩

theorem placed_rawTokens {trimStart trimEnd : Bool} {rest : List Char}
    (h : Stands source start (text ++ rest)) :
    ∀ t ∈ rawTokens start text trimStart trimEnd, t.Placed source := by
  unfold rawTokens
  split
  · simp
  · obtain ⟨lead,kept,tail,rfl,_,_,heq⟩ := rawToken_eq start text trimStart trimEnd
    have hkept : Stands source start (lead ++ (kept ++ (tail ++ rest))) := by simpa using h
    simpa [heq] using placed_raw (Span.within_of_stands hkept.append)

theorem placed_token {l : Lexeme} {span : Span} (hspan : span.Proper source)
    (hl : ∀ body, l ≠ .string body) : Token.Placed source ⟨l,span⟩ :=
  ⟨hspan.toWithin,fun _ => hspan,fun body h => absurd h (hl body)⟩

structure Placed (source : String) (s : Scan) : Prop where
  tokens : ∀ t ∈ s.tokens, t.Placed source
  fault : ∀ f, s.fault = some f → f.OfReading source

def Mode.Placed (source : String) (mode : Mode) : Prop :=
  ∀ region opening, mode.opened? = some (region,opening) → opening.Within source

theorem Mode.placed_behind {region : Region} {opening : Span} (h : opening.Within source) :
    (Mode.behind region opening).Placed source := by
  unfold Mode.behind
  split
  · simpa [Mode.Placed,opened?] using h
  · simpa [Mode.Placed,opened?] using h

theorem Mode.placed_raw (b : Bool) : (Mode.raw b).Placed source := by
  simp [Mode.Placed,opened?]

theorem delimited {d : Delimiter} {rest : List Char} (h : Stands source start (d.text ++ rest)) :
    Span.Proper source ⟨start,start + d.size⟩ ∧ Stands source (start + d.size) rest := by
  rw [← d.byteSize_text]
  exact ⟨Span.proper_of_stands h d.text_ne_nil,h.append⟩

theorem slice?_delimiter {d : Delimiter} {rest : List Char}
    (h : Stands source start (d.text ++ rest)) :
    slice? source.toList ⟨start,start + d.size⟩ = some d.text := by
  rw [← d.byteSize_text]
  exact h.slice?

theorem placed_cons {t : Token} {ts : List Token} {fault : Option Fault} (ht : t.Placed source)
    (h : Placed source ⟨ts,fault⟩) : Placed source ⟨t :: ts,fault⟩ :=
  ⟨List.forall_mem_cons.mpr ⟨ht,h.tokens⟩,h.fault⟩

theorem placed_append {ts us : List Token} {fault : Option Fault} (ht : ∀ t ∈ ts, t.Placed source)
    (h : Placed source ⟨us,fault⟩) : Placed source ⟨ts ++ us,fault⟩ :=
  ⟨List.forall_mem_append.mpr ⟨ht,h.tokens⟩,h.fault⟩

theorem placed_stop {cause : Cause} {span : Span} {fault : Option Fault}
    (hfault : fault = some ⟨cause,span⟩) (hspan : span.Within source)
    (hcause : cause.category = .lex ∨ cause.category = .syntactic) :
    Placed source ⟨[],fault⟩ := by
  refine ⟨by simp,fun f hf => ?_⟩
  obtain rfl := Option.some.inj (hfault.symm.trans hf)
  exact ⟨hspan,hcause⟩

/-- By induction along the scan: each step starts where the characters that are left stand. -/
theorem Runs.placed [Alphabet] {fault : Option Fault} {mode : Mode} {ts : List Token}
    (h : Runs fault mode start cs ts) (hmode : mode.Placed source)
    (hcs : Stands source start cs) : Placed source ⟨ts,fault⟩ := by
  induction h with
  | @last _ _ text _ hfault =>
    rw [← List.append_nil text] at hcs
    exact ⟨placed_rawTokens hcs,by simp [hfault]⟩
  | opens _ _ hfirst _ ih =>
    subst hfirst
    obtain ⟨hspan,hrest⟩ := delimited hcs.append
    refine placed_append (placed_rawTokens hcs) (placed_cons (placed_token hspan (by simp)) ?_)
    exact ih (Mode.placed_behind hspan.toWithin) hrest
  | blanks _ _ ih => exact ih hmode hcs.append
  | @lexeme _ _ _ start _ c cs rest _ _ _ hread _ _ ih =>
    obtain ⟨_,hstring⟩ := Lexeme.written_of_read hread
    have hspan := Span.proper_of_stands hcs (List.cons_ne_nil c cs)
    refine placed_cons ⟨hspan.toWithin,fun _ => hspan,fun body hbody => ?_⟩ (ih hmode hcs.append)
    obtain ⟨hquote,after,hafter⟩ := hstring body hbody
    have hfirst : Stands source start ([c] ++ (cs ++ rest)) := hcs
    have hbehind := hfirst.append
    refine ⟨after,?_⟩
    rw [hafter]
    simpa [byteSize,hquote] using hbehind
  | closes _ _ ih =>
    obtain ⟨hspan,hrest⟩ := delimited hcs
    exact placed_cons (placed_token hspan (by simp)) (ih (Mode.placed_raw _) hrest)
  | ends _ _ _ hfirst _ ih =>
    subst hfirst
    obtain ⟨hspan,hrest⟩ := delimited hcs.append
    refine placed_append (placed_rawTokens hcs) (placed_cons (placed_token hspan (by simp)) ?_)
    exact ih (Mode.placed_raw _) hrest
  | unclosed hopened hfault => exact placed_stop hfault (hmode _ _ hopened) (.inr rfl)
  | stray hfault => exact placed_stop hfault (delimited hcs).1.toWithin (.inr rfl)
  | unread hcause hfault => exact placed_stop hfault (Span.within_of_stands hcs) (.inl hcause)

end Scan

theorem placed_scan [Alphabet] (source : String) : (scan source).Placed source :=
  (runs_scan source).placed (Scan.Mode.placed_raw _) (stands_toList source)

end Stencil
