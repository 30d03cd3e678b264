import Stencil.Proofs.Text.Escapes
import Stencil.Proofs.Token.Placed

set_option autoImplicit false

namespace Stencil
open Text

def Token.IsRead [Alphabet] (source : String) (t : Token) : Prop :=
  ∃ afterDot c r n, Stands source t.span.start (c :: r) ∧
    Lexeme.read afterDot c r = .ok (some t.lexeme,n) ∧
    t.span.stop = t.span.start + byteSize (c :: r.take n)

/-- The string stands in the source between two quotes, part by part. -/
structure Token.Delimits (source : String) (t : Token) (body : String) (quote : Char)
    (ps : List Part) : Prop where
  isQuote : quote = '"' ∨ quote = '\''
  whole : slice? source.toList t.span = some (quote :: (body.toList ++ [quote]))
  inner : slice? source.toList ⟨t.span.start + 1,t.span.stop - 1⟩ = some body.toList
  parts : body.toList = written ps
  fits : ∀ p ∈ ps, p.Fits quote

theorem Lexeme.quoted_of_read [Alphabet] {afterDot : Bool} {c : Char} {r : List Char}
    {body : String} {n : Nat} (h : read afterDot c r = .ok (some (.string body),n)) :
    (c = '"' ∨ c = '\'') ∧ stringLength c false r = .ok n ∧ body = String.ofList (r.take (n - 1)) := by
  unfold read at h
  split at h
  · cases h
  split at h
  · cases h
  split at h
  · rename_i hquote
    split at h
    · rename_i m hm
      cases h
      exact ⟨hquote,hm,rfl⟩
    · cases h
  split at h
  · split at h
    · cases h
    · split at h <;> cases h
  split at h
  · cases h
  split at h
  · simp only [Except.ok.injEq,Prod.mk.injEq,Option.some.injEq] at h
    have hword := h.1
    unfold ofWord at hword
    split at hword <;> cases hword
  · cases h

namespace Scan

variable {source : String}

theorem isRead_run [Alphabet] {mode : Mode} {start : Nat} {cs : List Char}
    (hcs : Stands source start cs) :
    ∀ t ∈ (run mode start cs).tokens, t.lexeme.Inner → t.IsRead source := by
  fun_induction run mode start cs with
  -- raw text up to the end, or in front of an opening delimiter
  | case1 | case2 => simp [Lexeme.Inner,rawToken]
  | case3 start cs b d rest hnext first span next tail ih =>
    cases cut_of_nextOpening hnext with
    | atOpening => simpa [tail,Lexeme.Inner] using ih (delimited hcs.append).2
  | case4 start cs b text d rest hnext first span next tail hne ih =>
    cases cut_of_nextOpening hnext with
    | atOpening => simpa [tail,rawToken,Lexeme.Inner] using ih (delimited hcs.append).2
  | case5 | case6 | case7 | case9 => simp
  | case8 start _ _ _ c r d hd span hopens hregion ih =>
    have hdrop : (c :: r).drop d.size = r.drop (d.size - 1) :=
      List.drop_cons (Nat.zero_lt_of_lt d.two_le_size)
    rw [Delimiter.eq_text_append hd,hdrop] at hcs
    simpa [Lexeme.Inner] using ih (delimited hcs).2
  -- inside a region: blanks and a lexeme
  | case10 start opening region afterDot c r _ n _ hread ih =>
    rw [← List.take_append_drop n r,← List.cons_append] at hcs
    exact ih hcs.append
  | case11 start opening region afterDot c r _ n _ l hread ih =>
    have hrest := hcs
    rw [← List.take_append_drop n r,← List.cons_append] at hrest
    rw [tokens_cons,List.forall_mem_cons]
    exact ⟨fun _ => ⟨afterDot,c,r,n,hcs,hread,rfl⟩,ih hrest.append⟩
  -- a comment
  | case12 => simp
  | case13 start cs opening text rest hcut trims hbody first span tail ih =>
    rw [append_of_cut? hcut] at hcs
    simpa [tail,Lexeme.Inner] using ih hcs.append.append
  | case14 start cs opening text rest hcut body trims hbody first span tail hne ih =>
    rw [append_of_cut? hcut] at hcs
    simpa [tail,Lexeme.Inner] using ih hcs.append.append

end Scan

theorem Token.IsRead.delimits [Alphabet] {source : String} {t : Token} {body : String}
    (h : t.IsRead source)
    (hbody : t.lexeme = .string body) : ∃ quote ps, t.Delimits source body quote ps := by
  obtain ⟨afterDot,quote,r,n,hstands,hread,hstop⟩ := h
  obtain ⟨hquote,hlength,rfl⟩ := Lexeme.quoted_of_read (hbody ▸ hread)
  obtain ⟨ps,rest,rfl,rfl,hfits⟩ := exists_parts hlength
  rw [List.take_length_add_append,List.take_succ_cons,List.take_zero] at hstop
  have hone : byteSize [quote] = 1 := by obtain rfl | rfl := hquote <;> rfl
  have hwhole : Stands source t.span.start ((quote :: (written ps ++ [quote])) ++ rest) := by
    simpa using hstands
  have hinner : Stands source (t.span.start + byteSize [quote]) (written ps ++ (quote :: rest)) :=
    Stands.append hstands
  have hlast : t.span.stop - 1 = t.span.start + 1 + byteSize (written ps) := by
    simp only [byteSize,byteSize_append] at hstop hone
    omega
  refine ⟨quote,ps,hquote,?_,?_,by simp,hfits⟩
  · rw [show t.span = ⟨t.span.start,t.span.stop⟩ from rfl,hstop]
    simpa using hwhole.slice?
  · rw [hlast,← hone]
    simpa using hinner.slice?

end Stencil
