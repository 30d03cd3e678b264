import Stencil.Proofs.Token.Steps

set_option autoImplicit false

namespace Stencil

structure IsName [Alphabet] (n : String) : Prop where
  chars : ∃ c cs, n = String.ofList (c :: cs) ∧ Text.isNameStart c = true ∧
    ∀ x ∈ cs, Text.isNamePart x = true
  keyword : Keyword.ofText? n = none

namespace Lexeme

def Valid [Alphabet] : Lexeme → Prop
  | .name n => IsName n
  | .number digits => ∃ c cs, digits = String.ofList (c :: cs) ∧ Decimal.isDigit c = true
  | _ => True

theorem valid_ofWord [Alphabet] {c : Char} {cs : List Char} (hc : Text.isNameStart c = true)
    (hcs : ∀ x ∈ cs, Text.isNamePart x = true) : (ofWord (String.ofList (c :: cs))).Valid := by
  unfold ofWord
  split
  · trivial
  · rename_i hkeyword
    exact ⟨⟨c,cs,rfl,hc,hcs⟩,hkeyword⟩

theorem valid_of_read [Alphabet] {afterDot : Bool} {c : Char} {r : List Char} {l : Lexeme} {n : Nat}
    (h : read afterDot c r = .ok (some l,n)) : l.Valid := by
  unfold read at h
  split at h
  · cases h
    trivial
  split at h
  · cases h
    trivial
  split at h
  · split at h
    · cases h
      trivial
    · cases h
  split at h
  · rename_i hdigit
    split at h
    · cases h
      exact ⟨c,_,rfl,hdigit⟩
    · split at h
      · cases h
        exact ⟨c,_,rfl,hdigit⟩
      · cases h
  split at h
  · cases h
  split at h
  · rename_i hstart
    cases h
    refine valid_ofWord hstart fun x hx => ?_
    exact List.mem_takeWhile_imp hx
  · cases h

end Lexeme

namespace Scan

def Valid [Alphabet] (s : Scan) : Prop := ∀ t ∈ s.tokens, t.lexeme.Valid

theorem valid_rawTokens [Alphabet] (start : Nat) (text : List Char) (trimStart trimEnd : Bool) :
    ∀ t ∈ rawTokens start text trimStart trimEnd, t.lexeme.Valid := by
  unfold rawTokens
  split
  · simp
  · simp [rawToken,Lexeme.Valid]

theorem Runs.valid [Alphabet] {fault : Option Fault} {mode : Mode} {start : Nat} {cs : List Char}
    {ts : List Token} (h : Runs fault mode start cs ts) : ∀ t ∈ ts, t.lexeme.Valid := by
  induction h with
  | @last b start text => exact valid_rawTokens start text b false
  | opens _ _ _ _ ih =>
    exact List.forall_mem_append.mpr
      ⟨valid_rawTokens _ _ _ _,List.forall_mem_cons.mpr ⟨trivial,ih⟩⟩
  | blanks _ _ ih => exact ih
  | lexeme _ hread _ _ ih => exact List.forall_mem_cons.mpr ⟨Lexeme.valid_of_read hread,ih⟩
  | closes _ _ ih => exact List.forall_mem_cons.mpr ⟨trivial,ih⟩
  | ends _ _ _ _ _ ih =>
    exact List.forall_mem_append.mpr
      ⟨valid_rawTokens _ _ _ _,List.forall_mem_cons.mpr ⟨trivial,ih⟩⟩
  | unclosed | stray | unread => simp

end Scan

theorem valid_scan [Alphabet] (source : String) : (scan source).Valid := (runs_scan source).valid

end Stencil
