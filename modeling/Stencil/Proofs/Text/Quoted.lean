import Stencil.Text.Quoted
import Stencil.Token.Scan

set_option autoImplicit false

namespace Stencil.Text
open Lexeme

variable {c : Char} {cs r : List Char}

theorem quoteChar_cases (c : Char) : (∃ d, quoteChar c = ['\\',d] ∧ escapeTarget? d = some c ∧
      d ≠ '\r' ∧ d ≠ '\n') ∨
    (quoteChar c = [c] ∧ c ≠ '"' ∧ c ≠ '\\' ∧ c ≠ '\r' ∧ c ≠ '\n') := by
  unfold quoteChar
  by_cases h₁ : c = '"'
  · exact .inl ⟨'"',by simp [h₁],by subst h₁; rfl,by decide,by decide⟩
  by_cases h₂ : c = '\\'
  · exact .inl ⟨'\\',by simp [h₂],by subst h₂; rfl,by decide,by decide⟩
  by_cases h₃ : c = '\n'
  · exact .inl ⟨'n',by simp [h₃],by subst h₃; rfl,by decide,by decide⟩
  by_cases h₄ : c = '\r'
  · exact .inl ⟨'r',by simp [h₄],by subst h₄; rfl,by decide,by decide⟩
  by_cases h₅ : c = '\t'
  · exact .inl ⟨'t',by simp [h₅],by subst h₅; rfl,by decide,by decide⟩
  · exact .inr ⟨by simp [h₁,h₂,h₃,h₄,h₅],h₁,h₂,h₄,h₃⟩

theorem unescape_quoteChar (h : ∀ offset, unescape offset r = .ok cs) (offset : Nat) :
    unescape offset (quoteChar c ++ r) = .ok (c :: cs) := by
  obtain ⟨d,hc,hd,_⟩ | ⟨hc,_,hne,_⟩ := quoteChar_cases c
  · simp [hc,unescape,hd,h,Except.map]
  · rw [hc,List.singleton_append,unescape.eq_def]
    simp [hne,h,Except.map]

theorem unescape_flatMap (cs : List Char) (offset : Nat) :
    unescape offset (cs.flatMap quoteChar) = .ok cs := by
  induction cs generalizing offset with
  | nil => rfl
  | cons c cs ih => exact unescape_quoteChar ih offset

theorem stringLength_quoteChar {n : Nat} (h : stringLength '"' false r = .ok n) :
    stringLength '"' false (quoteChar c ++ r) = .ok (n + (quoteChar c).length) := by
  obtain ⟨d,hc,_,hr,hn⟩ | ⟨hc,hquote,hslash,hr,hn⟩ := quoteChar_cases c
  · simp [hc,stringLength,hr,hn,h]
  · have hfalse : (c == '\\') = false := by simpa using hslash
    simp [hc,stringLength,hquote,hfalse,hr,hn,h]

/-- The closing quote is the first one without a backslash in front. -/
theorem stringLength_flatMap (cs rest : List Char) :
    stringLength '"' false (cs.flatMap quoteChar ++ '"' :: rest) =
      .ok ((cs.flatMap quoteChar).length + 1) := by
  induction cs with
  | nil => simp [stringLength]
  | cons c cs ih =>
    rw [List.flatMap_cons,List.append_assoc,stringLength_quoteChar ih,List.length_append]
    congr 1
    omega

end Stencil.Text
