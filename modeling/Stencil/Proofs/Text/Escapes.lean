import Stencil.Proofs.Outcome
import Stencil.Proofs.Text.Spans
import Stencil.Text.Quoted
import Stencil.Token.Scan

/-!
The body of a string literal part by part: characters that stand for themselves, and escapes of two
characters. The search for the closing quote, which only remembers whether the last backslash is
pending, ends between two parts, and decoding goes from part to part.
-/

set_option autoImplicit false

namespace Stencil.Text
open Lexeme

def escapes : List (Char × Char) :=
  [('n','\n'),('r','\r'),('t','\t'),('\\','\\'),('"','"'),('\'','\'')]

theorem escapeTarget?_eq_lookup (c : Char) : escapeTarget? c = escapes.lookup c := by
  by_cases h : c ∈ ['n','r','t','\\','"','\'']
  · simp only [List.mem_cons,List.not_mem_nil,or_false] at h
    rcases h with rfl | rfl | rfl | rfl | rfl | rfl <;> rfl
  · simp only [List.mem_cons,List.not_mem_nil,or_false,not_or] at h
    have hne {d : Char} (hd : ¬c = d) : (c == d) = false := by simpa using hd
    simp [escapeTarget?,escapes,List.lookup_cons,h,hne]

/-- A character that stands for itself, or a backslash and the character behind it. -/
inductive Part where
  | plain (c : Char)
  | escape (c : Char)
  deriving DecidableEq, Repr

namespace Part

def text : Part → List Char
  | .plain c => [c]
  | .escape c => ['\\',c]

def meaning? : Part → Option Char
  | .plain c => some c
  | .escape c => escapes.lookup c

def Fits (quote : Char) : Part → Prop
  | .plain c => c ≠ '\\' ∧ c ≠ quote ∧ c ≠ '\r' ∧ c ≠ '\n'
  | .escape c => c ≠ '\r' ∧ c ≠ '\n'

end Part

def written (ps : List Part) : List Char := ps.flatMap Part.text

variable {quote : Char} {cs r : List Char} {n : Nat} {p : Part} {ps : List Part}

@[simp] theorem written_nil : written [] = [] := rfl

@[simp] theorem written_cons : written (p :: ps) = p.text ++ written ps := rfl

@[simp] theorem written_append {qs : List Part} : written (ps ++ qs) = written ps ++ written qs :=
  List.flatMap_append

theorem stringLength_escaped (h : stringLength quote true cs = .ok n) :
    ∃ c r m, cs = c :: r ∧ n = m + 1 ∧ (Part.escape c).Fits quote ∧
      stringLength quote false r = .ok m := by
  cases cs with
  | nil => cases h
  | cons c r =>
    rw [stringLength] at h
    split at h
    · cases h
    · rename_i hline
      rw [not_or] at hline
      rw [if_neg (by simp)] at h
      split at h
      · rename_i m hm
        cases h
        exact ⟨c,r,m,rfl,rfl,hline,by simpa using hm⟩
      · cases h

/-- By recursion along the text, an escape at a time: what stands in front of the closing quote is a
sequence of parts. -/
theorem exists_parts {cs : List Char} {n : Nat} (h : stringLength quote false cs = .ok n) :
    ∃ ps rest, cs = written ps ++ quote :: rest ∧ n = (written ps).length + 1 ∧
      ∀ p ∈ ps, p.Fits quote := by
  match cs with
  | [] => cases h
  | c :: r =>
    rw [stringLength] at h
    split at h
    · cases h
    rename_i hline
    rw [not_or] at hline
    split at h
    · rename_i hquote
      cases h
      exact ⟨[],r,by simp [hquote.1],rfl,by simp⟩
    rename_i hquote
    split at h
    · rename_i m hm
      cases h
      by_cases hslash : c = '\\'
      · obtain ⟨d,r,k,rfl,rfl,hd,hk⟩ := stringLength_escaped (by simpa [hslash] using hm)
        obtain ⟨ps,rest,rfl,rfl,hps⟩ := exists_parts hk
        exact ⟨.escape d :: ps,rest,by simp [Part.text,hslash],by simp [Part.text],
          by simpa [hd] using hps⟩
      · have hm : stringLength quote false r = .ok m := by
          rwa [show (c == '\\' && !false) = false by simpa using hslash] at hm
        obtain ⟨ps,rest,rfl,rfl,hps⟩ := exists_parts hm
        have hc : (Part.plain c).Fits quote := ⟨hslash,by simpa using hquote,hline⟩
        exact ⟨.plain c :: ps,rest,by simp [Part.text],by simp [Part.text],by simpa [hc] using hps⟩
    · cases h
termination_by cs.length

/-- Decoding takes one part: it has a meaning, or decoding stops at it. -/
theorem unescape_text (hp : p.Fits quote) (offset : Nat) : unescape offset (p.text ++ r) =
    match p.meaning? with
    | some c => (unescape (offset + byteSize p.text) r).map (c :: ·)
    | none => .error ⟨offset,byteSize p.text⟩ := by
  cases p with
  | plain c =>
    rw [Part.text,List.singleton_append,unescape.eq_def]
    simp [hp.1,Part.meaning?,byteSize]
  | escape c =>
    have hslash : '\\'.utf8Size = 1 := rfl
    cases htarget : escapeTarget? c <;>
      simp [Part.text,Part.meaning?,← escapeTarget?_eq_lookup,unescape,htarget,byteSize,hslash,
        Nat.add_assoc]

theorem unescape_eq_ok_iff (hps : ∀ p ∈ ps, p.Fits quote) (offset : Nat) :
    unescape offset (written ps) = .ok cs ↔ ps.map Part.meaning? = cs.map some := by
  induction ps generalizing offset cs with
  | nil => cases cs <;> simp [unescape]
  | cons p ps ih =>
    obtain ⟨hp,hps⟩ := List.forall_mem_cons.mp hps
    rw [written_cons,unescape_text hp,List.map_cons]
    cases p.meaning? with
    | none => cases cs <;> simp
    | some c => cases cs <;> simp [map_eq_ok_iff,ih hps,and_comm]

theorem unescape_eq_error_iff (hps : ∀ p ∈ ps, p.Fits quote) (offset : Nat) (bad : BadEscape) :
    unescape offset (written ps) = .error bad ↔ ∃ before p after, ps = before ++ p :: after ∧
      (∀ q ∈ before, q.meaning? ≠ none) ∧ p.meaning? = none ∧
      bad = ⟨offset + byteSize (written before),byteSize p.text⟩ := by
  induction ps generalizing offset with
  | nil => simp [unescape]
  | cons p ps ih =>
    obtain ⟨hp,hps⟩ := List.forall_mem_cons.mp hps
    rw [written_cons,unescape_text hp]
    cases hmeaning : p.meaning? with
    | none =>
      constructor
      · rintro ⟨⟩
        exact ⟨[],p,ps,rfl,by simp,hmeaning,by simp [byteSize]⟩
      · rintro ⟨before,q,after,heq,hbefore,_,rfl⟩
        cases before with
        | nil =>
          obtain ⟨rfl,_⟩ := List.cons.inj heq
          simp [byteSize]
        | cons q' before =>
          obtain ⟨rfl,_⟩ := List.cons.inj heq
          exact absurd hmeaning (hbefore p (by simp))
    | some c =>
      have hmap {x : Except BadEscape (List Char)} :
          x.map (c :: ·) = .error bad ↔ x = .error bad := by cases x <;> simp [Except.map]
      rw [hmap,ih hps]
      constructor
      · rintro ⟨before,q,after,rfl,hbefore,hq,rfl⟩
        refine ⟨p :: before,q,after,rfl,?_,hq,by simp [Nat.add_assoc]⟩
        simpa [hmeaning] using hbefore
      · rintro ⟨before,q,after,heq,hbefore,hq,rfl⟩
        cases before with
        | nil =>
          obtain ⟨rfl,_⟩ := List.cons.inj heq
          simp [hmeaning] at hq
        | cons q' before =>
          obtain ⟨rfl,rfl⟩ := List.cons.inj heq
          exact ⟨before,q,after,rfl,fun r hr => hbefore r (by simp [hr]),hq,by simp [Nat.add_assoc]⟩

end Stencil.Text
