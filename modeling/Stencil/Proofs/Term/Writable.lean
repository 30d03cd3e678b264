import Stencil.Proofs.Number.Notation
import Stencil.Proofs.Term.Inherited
import Stencil.Proofs.Token.Valid

set_option autoImplicit false

namespace Stencil

def Literal.Writable : Literal → Prop
  | .int n => 0 ≤ n.toInt
  | .float x => x.isNegative = false ∧ x.isFinite = true
  | .null | .bool _ | .str _ => True

namespace Term

mutual

/-- Names are words, and numbers have no sign. -/
def Writable [Alphabet] : Term → Prop
  | .literal l _ => l.Writable
  | .var n => IsName n.value
  | .unary _ t _ => t.Writable
  | .binary _ l r _ => l.Writable ∧ r.Writable
  | .call f args _ => IsName f.value ∧ AllWritable args
  | .index c k _ => c.Writable ∧ k.Writable
  | .slice c start stop step _ =>
    c.Writable ∧ BoundWritable start ∧ BoundWritable stop ∧ BoundWritable step
  | .list items _ => AllWritable items

def AllWritable [Alphabet] : List Term → Prop
  | [] => True
  | t :: ts => t.Writable ∧ AllWritable ts

def BoundWritable [Alphabet] : Option Term → Prop
  | none => True
  | some t => t.Writable

end

theorem allWritable_iff [Alphabet] {ts : List Term} : AllWritable ts ↔ ∀ t ∈ ts, t.Writable := by
  induction ts with
  | nil => simp [AllWritable]
  | cons t ts ih => simp [AllWritable,ih]

theorem boundWritable_iff [Alphabet] {b : Option Term} : BoundWritable b ↔ ∀ t ∈ b, t.Writable := by
  cases b <;> simp [BoundWritable]

end Term

namespace Literal

variable {l : Literal} {digits : String} {s : Span}

section
variable [Alphabet]

theorem splitSign_of_valid (h : (Lexeme.number digits).Valid) :
    Decimal.splitSign digits.toList = (false,digits.toList) := by
  obtain ⟨c,cs,rfl,hc⟩ := h
  have hdigits : Decimal.Digits [c] := by simpa [Decimal.Digits] using hc
  have hsplit : Decimal.splitSign ([c] ++ cs) = (false,[c] ++ cs) :=
    hdigits.splitSign_append (by simp)
  simpa using hsplit

theorem nonneg_of_ofText? {n : Int64} (hvalid : (Lexeme.number digits).Valid)
    (h : Integer.ofText? digits = some n) : 0 ≤ n.toInt := by
  unfold Integer.ofText? at h
  simp only [splitSign_of_valid hvalid,Bool.false_eq_true,if_false] at h
  split at h
  · unfold Integer.ofInt? at h
    split at h
    · rename_i hround
      obtain rfl := Option.some.inj h
      rw [hround]
      exact Int.natCast_nonneg _
    · cases h
  · cases h

theorem writable_of_readInteger (hvalid : (Lexeme.number digits).Valid)
    (h : readInteger ⟨digits,s⟩ = .ok l) : l.Writable := by
  unfold readInteger at h
  split at h
  · rename_i n hn
    cases h
    exact nonneg_of_ofText? hvalid hn
  · cases h

theorem writable_of_readNumber (hvalid : (Lexeme.number digits).Valid)
    (h : readNumber ⟨digits,s⟩ = .ok l) : l.Writable := by
  unfold readNumber at h
  split at h
  · split at h
    · rename_i x hx
      split at h
      · rename_i hfinite
        cases h
        refine ⟨?_,hfinite⟩
        unfold Binary64.ofText? Binary64.readText? at hx
        simp only [splitSign_of_valid hvalid] at hx
        split at hx
        · cases hx
          rfl
        · split at hx
          · cases hx
            rfl
          · split at hx
            · cases hx
              rfl
            · cases hx
      · cases h
    · cases h
  · exact writable_of_readInteger hvalid h

end

end Literal

namespace Grammar
open Term

theorem Member.writable [Alphabet] {k : Token} {l : Literal} (hk : k.lexeme.Valid)
    (h : Member k l) :
    l.Writable := by
  cases h with
  | name _ => trivial
  | keyword _ => trivial
  | number hdigits hread =>
    rw [hdigits] at hk
    exact Literal.writable_of_readInteger hk hread

theorem Atom.writable [Alphabet] {t : Token} {l : Literal} (ht : t.lexeme.Valid) (h : Atom t l) :
    l.Writable := by
  cases h with
  | number hdigits hread =>
    rw [hdigits] at ht
    exact Literal.writable_of_readNumber ht hread
  | string _ _ | true _ | false _ | null _ => trivial

end Grammar

def Inheritance.writable [Alphabet] : Inheritance :=
  ⟨fun t => t.lexeme.Valid,fun _ => True,Term.Writable,fun _ => True⟩

theorem Inheritance.writable_closed [Alphabet] (e : Ending) : writable.Closed e where
  ending _ := trivial
  refused _ _ := trivial
  misplaced _ _ := trivial
  escape _ _ _ := trivial
  span _ _ := trivial
  cover _ _ := trivial
  term _ := trivial
  atom ht hl := hl.writable ht
  member ht hl := hl.writable ht
  var {t _} ht hn := by
    have hvalid : t.lexeme.Valid := ht
    rwa [hn] at hvalid
  unary ht _ := ht
  binary hl hr _ := ⟨hl,hr⟩
  call hf hargs _ := ⟨hf,Term.allWritable_iff.mpr hargs⟩
  index hc hk _ := ⟨hc,hk⟩
  slice hc hstart hstop hstep _ := ⟨hc,Term.boundWritable_iff.mpr hstart,
    Term.boundWritable_iff.mpr hstop,Term.boundWritable_iff.mpr hstep⟩
  list hitems _ := Term.allWritable_iff.mpr hitems

end Stencil
