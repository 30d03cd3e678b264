import Stencil.Proofs.Text.Spans
import Stencil.Text.Html

set_option autoImplicit false

namespace Stencil.Text

def entities : List (List Char) := ["amp;".toList,"lt;".toList,"gt;".toList]

/-- No angle bracket is in the text, and every ampersand starts an entity for one of the three. -/
structure IsEscaped (cs : List Char) : Prop where
  less : '<' ∉ cs
  greater : '>' ∉ cs
  ampersand : ∀ before after, cs = before ++ '&' :: after → ∃ name ∈ entities, name <+: after

def IsInert (cs : List Char) : Prop := ∀ c ∈ cs, c ≠ '&' ∧ c ≠ '<' ∧ c ≠ '>'

theorem IsInert.append {cs ds : List Char} (hc : IsInert cs) (hd : IsInert ds) :
    IsInert (cs ++ ds) :=
  List.forall_mem_append.mpr ⟨hc,hd⟩

theorem IsInert.isEscaped {cs : List Char} (h : IsInert cs) : IsEscaped cs := by
  refine ⟨fun hc => (h _ hc).2.1 rfl,fun hc => (h _ hc).2.2 rfl,fun before after hcs => ?_⟩
  exact absurd rfl (h '&' (by simp [hcs])).1

theorem htmlChar_eq_self {c : Char} : htmlChar c = [c] ↔ c ≠ '&' ∧ c ≠ '<' ∧ c ≠ '>' := by
  unfold htmlChar
  split
  · simp [*]
  · split
    · simp [*]
    · split <;> simp [*]

theorem IsInert.flatMap_htmlChar {cs : List Char} (h : IsInert cs) : cs.flatMap htmlChar = cs := by
  induction cs with
  | nil => rfl
  | cons c cs ih =>
    obtain ⟨hc,hcs⟩ := List.forall_mem_cons.mp h
    rw [List.flatMap_cons,htmlChar_eq_self.mpr hc,ih hcs]
    rfl

theorem IsEscaped.append {cs ds : List Char} (hc : IsEscaped cs) (hd : IsEscaped ds) :
    IsEscaped (cs ++ ds) := by
  refine ⟨by simp [hc.less,hd.less],by simp [hc.greater,hd.greater],fun before after h => ?_⟩
  obtain ⟨front,rfl,hds⟩ | ⟨back,hcs,hback⟩ := List.append_eq_append_iff.mp h
  · exact hd.ampersand front after hds
  · cases back with
    | nil => exact hd.ampersand [] after hback.symm
    | cons c back =>
      obtain ⟨rfl,rfl⟩ := List.cons.inj hback
      obtain ⟨name,hname,hbehind⟩ := hc.ampersand before back hcs
      exact ⟨name,hname,hbehind.trans (List.prefix_append back ds)⟩

theorem isEscaped_entity {name : List Char} (hname : name ∈ entities) :
    IsEscaped ('&' :: name) := by
  have hplain : ∀ c ∈ name, c ≠ '&' ∧ c ≠ '<' ∧ c ≠ '>' := by
    simp only [entities,List.mem_cons,List.not_mem_nil,or_false] at hname
    obtain rfl | rfl | rfl := hname <;> simp
  have hless := fun hc => (hplain '<' hc).2.1 rfl
  have hgreater := fun hc => (hplain '>' hc).2.2 rfl
  refine ⟨by simpa using hless,by simpa using hgreater,fun before after h => ?_⟩
  cases before with
  | nil =>
    cases h
    exact ⟨name,hname,List.prefix_rfl⟩
  | cons c before =>
    obtain ⟨_,rfl⟩ := List.cons.inj h
    exact absurd rfl (hplain '&' (by simp)).1

theorem isEscaped_htmlChar (c : Char) : IsEscaped (htmlChar c) := by
  unfold htmlChar
  split
  · exact isEscaped_entity (by simp [entities] : "amp;".toList ∈ entities)
  · split
    · exact isEscaped_entity (by simp [entities] : "lt;".toList ∈ entities)
    · split
      · exact isEscaped_entity (by simp [entities] : "gt;".toList ∈ entities)
      · rename_i hamp hless hgreater
        refine IsInert.isEscaped fun d hd => ?_
        obtain rfl := List.mem_singleton.mp hd
        exact ⟨hamp,hless,hgreater⟩

theorem isEscaped_escapeHtml (s : String) : IsEscaped (escapeHtml s).toList := by
  simp only [escapeHtml,String.toList_ofList]
  induction s.toList with
  | nil => exact IsInert.isEscaped (by simp [IsInert])
  | cons c cs ih => exact (isEscaped_htmlChar c).append ih

/-- The text in which the three entities stand for their characters. -/
def readHtml : List Char → List Char
  | '&' :: 'a' :: 'm' :: 'p' :: ';' :: r => '&' :: readHtml r
  | '&' :: 'l' :: 't' :: ';' :: r => '<' :: readHtml r
  | '&' :: 'g' :: 't' :: ';' :: r => '>' :: readHtml r
  | c :: r => c :: readHtml r
  | [] => []

theorem readHtml_cons {c : Char} (h : c ≠ '&') (r : List Char) :
    readHtml (c :: r) = c :: readHtml r := by
  rw [readHtml]
  all_goals
    rintro _ rfl
    exact absurd rfl h

theorem readHtml_htmlChar (c : Char) (r : List Char) :
    readHtml (htmlChar c ++ r) = c :: readHtml r := by
  by_cases h₁ : c = '&'
  · subst h₁
    simp [htmlChar,readHtml]
  by_cases h₂ : c = '<'
  · subst h₂
    simp [htmlChar,readHtml]
  by_cases h₃ : c = '>'
  · subst h₃
    simp [htmlChar,readHtml]
  · rw [htmlChar_eq_self.mpr ⟨h₁,h₂,h₃⟩]
    exact readHtml_cons h₁ r

theorem readHtml_flatMap (cs : List Char) : readHtml (cs.flatMap htmlChar) = cs := by
  induction cs with
  | nil => rfl
  | cons c cs ih => rw [List.flatMap_cons,readHtml_htmlChar,ih]

/-- The pieces as they are cut from the source: `rest` starts at the byte `i`, and what stands in
front of the byte `last` is written. No pieces come out where a cut goes through a character. -/
def htmlCuts (source : String) (last i : Nat) : (rest : List Char) → Option (List String)
  | [] => (slice? source.toList ⟨last,source.utf8ByteSize⟩).map fun run => [String.ofList run]
  | c :: r =>
    if htmlChar c = [c] then htmlCuts source last (i + c.utf8Size) r
    else do
      let run ← slice? source.toList ⟨last,i⟩
      let pieces ← htmlCuts source (i + 1) (i + c.utf8Size) r
      return String.ofList run :: String.ofList (htmlChar c) :: pieces

theorem utf8Size_of_htmlChar_ne {c : Char} (h : htmlChar c ≠ [c]) : c.utf8Size = 1 := by
  have hcases : c = '&' ∨ c = '<' ∨ c = '>' := by
    by_contra hother
    simp only [not_or] at hother
    exact h (htmlChar_eq_self.mpr hother)
  obtain rfl | rfl | rfl := hcases <;> rfl

/-- By induction on the rest: what has been read since the last cut stands between it and the
rest. -/
theorem htmlCuts_of_stands {source : String} {last : Nat} {run rest : List Char}
    (h : Stands source last (run.reverse ++ rest)) :
    htmlCuts source last (last + byteSize run.reverse) rest = some (htmlPieces run rest) := by
  induction rest generalizing last run with
  | nil =>
    rw [htmlCuts,htmlPieces,← h.utf8ByteSize,List.append_nil,h.slice?]
    rfl
  | cons c r ih =>
    rw [htmlCuts,htmlPieces]
    split
    · have hmore : Stands source last ((c :: run).reverse ++ r) := by simpa using h
      have hsize : last + byteSize (c :: run).reverse =
          last + byteSize run.reverse + c.utf8Size := by
        simp [byteSize,Nat.add_assoc]
      rw [← hsize]
      exact ih hmore
    · rename_i hc
      have hone := utf8Size_of_htmlChar_ne hc
      have hbehind : Stands source (last + byteSize run.reverse + 1) ([].reverse ++ r) := by
        have hrest : Stands source (last + byteSize run.reverse) ([c] ++ r) := h.append
        simpa [byteSize,hone] using hrest.append
      have hpieces := ih hbehind
      rw [List.reverse_nil,byteSize,Nat.add_zero] at hpieces
      rw [hone,hpieces,h.slice?]
      rfl

/-- Every cut lies between two characters, and the cuts are the pieces. -/
theorem htmlCuts_eq (source : String) :
    htmlCuts source 0 0 source.toList = some (htmlPieces [] source.toList) := by
  have h : Stands source 0 ([].reverse ++ source.toList) := stands_toList source
  exact htmlCuts_of_stands h

end Stencil.Text
