import Stencil.Error
import Stencil.Proofs.Text.Spans

set_option autoImplicit false

namespace Stencil

namespace Text

def ended (ls : List (List Char)) : List Char := ls.flatMap (· ++ ['\n'])

@[simp] theorem ended_cons (l : List Char) (ls : List (List Char)) :
    ended (l :: ls) = l ++ '\n' :: ended ls := by
  simp [ended]

theorem exists_ended (cs : List Char) : ∃ ls l, cs = ended ls ++ l ∧
    (∀ l' ∈ ls, '\n' ∉ l') ∧ '\n' ∉ l := by
  induction cs with
  | nil => exact ⟨[],[],rfl,nofun,nofun⟩
  | cons c r ih =>
    obtain ⟨ls,l,rfl,hls,hl⟩ := ih
    by_cases hc : c = '\n'
    · subst hc
      exact ⟨[] :: ls,l,rfl,List.forall_mem_cons.mpr ⟨nofun,hls⟩,hl⟩
    · cases ls with
      | nil => exact ⟨[],c :: l,rfl,nofun,by simp [Ne.symm hc,hl]⟩
      | cons l' ls =>
        rw [List.forall_mem_cons] at hls
        refine ⟨(c :: l') :: ls,l,by simp,List.forall_mem_cons.mpr ⟨?_,hls.2⟩,hl⟩
        simp [Ne.symm hc,hls.1]

theorem exists_line (cs : List Char) : ∃ l rest, cs = l ++ rest ∧ '\n' ∉ l ∧
    (rest = [] ∨ rest.head? = some '\n') := by
  induction cs with
  | nil => exact ⟨[],[],rfl,nofun,.inl rfl⟩
  | cons c r ih =>
    by_cases hc : c = '\n'
    · subst hc
      exact ⟨[],'\n' :: r,rfl,nofun,.inr rfl⟩
    · obtain ⟨l,rest,rfl,hl,hrest⟩ := ih
      exact ⟨c :: l,rest,rfl,by simp [Ne.symm hc,hl],hrest⟩

end Text

namespace Place
open Text

/-- The line of a place: the lines above it, what stands on it in front of the place and behind, and
what is left of the source. -/
structure Line (p : Place) where
  above : List (List Char)
  left : List Char
  right : List Char
  rest : List Char
  source_eq : p.source.toList = ended above ++ left ++ (right ++ rest)
  start_eq : byteSize (ended above ++ left) = p.span.start
  above_unbroken : ∀ l ∈ above, '\n' ∉ l
  left_unbroken : '\n' ∉ left
  right_unbroken : '\n' ∉ right
  rest_eq : rest = [] ∨ rest.head? = some '\n'

def IsBehindLastLine (p : Place) : Prop :=
  p.source.toList.getLast? = some '\n' ∧ p.span.start = p.source.utf8ByteSize

variable {p : Place}

theorem exists_line (h : IsBoundary p.source p.span.start) : Nonempty p.Line := by
  obtain ⟨cs,before,hsource,hstart⟩ := isBoundary_iff.mp h
  obtain ⟨above,left,rfl,habove,hleft⟩ := exists_ended before
  obtain ⟨right,rest,rfl,hright,hrest⟩ := Text.exists_line cs
  exact ⟨⟨above,left,right,rest,hsource,hstart,habove,hleft,hright,hrest⟩⟩

namespace Line

variable (l : p.Line)

def number : Nat := l.above.length + 1

def text : List Char := l.left ++ l.right

theorem stands : Stands p.source p.span.start (l.right ++ l.rest) :=
  ⟨ended l.above ++ l.left,l.source_eq,l.start_eq⟩

theorem above_eq_nil (h : ¬p.IsBehindLastLine) (htext : l.text = []) (hrest : l.rest = []) :
    l.above = [] := by
  obtain ⟨hleft,hright⟩ := List.append_eq_nil_iff.mp htext
  have hsource : p.source.toList = ended l.above := by simp [l.source_eq,hleft,hright,hrest]
  by_contra hne
  obtain ⟨above,last,hlast⟩ := l.above.eq_nil_or_concat.resolve_left hne
  refine h ⟨?_,?_⟩
  · simp [hsource,hlast,ended]
  · rw [← l.start_eq,hleft,List.append_nil,← hsource,byteSize_eq,String.utf8Len_toList]

end Line

end Place

namespace Excerpt
open Text Display

variable {l rest : List Char}

theorem lines_append (h : '\n' ∉ l) (rest : List Char) : lines (l ++ '\n' :: rest) = l :: lines rest := by
  induction l with
  | nil => simp [lines]
  | cons c l ih =>
    obtain ⟨hc,hl⟩ := List.ne_and_not_mem_of_not_mem_cons h
    simp [lines,Ne.symm hc,ih hl]

theorem lines_of_unbroken (h : '\n' ∉ l) (hne : l ≠ []) : lines l = [l] := by
  induction l with
  | nil => exact absurd rfl hne
  | cons c l ih =>
    obtain ⟨hc,hl⟩ := List.ne_and_not_mem_of_not_mem_cons h
    by_cases hnil : l = []
    · simp [hnil,lines,Ne.symm hc]
    · simp [lines,Ne.symm hc,ih hl hnil]

theorem lines_ended {ls : List (List Char)} (h : ∀ l ∈ ls, '\n' ∉ l) (cs : List Char) :
    lines (ended ls ++ cs) = ls ++ lines cs := by
  induction ls with
  | nil => rfl
  | cons l ls ih =>
    obtain ⟨hl,hls⟩ := List.forall_mem_cons.mp h
    rw [ended_cons,List.append_assoc,List.cons_append,lines_append hl,ih hls]
    rfl

theorem lines_first (h : '\n' ∉ l) (hrest : rest = [] ∨ rest.head? = some '\n')
    (hne : l ≠ [] ∨ rest ≠ []) : ∃ ls, lines (l ++ rest) = l :: ls := by
  cases rest with
  | nil =>
    have hl : l ≠ [] := hne.resolve_right fun h => h rfl
    exact ⟨[],by rw [List.append_nil,lines_of_unbroken h hl]⟩
  | cons c rest =>
    obtain rfl : c = '\n' := by simpa using hrest
    exact ⟨lines rest,lines_append h rest⟩

variable [Display]

theorem position_of_le {offset : Nat} (ls : List (List Char)) (h : offset ≤ byteSize l) :
    position (l :: ls) offset = (0,((upTo? l offset).map width).getD 0) := by
  cases ls with
  | nil => exact if_pos h
  | cons => exact if_pos h

theorem position_of_lt {offset : Nat} {ls : List (List Char)} (hls : ls ≠ [])
    (h : byteSize l < offset) : position (l :: ls) offset =
      ((position ls (offset - (byteSize l + 1))).1 + 1,
        (position ls (offset - (byteSize l + 1))).2) := by
  cases ls with
  | nil => exact absurd rfl hls
  | cons => exact if_neg (Nat.not_le.mpr h)

theorem position_ended (above : List (List Char)) {ls : List (List Char)} (hls : ls ≠ [])
    (offset : Nat) : position (above ++ ls) (byteSize (ended above) + offset) =
      ((position ls offset).1 + above.length,(position ls offset).2) := by
  induction above with
  | nil => simp [ended,byteSize]
  | cons a above ih =>
    have hne : above ++ ls ≠ [] := List.append_ne_nil_of_right_ne_nil _ hls
    have hsize : byteSize (ended (a :: above)) = byteSize a + 1 + byteSize (ended above) := by
      rw [ended_cons,byteSize_append,byteSize,Nat.add_assoc]
      rfl
    have hbehind : byteSize a < byteSize (ended (a :: above)) + offset := by omega
    have hleft : byteSize (ended (a :: above)) + offset - (byteSize a + 1) =
        byteSize (ended above) + offset := by omega
    rw [List.cons_append,position_of_lt hne hbehind,hleft,ih]
    rfl

theorem position_first (left right : List Char) (ls : List (List Char)) :
    position ((left ++ right) :: ls) (byteSize left) = (0,width left) := by
  have hleft : upTo? (left ++ right) (byteSize left) = some left := by
    rw [upTo?,splitAtByte?_byteSize]
    rfl
  rw [position_of_le ls (by simp),hleft]
  rfl

/-- The line of a place and the columns in front of the place, as the lines of the source tell. -/
theorem position_eq {p : Place} (l : p.Line) (h : ¬p.IsBehindLastLine) :
    position (lines p.source.toList) p.span.start = (l.above.length,width l.left) ∧
      ((lines p.source.toList)[l.above.length]?).getD [] = l.text := by
  have hlines : lines p.source.toList = l.above ++ lines (l.text ++ l.rest) := by
    rw [l.source_eq,List.append_assoc,lines_ended l.above_unbroken,← List.append_assoc]
    rfl
  have hstart : p.span.start = byteSize (ended l.above) + byteSize l.left := by
    rw [← l.start_eq,byteSize_append]
  have hunbroken : '\n' ∉ l.text := by simp [Place.Line.text,l.left_unbroken,l.right_unbroken]
  by_cases hnil : l.text = [] ∧ l.rest = []
  · obtain ⟨htext,hrest⟩ := hnil
    obtain ⟨hleft,_⟩ := List.append_eq_nil_iff.mp htext
    have habove := l.above_eq_nil h htext hrest
    rw [hlines,hstart,habove,htext,hrest,hleft,width_nil]
    exact ⟨rfl,rfl⟩
  · obtain ⟨ls,hfirst⟩ := lines_first hunbroken l.rest_eq (by tauto)
    rw [hlines,hstart,hfirst,position_ended l.above (List.cons_ne_nil _ _),Place.Line.text,position_first]
    simp

end Excerpt

end Stencil
