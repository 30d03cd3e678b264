import Mathlib.Data.String.Basic
import Stencil.Text.Span

set_option autoImplicit false

namespace Stencil

namespace Text

theorem byteSize_eq (cs : List Char) : byteSize cs = String.utf8Len cs := by
  induction cs with
  | nil => rfl
  | cons c r ih => rw [byteSize,ih,String.utf8Len_cons,Nat.add_comm]

@[simp] theorem byteSize_append (cs ds : List Char) :
    byteSize (cs ++ ds) = byteSize cs + byteSize ds := by
  simp [byteSize_eq]

theorem byteSize_pos {cs : List Char} (h : cs ≠ []) : 0 < byteSize cs := by
  rw [byteSize_eq]
  exact Nat.pos_of_ne_zero (mt String.utf8Len_eq_zero.mp h)

theorem splitAtByte?_byteSize (before after : List Char) :
    splitAtByte? (byteSize before) (before ++ after) = some (before,after) := by
  induction before with
  | nil => simp [byteSize,splitAtByte?]
  | cons c r ih =>
    have hpos := c.utf8Size_pos
    obtain ⟨n,hn⟩ := Nat.exists_eq_add_of_lt hpos
    have hsize : byteSize (c :: r) = (n + byteSize r) + 1 := by
      simp only [byteSize]
      omega
    have hleft : n + byteSize r + 1 - c.utf8Size = byteSize r := by omega
    rw [hsize,List.cons_append,splitAtByte?,if_neg (by omega),hleft,ih]
    rfl

theorem append_of_splitAtByte? {n : Nat} {cs before after : List Char}
    (h : splitAtByte? n cs = some (before,after)) : cs = before ++ after ∧ byteSize before = n := by
  fun_induction splitAtByte? n cs generalizing before with
  | case1 => simp_all [byteSize]
  | case2 | case3 => cases h
  | case4 n c r hle ih =>
    obtain ⟨⟨front,behind⟩,hsplit,hcons⟩ := Option.map_eq_some_iff.mp h
    obtain ⟨rfl,rfl⟩ := Prod.mk.inj hcons
    obtain ⟨rfl,hsize⟩ := ih hsplit
    refine ⟨rfl,?_⟩
    simp only [byteSize]
    omega

/-- The characters stand in the source from the byte `start` up to its end. -/
def Stands (source : String) (start : Nat) (cs : List Char) : Prop :=
  ∃ before, source.toList = before ++ cs ∧ byteSize before = start

abbrev IsBoundary (source : String) (n : Nat) : Prop := String.Pos.Raw.IsValid source ⟨n⟩

theorem isBoundary_iff {source : String} {n : Nat} :
    IsBoundary source n ↔ ∃ cs, Stands source n cs := by
  refine String.Pos.Raw.isValid_iff_exists_append.trans ⟨?_,?_⟩
  · rintro ⟨s,t,rfl,hn⟩
    refine ⟨t.toList,s.toList,by simp,?_⟩
    rw [byteSize_eq,String.utf8Len_toList]
    exact (congrArg String.Pos.Raw.byteIdx hn).symm
  · rintro ⟨cs,before,hsource,hn⟩
    refine ⟨String.ofList before,String.ofList cs,?_,?_⟩
    · rw [← String.ofList_append,← hsource,String.ofList_toList]
    · rw [← hn,byteSize_eq,String.rawEndPos_ofList]

variable {source : String} {start n : Nat} {cs ds : List Char}

theorem stands_toList (source : String) : Stands source 0 source.toList := ⟨[],rfl,rfl⟩

theorem Stands.append (h : Stands source start (cs ++ ds)) :
    Stands source (start + byteSize cs) ds := by
  obtain ⟨before,hsource,rfl⟩ := h
  exact ⟨before ++ cs,by simp [hsource],by simp⟩

theorem Stands.utf8ByteSize (h : Stands source start cs) :
    start + byteSize cs = source.utf8ByteSize := by
  obtain ⟨before,hsource,rfl⟩ := h
  rw [← String.utf8Len_toList,hsource,← byteSize_eq,byteSize_append]

theorem Stands.exists_suffix {inner : List Char} (h : Stands source start (cs ++ ds))
    (hinner : Stands source n inner) (hle : start ≤ n) (hlt : n < start + byteSize cs) :
    ∃ before after, cs = before ++ after ∧ after ≠ [] ∧ inner = after ++ ds := by
  obtain ⟨front,hsource,rfl⟩ := h
  obtain ⟨front',hsource',rfl⟩ := hinner
  obtain ⟨before,rfl,hbehind⟩ | ⟨before,rfl,hbehind⟩ :=
    List.append_eq_append_iff.mp (hsource.symm.trans hsource')
  · rw [byteSize_append] at hlt
    obtain ⟨after,rfl,hafter⟩ | ⟨after,rfl,rfl⟩ := List.append_eq_append_iff.mp hbehind
    · rw [byteSize_append] at hlt
      omega
    · refine ⟨before,after,rfl,?_,rfl⟩
      rintro rfl
      simp at hlt
  · rw [byteSize_append] at hle
    obtain rfl : before = [] := by
      by_contra hne
      have hpos := byteSize_pos hne
      omega
    refine ⟨[],cs,rfl,?_,by simpa using hbehind⟩
    rintro rfl
    simp [byteSize] at hlt

theorem Stands.slice? (h : Stands source start (cs ++ ds)) :
    slice? source.toList ⟨start,start + byteSize cs⟩ = some cs := by
  obtain ⟨before,hsource,rfl⟩ := h
  rw [Text.slice?,if_pos (Nat.le_add_right _ _),hsource,splitAtByte?_byteSize]
  simp [upTo?,splitAtByte?_byteSize]

theorem stands_of_slice? {s : Span} (h : slice? source.toList s = some cs) :
    ∃ rest, Stands source s.start (cs ++ rest) := by
  unfold slice? at h
  split at h
  · split at h
    · rename_i before rest hsplit
      obtain ⟨⟨_,behind⟩,hupTo,rfl⟩ := Option.map_eq_some_iff.mp h
      obtain ⟨hsource,hstart⟩ := append_of_splitAtByte? hsplit
      obtain ⟨rfl,_⟩ := append_of_splitAtByte? hupTo
      exact ⟨behind,before,hsource,hstart⟩
    · cases h
  · cases h

theorem Stands.unique (h : Stands source start cs) (h' : Stands source start ds) : cs = ds := by
  obtain ⟨before,hsource,rfl⟩ := h
  obtain ⟨before',hsource',hstart⟩ := h'
  have hsplit := splitAtByte?_byteSize before' ds
  rw [hstart,← hsource',hsource,splitAtByte?_byteSize] at hsplit
  exact congrArg Prod.snd (Option.some.inj hsplit)

theorem Stands.isBoundary (h : Stands source start cs) : IsBoundary source start :=
  isBoundary_iff.mpr ⟨cs,h⟩

theorem isBoundary_utf8ByteSize (source : String) : IsBoundary source source.utf8ByteSize :=
  isBoundary_iff.mpr ⟨[],source.toList,by simp,by rw [byteSize_eq,String.utf8Len_toList]⟩

theorem le_of_isBoundary (h : IsBoundary source n) : n ≤ source.utf8ByteSize := h.le_rawEndPos

/-- In front of a boundary no character is missing and none is split. -/
theorem upTo?_of_isBoundary (h : IsBoundary source n) :
    ∃ before after, source.toList = before ++ after ∧ upTo? source.toList n = some before := by
  obtain ⟨after,before,hsource,rfl⟩ := isBoundary_iff.mp h
  refine ⟨before,after,hsource,?_⟩
  rw [upTo?,hsource,splitAtByte?_byteSize]
  rfl

end Text

namespace Span
open Text

structure Within (source : String) (s : Span) : Prop where
  le : s.start ≤ s.stop
  start : IsBoundary source s.start
  stop : IsBoundary source s.stop

structure Proper (source : String) (s : Span) : Prop extends s.Within source where
  lt : s.start < s.stop

variable {source : String} {start : Nat} {cs ds : List Char} {a b : Span}

theorem Within.cover (ha : a.Within source) (hb : b.Within source) :
    (a.cover b).Within source := by
  obtain ⟨hle,hstart,hstop⟩ := ha
  obtain ⟨hle',hstart',hstop'⟩ := hb
  refine ⟨?_,?_,?_⟩
  · simp only [Span.cover]
    omega
  · simp only [Span.cover,Nat.min_def]
    split <;> assumption
  · simp only [Span.cover,Nat.max_def]
    split <;> assumption

theorem Proper.cover (ha : a.Proper source) (hb : b.Within source) :
    (a.cover b).Proper source := by
  refine ⟨ha.toWithin.cover hb,?_⟩
  have hlt := ha.lt
  simp only [Span.cover]
  omega

theorem within_of_stands (h : Stands source start (cs ++ ds)) :
    Within source ⟨start,start + byteSize cs⟩ :=
  ⟨Nat.le_add_right _ _,h.isBoundary,h.append.isBoundary⟩

theorem proper_of_stands (h : Stands source start (cs ++ ds)) (hcs : cs ≠ []) :
    Proper source ⟨start,start + byteSize cs⟩ :=
  ⟨within_of_stands h,Nat.lt_add_of_pos_right (byteSize_pos hcs)⟩

theorem Proper.exists_text (h : a.Proper source) : ∃ text rest, text ≠ [] ∧
    Stands source a.start (text ++ rest) ∧ a.stop = a.start + byteSize text := by
  obtain ⟨after,before,hsource,hstart⟩ := isBoundary_iff.mp h.start
  obtain ⟨after',before',hsource',hstop⟩ := isBoundary_iff.mp h.stop
  have hlt := h.lt
  obtain ⟨text,rfl,hafter⟩ | ⟨text,rfl,_⟩ :=
    List.append_eq_append_iff.mp (hsource.symm.trans hsource')
  · rw [byteSize_append,hstart] at hstop
    refine ⟨text,after',?_,⟨before,by rw [hsource,hafter],hstart⟩,hstop.symm⟩
    rintro rfl
    simp only [byteSize] at hstop
    omega
  · rw [byteSize_append] at hstart
    omega

theorem Proper.slice? (h : a.Proper source) :
    ∃ text, Text.slice? source.toList a = some text ∧ text ≠ [] := by
  obtain ⟨text,rest,hne,hstands,hstop⟩ := h.exists_text
  exact ⟨text,by rw [← hstands.slice?,← hstop],hne⟩

end Span

end Stencil
