import Stencil.Scope

set_option autoImplicit false

namespace Stencil

structure Frame.Binds (P : Value → Prop) (f : Frame) : Prop where
  sorted : Table.Sorted f
  values : ∀ b ∈ f, P b.2

namespace Frame

variable {P : Value → Prop}

theorem binds_nil : Frame.Binds P [] := ⟨.nil,by simp⟩

theorem Binds.insert {f : Frame} {x : String} {v : Value} (hf : f.Binds P) (hv : P v) :
    Frame.Binds P (Table.insert x v f) := by
  refine ⟨Table.sorted_insert hf.sorted x v,fun b hb => ?_⟩
  obtain rfl | hb := Table.mem_insert hb
  · exact hv
  · exact hf.values b hb

end Frame

namespace Scope

variable {P : Frame → Prop} {s s' : Scope} {f : Frame} {x y : String} {v : Value}

theorem get?_push (s : Scope) (f : Frame) (x : String) :
    (s.push f).get? x = (Table.get? f x).or (s.get? x) := by
  show List.findSome? _ (f :: s.frames) = _
  rw [List.findSome?_cons]
  cases Table.get? f x <;> rfl

theorem get?_eq_none_iff : s.get? x = none ↔ ∀ f ∈ s.frames, Table.contains f x = false := by
  simp [get?,Table.contains,List.findSome?_eq_none_iff]

/-- The second scope has the frame `f` of the first one with the name bound to the value, and its
other frames. No frame inside `f` binds the name. -/
structure Rebinds (x : String) (v : Value) (s s' : Scope) (inner : List Frame) (f : Frame)
    (outer : List Frame) : Prop where
  before : s.frames = inner ++ f :: outer
  after : s'.frames = inner ++ Table.insert x v f :: outer
  hidden : ∀ g ∈ inner, Table.contains g x = false

section

variable {inner outer : List Frame}

theorem Rebinds.get?_self (h : Rebinds x v s s' inner f outer) : s'.get? x = some v := by
  have hinner : inner.findSome? (fun g => Table.get? g x) = none := by
    simpa [Table.contains] using h.hidden
  unfold get?
  rw [h.after,List.findSome?_append,hinner,List.findSome?_cons,Table.get?_insert_self]
  rfl

theorem Rebinds.get?_of_ne (h : Rebinds x v s s' inner f outer) (hne : y ≠ x) :
    s'.get? y = s.get? y := by
  unfold get?
  rw [h.after,h.before,List.findSome?_append,List.findSome?_append,List.findSome?_cons,
    List.findSome?_cons,Table.get?_insert_of_ne hne]

theorem Rebinds.forall_frames (h : Rebinds x v s s' inner f outer)
    (hinsert : ∀ g, P g → P (Table.insert x v g)) (hs : ∀ g ∈ s.frames, P g) :
    ∀ g ∈ s'.frames, P g := by
  rw [h.before,List.forall_mem_append,List.forall_mem_cons] at hs
  rw [h.after,List.forall_mem_append,List.forall_mem_cons]
  exact ⟨hs.1,hinsert f hs.2.1,hs.2.2⟩

end

theorem rebinds_define (s : Scope) (x : String) (v : Value) :
    Rebinds x v s (s.define x v) [] s.innermost s.outer :=
  ⟨rfl,rfl,by simp⟩

theorem rebind?_cases (x : String) (v : Value) (fs : List Frame) :
    (rebind? x v fs = none ∧ ∀ f ∈ fs, Table.contains f x = false) ∨
    ∃ inner f outer, fs = inner ++ f :: outer ∧
      rebind? x v fs = some (inner ++ Table.insert x v f :: outer) ∧
      (∀ g ∈ inner, Table.contains g x = false) ∧ Table.contains f x = true := by
  induction fs with
  | nil => exact .inl ⟨rfl,by simp⟩
  | cons f fs ih =>
    cases hf : Table.contains f x with
    | true => exact .inr ⟨[],f,fs,rfl,by simp [rebind?,hf],by simp,hf⟩
    | false =>
      obtain ⟨hnone,hfs⟩ | ⟨inner,g,outer,rfl,hsome,hinner,hg⟩ := ih
      · exact .inl ⟨by simp [rebind?,hf,hnone],List.forall_mem_cons.mpr ⟨hf,hfs⟩⟩
      · exact .inr ⟨f :: inner,g,outer,rfl,by simp [rebind?,hf,hsome],
          List.forall_mem_cons.mpr ⟨hf,hinner⟩,hg⟩

theorem rebinds_assign (s : Scope) (x : String) (v : Value) :
    ∃ inner f outer, Rebinds x v s (s.assign x v) inner f outer ∧
      (Table.contains f x = true ∨ inner = [] ∧ s.contains x = false) := by
  have hdefine := rebinds_define s x v
  unfold assign
  cases hinner : Table.contains s.innermost x with
  | true => exact ⟨_,_,_,hdefine,.inl hinner⟩
  | false =>
    simp only [Bool.false_eq_true,if_false]
    obtain ⟨hnone,houter⟩ | ⟨inner,f,outer,hfs,hsome,hhidden,hf⟩ := rebind?_cases x v s.outer
    · have hframes : ∀ f ∈ s.frames, Table.contains f x = false :=
        List.forall_mem_cons.mpr ⟨hinner,houter⟩
      rw [hnone]
      refine ⟨_,_,_,hdefine,.inr ⟨rfl,?_⟩⟩
      rw [contains,get?_eq_none_iff.mpr hframes]
      rfl
    · rw [hsome]
      refine ⟨s.innermost :: inner,f,outer,⟨?_,rfl,?_⟩,.inl hf⟩
      · simp [frames,hfs]
      · exact List.forall_mem_cons.mpr ⟨hinner,hhidden⟩

section

variable (hs : ∀ g ∈ s.frames, P g)

include hs

theorem forall_push (hf : P f) : ∀ g ∈ (s.push f).frames, P g :=
  List.forall_mem_cons.mpr ⟨hf,hs⟩

theorem forall_pop : ∀ g ∈ s.pop.frames, P g := by
  unfold pop
  split
  · exact hs
  · rename_i g gs houter
    rw [frames,houter] at hs
    exact (List.forall_mem_cons.mp hs).2

theorem forall_define (hinsert : ∀ g, P g → P (Table.insert x v g)) :
    ∀ g ∈ (s.define x v).frames, P g :=
  (rebinds_define s x v).forall_frames hinsert hs

theorem forall_assign (hinsert : ∀ g, P g → P (Table.insert x v g)) :
    ∀ g ∈ (s.assign x v).frames, P g := by
  obtain ⟨_,_,_,hrebinds,_⟩ := rebinds_assign s x v
  exact hrebinds.forall_frames hinsert hs

end

theorem pop_push (s : Scope) (f : Frame) : (s.push f).pop = s ∧ (s.push f).popped? = some f :=
  ⟨rfl,rfl⟩

end Scope

end Stencil
