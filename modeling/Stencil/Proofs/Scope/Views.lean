import Stencil.Proofs.Scope.Frames

set_option autoImplicit false

namespace Stencil.Scope

/-- The scopes that changes lead to from the one with only a root frame. -/
inductive Reached (globals : Frame) : Scope → Prop
  | root : Reached globals (root globals)
  | assign {s} (x : String) (v : Value) : Reached globals s → Reached globals (s.assign x v)
  | define {s} (x : String) (v : Value) : Reached globals s → Reached globals (s.define x v)
  | push {s f} : Reached globals s → Table.Sorted f → Reached globals (s.push f)
  | pop {s} : Reached globals s → Reached globals s.pop

def Sorted (s : Scope) : Prop := ∀ f ∈ s.frames, Table.Sorted f

variable {s : Scope}

theorem Reached.sorted {globals : Frame} (hglobals : Table.Sorted globals)
    (h : Reached globals s) : s.Sorted := by
  have hinsert (x : String) (v : Value) (f : Frame) (hf : Table.Sorted f) :
      Table.Sorted (Table.insert x v f) := Table.sorted_insert hf x v
  induction h with
  | root => simpa [Sorted,frames,Scope.root] using hglobals
  | assign x v _ ih => exact forall_assign ih (hinsert x v)
  | define x v _ ih => exact forall_define ih (hinsert x v)
  | push _ hf ih => exact forall_push ih hf
  | pop _ ih => exact forall_pop ih

theorem sorted_collect (s : Scope) : Table.Sorted s.collect := by
  unfold collect
  induction s.frames with
  | nil => exact .nil
  | cons f fs ih => exact Table.sorted_merge ih f

/-- What is found first from the inside is what is put in last from the outside. -/
theorem Sorted.get?_collect (hs : s.Sorted) (x : String) :
    Table.get? s.collect x = s.get? x := by
  unfold Sorted at hs
  unfold collect get?
  generalize s.frames = fs at hs ⊢
  induction fs with
  | nil => rfl
  | cons f fs ih =>
    obtain ⟨hf,hfs⟩ := List.forall_mem_cons.mp hs
    rw [List.foldr_cons,Table.get?_merge hf,ih hfs,List.findSome?_cons]
    cases Table.get? f x <;> rfl

/-- A name stands for the same in every view: it is bound to a value if that is its entry among all
bindings in sight, and it is undefined if it has no entry there. -/
structure Views (s : Scope) : Prop where
  frames : s.frames ≠ []
  get : ∀ x, s.get? x = Table.get? s.collect x
  entry : ∀ x v, s.get? x = some v ↔ (x,v) ∈ s.collect
  contains : ∀ x, s.contains x = true ↔ ∃ v, (x,v) ∈ s.collect
  lookup : ∀ x v, s.lookup x = .ok v ↔ (x,v) ∈ s.collect
  undefined : ∀ x, (∀ v, (x,v) ∉ s.collect) → s.lookup x = .error (.undefinedName x)

theorem lookup_eq_ok_iff (x : String) (v : Value) : s.lookup x = .ok v ↔ s.get? x = some v := by
  unfold lookup
  cases s.get? x <;> simp

theorem Sorted.views (hs : s.Sorted) : s.Views := by
  have hentry (x : String) (v : Value) : s.get? x = some v ↔ (x,v) ∈ s.collect := by
    rw [← hs.get?_collect,Table.get?_eq_some_iff s.sorted_collect]
  refine ⟨List.cons_ne_nil _ _,fun x => (hs.get?_collect x).symm,hentry,fun x => ?_,
    fun x v => (lookup_eq_ok_iff x v).trans (hentry x v),fun x hx => ?_⟩
  · rw [contains,Option.isSome_iff_exists]
    exact exists_congr (hentry x)
  · have hnone : s.get? x = none :=
      Option.eq_none_iff_forall_ne_some.mpr fun v hv => hx v ((hentry x v).mp hv)
    rw [lookup,hnone]

end Stencil.Scope
