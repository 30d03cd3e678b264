import Mathlib.Data.List.Forall2
import Stencil.Proofs.Scope.Frames
import Stencil.Render

set_option autoImplicit false

namespace Stencil

mutual

def Node.targets : Node → List String
  | .assign n _ _ => [n.value]
  | .branch _ _ body rest => Node.listTargets body ++ rest.targets
  | .loop _ _ _ body rest => Node.listTargets body ++ rest.targets
  | .text .. | .echo .. | .define .. | .embed .. | .insert .. => []

def Node.listTargets : List Node → List String
  | [] => []
  | n :: ns => n.targets ++ Node.listTargets ns

def Alternatives.targets : Alternatives → List String
  | .elif _ _ body rest => Node.listTargets body ++ rest.targets
  | .last tail => tail.targets

def Tail.targets : Tail → List String
  | .otherwise _ body _ => Node.listTargets body
  | .close _ => []

end

def Node.isControl : Node → Bool
  | .branch .. | .loop .. | .embed .. => true
  | _ => false

section

variable {R : Frame → Frame → Prop} {fs gs hs : List Frame}

theorem Frame.forall₂_trans (htrans : ∀ {f g h : Frame}, R f g → R g h → R f h)
    (hfg : List.Forall₂ R fs gs) (hgh : List.Forall₂ R gs hs) : List.Forall₂ R fs hs := by
  induction hfg generalizing hs with
  | nil => exact hgh
  | cons hf _ ih =>
    cases hgh with
    | cons hg hrest => exact .cons (htrans hf hg) (ih hrest)

theorem Scope.forall₂_rebind? {x : String} {v : Value} (hrefl : ∀ f, R f f)
    (hinsert : ∀ f, Table.contains f x = true → R f (Table.insert x v f))
    (h : Scope.rebind? x v fs = some gs) : List.Forall₂ R fs gs := by
  have hsame (fs : List Frame) : List.Forall₂ R fs fs := List.forall₂_same.mpr fun g _ => hrefl g
  obtain ⟨hnone,_⟩ | ⟨inner,f,outer,rfl,hsome,_,hf⟩ := rebind?_cases x v fs
  · rw [hnone] at h
    cases h
  · rw [hsome] at h
    cases h
    exact List.rel_append (hsame inner) (.cons (hinsert f hf) (hsame outer))

end

structure SameBindings (T : String → Prop) (f g : Frame) : Prop where
  names : ∀ x, Table.contains g x = Table.contains f x
  values : ∀ x, ¬T x → Table.get? g x = Table.get? f x

namespace SameBindings

variable {T : String → Prop} {f g h : Frame}

theorem refl (f : Frame) : SameBindings T f f := ⟨fun _ => rfl,fun _ _ => rfl⟩

theorem trans (hfg : SameBindings T f g) (hgh : SameBindings T g h) : SameBindings T f h :=
  ⟨fun x => (hgh.names x).trans (hfg.names x),
    fun x hx => (hgh.values x hx).trans (hfg.values x hx)⟩

theorem insert {x : String} {v : Value} (hx : T x) (hf : Table.contains f x = true) :
    SameBindings T f (Table.insert x v f) := by
  constructor
  · intro y
    by_cases hy : y = x
    · subst hy
      simp [Table.contains_insert,hf]
    · simp [Table.contains_insert,hy]
  · intro y hy
    have hne : y ≠ x := by
      rintro rfl
      exact hy hx
    exact Table.get?_insert_of_ne hne v f

theorem forall₂_refl (fs : List Frame) : List.Forall₂ (SameBindings T) fs fs :=
  List.forall₂_same.mpr fun f _ => refl f

theorem forall₂_trans {fs gs hs : List Frame} (hfg : List.Forall₂ (SameBindings T) fs gs)
    (hgh : List.Forall₂ (SameBindings T) gs hs) : List.Forall₂ (SameBindings T) fs hs :=
  Frame.forall₂_trans SameBindings.trans hfg hgh

theorem rebind? {x : String} {v : Value} (hx : T x) {fs gs : List Frame}
    (h : Scope.rebind? x v fs = some gs) : List.Forall₂ (SameBindings T) fs gs :=
  Scope.forall₂_rebind? refl (fun _ => insert hx) h

end SameBindings

namespace Rendering

variable {σ : Type} {T : String → Prop} {s s' s'' : Rendering σ}

/-- The frames are there as before, and the depth too. -/
structure Keeps (T : String → Prop) (s s' : Rendering σ) : Prop where
  depth : s'.depth = s.depth
  frames : List.Forall₂ (SameBindings T) s.scope.frames s'.scope.frames

/-- The frames are there as before, but for names that the innermost one binds now, and the depth
too. -/
structure Grows (T : String → Prop) (s s' : Rendering σ) : Prop where
  depth : s'.depth = s.depth
  innermost : ∀ x, Table.contains s.scope.innermost x = true →
    Table.contains s'.scope.innermost x = true
  outer : List.Forall₂ (SameBindings T) s.scope.outer s'.scope.outer

instance : Std.Refl (Keeps (σ := σ) T) := ⟨fun _ => ⟨rfl,SameBindings.forall₂_refl _⟩⟩

instance : Trans (Keeps (σ := σ) T) (Keeps T) (Keeps T) :=
  ⟨fun h h' => ⟨h'.depth.trans h.depth,SameBindings.forall₂_trans h.frames h'.frames⟩⟩

instance : Std.Refl (Grows (σ := σ) T) :=
  ⟨fun _ => ⟨rfl,fun _ h => h,SameBindings.forall₂_refl _⟩⟩

instance : Trans (Grows (σ := σ) T) (Grows T) (Grows T) :=
  ⟨fun h h' => ⟨h'.depth.trans h.depth,fun x hx => h'.innermost x (h.innermost x hx),
    SameBindings.forall₂_trans h.outer h'.outer⟩⟩

theorem Keeps.grows (h : Keeps T s s') : Grows T s s' := by
  obtain ⟨hdepth,hframes⟩ := h
  simp only [Scope.frames,List.forall₂_cons] at hframes
  exact ⟨hdepth,fun x hx => by rw [hframes.1.names,hx],hframes.2⟩

theorem Grows.define {x : String} {v : Value} :
    Grows T s { s with scope := s.scope.define x v } := by
  refine ⟨rfl,fun y hy => ?_,SameBindings.forall₂_refl _⟩
  simp [Scope.define,Table.contains_insert,hy]

theorem Grows.assign {x : String} {v : Value} (hx : T x) :
    Grows T s { s with scope := s.scope.assign x v } := by
  unfold Scope.assign
  split
  · exact .define
  · split
    · rename_i outer houter
      exact ⟨rfl,fun _ hy => hy,SameBindings.rebind? hx houter⟩
    · exact .define

/-- Leaving a frame that was entered leaves the frames around it. -/
theorem Grows.keeps_of_push {f : Frame} (h : Grows T { s with scope := s.scope.push f } s') :
    Keeps T s { s' with scope := s'.scope.pop } := by
  obtain ⟨hdepth,_,houter⟩ := h
  refine ⟨hdepth,?_⟩
  simp only [Scope.push] at houter
  unfold Scope.pop
  cases hs : s'.scope.outer with
  | nil =>
    rw [hs] at houter
    cases houter
  | cons g gs =>
    rw [hs] at houter
    exact houter

end Rendering

namespace Render

variable {σ α β : Type} {T : String → Prop} {R : Rendering σ → Rendering σ → Prop}
  {m : Render σ α} {k : α → Render σ β}

/-- The step takes a state to one that is related to it, where it fails too. -/
def Leaves (R : Rendering σ → Rendering σ → Prop) (m : Render σ α) : Prop :=
  ∀ s, R s (m s).1

theorem Leaves.imp {R' : Rendering σ → Rendering σ → Prop} (h : Leaves R m)
    (hr : ∀ {s s'}, R s s' → R' s s') : Leaves R' m :=
  fun s => hr (h s)

section

variable [Std.Refl R]

theorem leaves_pure {a : α} : Leaves R (Render.pure a) := fun s => Std.Refl.refl s

theorem leaves_fail {e : Error} : Leaves R (fail e : Render σ α) := fun s => Std.Refl.refl s

theorem leaves_getDepth : Leaves R (getDepth : Render σ Nat) := fun s => Std.Refl.refl s

theorem leaves_placed {w : Surroundings σ} {r : Except Fault α} : Leaves R (w.placed r) := by
  cases r with
  | ok a => exact leaves_pure
  | error f => exact leaves_fail

theorem leaves_eval {w : Surroundings σ} {t : Term} : Leaves R (w.eval t) :=
  fun s => Std.Refl.refl s

end

theorem leaves_bind [Trans R R R] (hm : Leaves R m) (hk : ∀ a, Leaves R (k a)) :
    Leaves R (m >>= k) := by
  intro s
  have hs := hm s
  show R s (Render.bind m k s).1
  unfold Render.bind
  cases h : m s with
  | mk s' r =>
    rw [h] at hs
    cases r with
    | ok a => exact Trans.trans hs (hk a s')
    | error f => exact hs

theorem leaves_mapFailure {g : Error → Error} (hm : Leaves R m) :
    Leaves R (mapFailure g m) := by
  intro s
  have hs := hm s
  unfold mapFailure
  cases h : m s with
  | mk s' r =>
    rw [h] at hs
    cases r <;> exact hs

theorem keeps_write {sink : Sink σ} {text : String} :
    Leaves (Rendering.Keeps T) (write sink text) :=
  fun _ => ⟨rfl,SameBindings.forall₂_refl _⟩

theorem keeps_writeAll {sink : Sink σ} (pieces : List String) :
    Leaves (Rendering.Keeps T) (writeAll sink pieces) := by
  induction pieces with
  | nil => exact leaves_pure
  | cons p ps ih => exact leaves_bind keeps_write fun _ => ih

theorem keeps_inFrame {f : Frame} (hm : Leaves (Rendering.Grows T) m) :
    Leaves (Rendering.Keeps T) (inFrame f m) :=
  fun _ => (hm _).keeps_of_push

theorem grows_deeper (hm : Leaves (Rendering.Grows T) m) :
    Leaves (Rendering.Grows T) (deeper m) := by
  intro s
  obtain ⟨hdepth,hinnermost,houter⟩ := hm { s with depth := s.depth + 1 }
  refine ⟨?_,hinnermost,houter⟩
  show (m _).1.depth - 1 = s.depth
  rw [hdepth]
  rfl

end Render

open Render Rendering

namespace Surroundings

variable {σ : Type} {T : String → Prop} {w : Surroundings σ}

theorem keeps_rounds {vars : LoopVars} {length : Nat} {body : Render σ Unit}
    (hbody : Leaves (Grows T) body) (items : List Value) (index : Nat) :
    Leaves (Keeps T) (w.rounds vars length body index items) := by
  induction items generalizing index with
  | nil => exact leaves_pure
  | cons item items ih =>
    unfold rounds
    exact leaves_bind leaves_placed fun _ =>
      leaves_bind (keeps_inFrame hbody) fun _ => ih (index + 1)

theorem keeps_bindings (given : List (Located String × Term)) (frame : Frame) :
    Leaves (Keeps T) (w.bindings frame given) := by
  induction given generalizing frame with
  | nil => exact leaves_pure
  | cons b rest ih =>
    unfold bindings
    exact leaves_bind leaves_eval fun _ => ih _

theorem keeps_embedAt {path : Located String} {given : List (Located String × Term)}
    (hembed : ∀ t ∈ w.engine.templates, Leaves (Grows T) (w.embed t.2)) :
    Leaves (Keeps T) (w.embedAt path given) := by
  unfold embedAt
  simp only
  cases h : Table.get? w.engine.templates (Path.resolve w.name path.value) with
  | none => exact leaves_placed
  | some doc =>
    have hdoc := hembed _ (Table.mem_of_get? h)
    refine leaves_bind leaves_getDepth fun depth => ?_
    split
    · exact leaves_placed
    · exact leaves_bind (keeps_bindings given []) fun _ =>
        keeps_inFrame (grows_deeper hdoc)

theorem keeps_insertAt {path : Located String} : Leaves (Keeps T) (w.insertAt path) := by
  unfold insertAt
  simp only
  split
  · exact keeps_write
  · split
    · exact keeps_write
    · exact leaves_placed

end Surroundings

end Stencil
