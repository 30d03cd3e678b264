import Stencil.Cause

/-!
What a reader does, said without the proof that its result carries: `Gives x a b` says that the
reading `x` succeeds with `a` and leaves `b`.
-/

set_option autoImplicit false

namespace Stencil

theorem map_eq_ok_iff {ε α β : Type} {x : Except ε α} {g : α → β} {b : β} :
    x.map g = .ok b ↔ ∃ a, x = .ok a ∧ g a = b := by
  cases x <;> simp [Except.map]

theorem error_of_map {ε α β : Type} {x : Except ε α} {g : α → β} {err : ε}
    (h : x.map g = .error err) : x = .error err := by
  cases x with
  | ok a => cases h
  | error e => exact congrArg _ (Except.error.inj h)

theorem exists_error_iff {ε α : Type} {x : Except ε α} : (∃ e, x = .error e) ↔ ¬∃ a, x = .ok a := by
  cases x <;> simp

theorem bind_eq_ok_iff {ε α β : Type} {x : Except ε α} {k : α → Except ε β} {b : β} :
    x >>= k = .ok b ↔ ∃ a, x = .ok a ∧ k a = .ok b := by
  cases x <;> simp [bind,Except.bind]

theorem bind_congr_of_ok {ε α β : Type} {x : Except ε α} {k k' : α → Except ε β}
    (h : ∀ a, x = .ok a → k' a = k a) : x >>= k' = x >>= k := by
  cases x with
  | ok a => exact h a rfl
  | error _ => rfl

instance decidableEqExcept {ε α : Type} [DecidableEq ε] [DecidableEq α] :
    DecidableEq (Except ε α)
  | .ok a, .ok b => decidable_of_iff (a = b) ⟨congrArg Except.ok,Except.ok.inj⟩
  | .error a, .error b => decidable_of_iff (a = b) ⟨congrArg Except.error,Except.error.inj⟩
  | .ok _, .error _ | .error _, .ok _ => isFalse (fun h => nomatch h)

/-- The reading succeeds with `a` and leaves `b`. -/
def Gives {α β : Type} {P : β → Prop} (x : Except Fault (α × { b : β // P b })) (a : α) (b : β) :
    Prop :=
  ∃ h, x = .ok (a,⟨b,h⟩)

namespace Gives

variable {α α' β β' : Type} {P : β → Prop} {Q : β' → Prop} {a : α} {b : β}

theorem holds {x : Except Fault (α × { b : β // P b })} (h : Gives x a b) : P b := h.1

theorem iff_ok {x : Except Fault (α × { b : β // P b })} {r : { b : β // P b }} :
    Gives x a r.1 ↔ x = .ok (a,r) :=
  ⟨fun ⟨_,h⟩ => h,fun h => ⟨r.2,h⟩⟩

theorem unique {x : Except Fault (α × { b : β // P b })} {a' : α} {b' : β}
    (h : Gives x a b) (h' : Gives x a' b') : a = a' ∧ b = b' := by
  obtain ⟨_,h⟩ := h
  obtain ⟨_,h'⟩ := h'
  simpa [h] using h'

@[simp] theorem error_iff {f : Fault} :
    ¬Gives (.error f : Except Fault (α × { b : β // P b })) a b := by
  simp [Gives]

@[simp] theorem ok_iff {a' : α} {r : { b : β // P b }} :
    Gives (.ok (a',r)) a b ↔ a' = a ∧ r.1 = b := by
  constructor
  · rintro ⟨_,h⟩
    cases h
    exact ⟨rfl,rfl⟩
  · rintro ⟨rfl,rfl⟩
    exact ⟨r.2,rfl⟩

@[simp] theorem pure_iff {a' : α} {r : { b : β // P b }} :
    Gives (pure (a',r)) a b ↔ a' = a ∧ r.1 = b := ok_iff

theorem bind_iff {x : Except Fault α'} {f : α' → Except Fault (α × { b : β // P b })} :
    Gives (x >>= f) a b ↔ ∃ a', x = .ok a' ∧ Gives (f a') a b := by
  cases x with
  | error e => simp [bind,Except.bind]
  | ok a' => simp [bind,Except.bind]

theorem bind_gives_iff {x : Except Fault (α' × { b : β' // Q b })}
    {f : α' × { b : β' // Q b } → Except Fault (α × { b : β // P b })} :
    Gives (x >>= f) a b ↔ ∃ a' b' h, Gives x a' b' ∧ Gives (f (a',⟨b',h⟩)) a b := by
  cases x with
  | error e => simp [bind,Except.bind]
  | ok p =>
    obtain ⟨a',r⟩ := p
    constructor
    · intro h
      exact ⟨a',r.1,r.2,by simp,h⟩
    · rintro ⟨a',b',h,hx,hf⟩
      obtain ⟨rfl,rfl⟩ := ok_iff.mp hx
      exact hf

theorem bind {x : Except Fault (α' × { b : β' // Q b })}
    {f : α' × { b : β' // Q b } → Except Fault (α × { b : β // P b })} {a' : α'} {b' : β'}
    (hx : Gives x a' b') (hf : ∀ h, Gives (f (a',⟨b',h⟩)) a b) : Gives (x >>= f) a b :=
  bind_gives_iff.mpr ⟨a',b',hx.holds,hx,hf hx.holds⟩

end Gives

end Stencil
