import Stencil.Json.Read

set_option autoImplicit false

namespace Stencil.Json

mutual

def Ordered : Json → Prop
  | .arr items => ListOrdered items
  | .obj entries => Table.Sorted entries ∧ EntriesOrdered entries
  | .null | .bool _ | .number _ | .str _ => True

def ListOrdered : List Json → Prop
  | [] => True
  | j :: js => j.Ordered ∧ ListOrdered js

def EntriesOrdered : List (String × Json) → Prop
  | [] => True
  | (_,j) :: es => j.Ordered ∧ EntriesOrdered es

end

theorem entriesOrdered_iff (es : List (String × Json)) :
    EntriesOrdered es ↔ ∀ e ∈ es, e.2.Ordered := by
  induction es with
  | nil => simp [EntriesOrdered]
  | cons e es ih => simp [EntriesOrdered,ih]

theorem entriesOrdered_ofList {es : List (String × Json)} (h : EntriesOrdered es) :
    EntriesOrdered (Table.ofList es) := by
  rw [entriesOrdered_iff] at h ⊢
  exact fun e he => h e (Table.mem_ofList he)

structure ReadsOrdered (n : Nat) : Prop where
  value : ∀ cs j s, cs.length < n → value? cs = some (j,s) → j.Ordered
  items : ∀ cs js s, cs.length < n → items? cs = some (js,s) → ListOrdered js
  entries : ∀ cs es s, cs.length < n → entries? cs = some (es,s) → EntriesOrdered es

theorem eq_of_word? {w : String} {j j' : Json} {cs : List Char} {s : Shorter cs}
    (h : word? w j cs = some (j',s)) : j' = j := by
  unfold word? shorten? at h
  split at h
  · split at h
    · rename_i heq
      cases heq
      split at h
      · cases h
        rfl
      · cases h
    · cases h
  · cases h

theorem ordered_of_value? {cs : List Char} {j : Json} {s : Shorter cs} (ih : ReadsOrdered cs.length)
    (h : value? cs = some (j,s)) : j.Ordered := by
  cases cs with
  | nil => simp [value?] at h
  | cons c r =>
    have hr : r.length < (c :: r).length := by simp
    rw [value?] at h
    -- a blank, an array, an object and a string are told apart by their first characters
    split at h
    · obtain ⟨⟨j',s'⟩,hread,heq⟩ := Option.bind_eq_some_iff.mp h
      cases heq
      exact ih.value r _ _ hr hread
    split at h
    · split at h
      · cases h
        trivial
      · obtain ⟨⟨js,s'⟩,hread,heq⟩ := Option.bind_eq_some_iff.mp h
        cases heq
        exact ih.items r _ _ hr hread
    split at h
    · split at h
      · cases h
        exact ⟨.nil,trivial⟩
      · obtain ⟨⟨es,s'⟩,hread,heq⟩ := Option.bind_eq_some_iff.mp h
        cases heq
        exact ⟨Table.sorted_ofList es,entriesOrdered_ofList (ih.entries r _ _ hr hread)⟩
    split at h
    · obtain ⟨⟨t,s'⟩,hread,heq⟩ := Option.bind_eq_some_iff.mp h
      cases heq
      trivial
    -- the three words
    iterate 3
      split at h
      · rw [eq_of_word? h]
        trivial
    obtain ⟨⟨n,s'⟩,hread,heq⟩ := Option.bind_eq_some_iff.mp h
    cases heq
    trivial

theorem ordered_of_items? {cs : List Char} {js : List Json} {s : Shorter cs}
    (ih : ReadsOrdered cs.length)
    (hvalue : ∀ j s, value? cs = some (j,s) → j.Ordered)
    (h : items? cs = some (js,s)) : ListOrdered js := by
  rw [items?] at h
  obtain ⟨⟨j,r₁,h₁⟩,hj,h⟩ := Option.bind_eq_some_iff.mp h
  obtain ⟨⟨d,r₂,h₂⟩,hd,h⟩ := Option.bind_eq_some_iff.mp h
  dsimp only at h
  have hfirst := hvalue j _ hj
  split at h
  · obtain ⟨⟨js,s'⟩,hjs,h⟩ := Option.bind_eq_some_iff.mp h
    cases h
    exact ⟨hfirst,ih.items r₂ _ _ (Nat.lt_trans h₂ h₁) hjs⟩
  split at h
  · cases h
    exact ⟨hfirst,trivial⟩
  · cases h

theorem ordered_of_entries? {cs : List Char} {es : List (String × Json)} {s : Shorter cs}
    (ih : ReadsOrdered cs.length) (h : entries? cs = some (es,s)) : EntriesOrdered es := by
  rw [entries?] at h
  obtain ⟨⟨q,r₁,h₁⟩,hq,h⟩ := Option.bind_eq_some_iff.mp h
  dsimp only at h
  split at h
  · cases h
  obtain ⟨⟨k,r₂,h₂⟩,hk,h⟩ := Option.bind_eq_some_iff.mp h
  obtain ⟨⟨colon,r₃,h₃⟩,hcolon,h⟩ := Option.bind_eq_some_iff.mp h
  dsimp only at h
  split at h
  · cases h
  obtain ⟨⟨j,r₄,h₄⟩,hj,h⟩ := Option.bind_eq_some_iff.mp h
  obtain ⟨⟨d,r₅,h₅⟩,hd,h⟩ := Option.bind_eq_some_iff.mp h
  dsimp only at h
  have hr₃ : r₃.length < cs.length := Nat.lt_trans h₃ (Nat.lt_trans h₂ h₁)
  have hr₅ : r₅.length < cs.length := Nat.lt_trans h₅ (Nat.lt_trans h₄ hr₃)
  have hfirst := ih.value r₃ j _ hr₃ hj
  split at h
  · obtain ⟨⟨es,s'⟩,hes,h⟩ := Option.bind_eq_some_iff.mp h
    cases h
    exact ⟨hfirst,ih.entries r₅ _ _ hr₅ hes⟩
  split at h
  · cases h
    exact ⟨hfirst,trivial⟩
  · cases h

/-- The three readers call each other on what is left of a text, so one induction on its length carries
all of them. -/
theorem readsOrdered (n : Nat) : ReadsOrdered n := by
  induction n with
  | zero => constructor <;> exact fun _ _ _ h => absurd h (Nat.not_lt_zero _)
  | succ n ih =>
    have hless {cs : List Char} (h : cs.length < n + 1) : ReadsOrdered cs.length :=
      ⟨fun ds j s hds => ih.value ds j s (by omega),fun ds js s hds => ih.items ds js s (by omega),
        fun ds es s hds => ih.entries ds es s (by omega)⟩
    exact ⟨fun cs j s h => ordered_of_value? (hless h),
      fun cs js s h => ordered_of_items? (hless h) fun j s => ordered_of_value? (hless h),
      fun cs es s h => ordered_of_entries? (hless h)⟩

theorem ordered_of_ofText? {text : String} {j : Json} (h : ofText? text = some j) : j.Ordered := by
  obtain ⟨⟨j',rest,hrest⟩,hread,h⟩ := Option.bind_eq_some_iff.mp h
  dsimp only at h
  split at h
  · cases h
    exact (readsOrdered _).value _ _ _ (Nat.lt_succ_self _) hread
  · cases h

end Stencil.Json
