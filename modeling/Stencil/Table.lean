/-!
Tables: finite maps from names to anything, as lists of entries in increasing order of their names.

`Table.get?` answers with the first entry of a name, so the laws that tie it to `insert` and `erase`
need no order. `Table.Sorted` says that a list is in order, and every operation keeps it.
-/

set_option autoImplicit false

namespace Stencil.Table

variable {α : Type}

def Sorted (t : List (String × α)) : Prop := t.Pairwise fun a b => a.1 < b.1

def get? (t : List (String × α)) (key : String) : Option α :=
  match t with
  | [] => none
  | (k,v) :: r => if k = key then some v else get? r key

def contains (t : List (String × α)) (key : String) : Bool := (get? t key).isSome

def insert (key : String) (value : α) : List (String × α) → List (String × α)
  | [] => [(key,value)]
  | (k,v) :: r =>
    if key < k then (key,value) :: (k,v) :: r
    else if key = k then (key,value) :: r
    else (k,v) :: insert key value r

def erase (key : String) (t : List (String × α)) : List (String × α) := t.filter fun e => e.1 ≠ key

def keys (t : List (String × α)) : List String := t.map (·.1)

/-- The first table with the entries of the second one put in. -/
def merge (t u : List (String × α)) : List (String × α) :=
  u.foldl (fun acc e => insert e.1 e.2 acc) t

/-- The table of a list of entries, of which a later one replaces an earlier one. -/
def ofList (entries : List (String × α)) : List (String × α) := merge [] entries

theorem get?_insert_self (key : String) (value : α) (t : List (String × α)) :
    get? (insert key value t) key = some value := by
  induction t with
  | nil => simp [insert,get?]
  | cons e r ih =>
    obtain ⟨k,v⟩ := e
    rw [insert]
    split
    · simp [get?]
    · split
      · simp [get?]
      · rename_i h
        simp [get?,Ne.symm h,ih]

theorem get?_insert_of_ne {key other : String} (h : other ≠ key) (value : α)
    (t : List (String × α)) : get? (insert key value t) other = get? t other := by
  induction t with
  | nil => simp [insert,get?,Ne.symm h]
  | cons e r ih =>
    obtain ⟨k,v⟩ := e
    rw [insert]
    split
    · simp [get?,Ne.symm h]
    · split
      · rename_i hk
        subst hk
        simp [get?,Ne.symm h]
      · simp [get?,ih]

theorem get?_erase_self (key : String) (t : List (String × α)) : get? (erase key t) key = none := by
  induction t with
  | nil => rfl
  | cons e r ih =>
    obtain ⟨k,v⟩ := e
    by_cases h : k = key
    · rw [show erase key ((k,v) :: r) = erase key r by simp [erase,h]]
      exact ih
    · rw [show erase key ((k,v) :: r) = (k,v) :: erase key r by simp [erase,h]]
      simp [get?,h,ih]

theorem get?_erase_of_ne {key other : String} (h : other ≠ key) (t : List (String × α)) :
    get? (erase key t) other = get? t other := by
  induction t with
  | nil => rfl
  | cons e r ih =>
    obtain ⟨k,v⟩ := e
    by_cases hk : k = key
    · rw [show erase key ((k,v) :: r) = erase key r by simp [erase,hk],ih]
      simp [get?,hk,Ne.symm h]
    · rw [show erase key ((k,v) :: r) = (k,v) :: erase key r by simp [erase,hk]]
      simp [get?,ih]

theorem get?_merge_of_notMem {key : String} {u : List (String × α)} (h : key ∉ keys u)
    (t : List (String × α)) : get? (merge t u) key = get? t key := by
  induction u generalizing t with
  | nil => rfl
  | cons e r ih =>
    simp only [keys,List.map_cons,List.mem_cons,not_or] at h
    exact (ih h.2 _).trans (get?_insert_of_ne h.1 e.2 t)

theorem get?_ofList_append {key : String} {value : α} {after : List (String × α)}
    (h : key ∉ keys after) (before : List (String × α)) :
    get? (ofList (before ++ (key,value) :: after)) key = some value := by
  have hlist : ofList (before ++ (key,value) :: after) =
      merge (insert key value (ofList before)) after := by
    simp [ofList,merge]
  rw [hlist,get?_merge_of_notMem h,get?_insert_self]

theorem mem_insert {key : String} {value : α} {e : String × α} {t : List (String × α)}
    (h : e ∈ insert key value t) : e = (key,value) ∨ e ∈ t := by
  induction t with
  | nil => simpa [insert] using h
  | cons f r ih =>
    obtain ⟨k,v⟩ := f
    rw [insert] at h
    split at h
    · simpa using h
    · split at h
      · rcases List.mem_cons.1 h with h | h
        · exact .inl h
        · exact .inr (List.mem_cons_of_mem _ h)
      · rcases List.mem_cons.1 h with h | h
        · exact .inr (h ▸ List.mem_cons_self)
        · exact (ih h).imp_right (List.mem_cons_of_mem _)

theorem mem_merge {e : String × α} {t u : List (String × α)} (h : e ∈ merge t u) :
    e ∈ t ∨ e ∈ u := by
  induction u generalizing t with
  | nil => exact .inl h
  | cons f r ih =>
    rcases ih h with h | h
    · rcases mem_insert h with rfl | h
      · exact .inr List.mem_cons_self
      · exact .inl h
    · exact .inr (List.mem_cons_of_mem _ h)

theorem mem_ofList {e : String × α} {entries : List (String × α)} (h : e ∈ ofList entries) :
    e ∈ entries := by
  rcases mem_merge h with h | h
  · cases h
  · exact h

theorem mem_of_get? {key : String} {value : α} {t : List (String × α)}
    (h : get? t key = some value) : (key,value) ∈ t := by
  induction t with
  | nil => cases h
  | cons e r ih =>
    obtain ⟨k,v⟩ := e
    rw [get?] at h
    split at h
    · rename_i hk
      cases hk
      cases h
      exact List.mem_cons_self
    · exact List.mem_cons_of_mem _ (ih h)

theorem get?_eq_none_of_forall_lt {key : String} {t : List (String × α)} (h : ∀ e ∈ t, key < e.1) :
    get? t key = none := by
  cases hget : get? t key with
  | none => rfl
  | some value => exact absurd (h _ (mem_of_get? hget)) (String.lt_irrefl key)

theorem get?_eq_some_iff {t : List (String × α)} (h : Sorted t) (key : String) (value : α) :
    get? t key = some value ↔ (key,value) ∈ t := by
  refine ⟨mem_of_get?,fun hmem => ?_⟩
  induction t with
  | nil => cases hmem
  | cons f r ih =>
    obtain ⟨hf,hr⟩ := List.pairwise_cons.1 h
    rcases List.mem_cons.1 hmem with rfl | hmem
    · simp [get?]
    · have hne : f.1 ≠ key := String.ne_of_lt (hf _ hmem)
      rw [get?,if_neg hne,ih hr hmem]

theorem contains_first (e : String × α) (r : List (String × α)) : contains (e :: r) e.1 = true := by
  simp [contains,get?]

theorem first_le_of_contains {e : String × α} {r : List (String × α)} {key : String}
    (h : Sorted (e :: r)) (hkey : contains (e :: r) key = true) : e.1 ≤ key := by
  obtain ⟨v,hv⟩ := Option.isSome_iff_exists.1 hkey
  rcases List.mem_cons.1 (mem_of_get? hv) with rfl | hmem
  · exact String.le_refl key
  · exact String.not_lt.1 (String.lt_asymm ((List.pairwise_cons.1 h).1 _ hmem))

section TwoTables

variable {β : Type} {r : List (String × α)} {s : List (String × β)}

theorem first_eq_of_contains_eq {e : String × α} {f : String × β} (ht : Sorted (e :: r))
    (hu : Sorted (f :: s)) (h : ∀ key, contains (e :: r) key = contains (f :: s) key) :
    e.1 = f.1 :=
  String.le_antisymm
    (first_le_of_contains ht ((h f.1).trans (contains_first f s)))
    (first_le_of_contains hu ((h e.1).symm.trans (contains_first e r)))

/-- What holds for all answers of two tables that begin with the same name holds for those of their
rests, in which that name stands for nothing. -/
theorem forall_rest {P : Option α → Option β → Prop} {k : String} {v : α} {w : β}
    (ht : Sorted ((k,v) :: r)) (hu : Sorted ((k,w) :: s)) (hnone : P none none)
    (h : ∀ key, P (get? ((k,v) :: r) key) (get? ((k,w) :: s) key)) (key : String) :
    P (get? r key) (get? s key) := by
  by_cases hkey : k = key
  · subst hkey
    rw [get?_eq_none_of_forall_lt (List.pairwise_cons.1 ht).1,
      get?_eq_none_of_forall_lt (List.pairwise_cons.1 hu).1]
    exact hnone
  · simpa [get?,hkey] using h key

end TwoTables

theorem ext_of_sorted {t u : List (String × α)} (ht : Sorted t) (hu : Sorted u)
    (h : ∀ key, get? t key = get? u key) : t = u := by
  induction t generalizing u with
  | nil =>
    cases u with
    | nil => rfl
    | cons f s => simpa [get?] using h f.1
  | cons e r ih =>
    cases u with
    | nil => simpa [get?] using h e.1
    | cons f s =>
      have hfirst := first_eq_of_contains_eq ht hu fun key => congrArg Option.isSome (h key)
      obtain ⟨k,v⟩ := e
      obtain ⟨l,w⟩ := f
      obtain rfl : k = l := hfirst
      have hv : v = w := by simpa [get?] using h k
      have hrest := forall_rest ht hu rfl h
      rw [hv,ih (List.pairwise_cons.1 ht).2 (List.pairwise_cons.1 hu).2 hrest]

theorem get?_merge {u : List (String × α)} (hu : Sorted u) (t : List (String × α)) (key : String) :
    get? (merge t u) key = (get? u key).or (get? t key) := by
  induction u generalizing t with
  | nil => rfl
  | cons e r ih =>
    obtain ⟨k,v⟩ := e
    obtain ⟨hk,hr⟩ := List.pairwise_cons.1 hu
    have hstep : merge t ((k,v) :: r) = merge (insert k v t) r := rfl
    rw [hstep,ih hr]
    by_cases h : k = key
    · subst h
      rw [get?_eq_none_of_forall_lt hk,get?_insert_self]
      simp [get?]
    · rw [get?_insert_of_ne (Ne.symm h)]
      simp [get?,h]

theorem contains_insert (key other : String) (value : α) (t : List (String × α)) :
    contains (insert key value t) other = (decide (other = key) || contains t other) := by
  by_cases h : other = key
  · subst h
    simp [contains,get?_insert_self]
  · simp [contains,get?_insert_of_ne h,h]

theorem sorted_insert {t : List (String × α)} (h : Sorted t) (key : String) (value : α) :
    Sorted (insert key value t) := by
  induction t with
  | nil => simp [insert,Sorted]
  | cons f r ih =>
    obtain ⟨k,v⟩ := f
    obtain ⟨hk,hr⟩ := List.pairwise_cons.1 h
    rw [insert]
    split
    · rename_i hlt
      refine List.pairwise_cons.2 ⟨fun e he => ?_,h⟩
      rcases List.mem_cons.1 he with rfl | he
      · exact hlt
      · exact String.lt_trans hlt (hk e he)
    · rename_i hlt
      split
      · rename_i heq
        exact List.pairwise_cons.2 ⟨fun e he => heq ▸ hk e he,hr⟩
      · rename_i hne
        refine List.pairwise_cons.2 ⟨fun e he => ?_,ih hr⟩
        rcases mem_insert he with rfl | he
        · exact Std.lt_of_le_of_ne (String.not_lt.1 hlt) (Ne.symm hne)
        · exact hk e he

theorem sorted_erase {t : List (String × α)} (h : Sorted t) (key : String) :
    Sorted (erase key t) := List.Pairwise.filter _ h

theorem sorted_merge {t : List (String × α)} (h : Sorted t) (u : List (String × α)) :
    Sorted (merge t u) := by
  induction u generalizing t with
  | nil => exact h
  | cons e r ih => exact ih (sorted_insert h e.1 e.2)

theorem sorted_ofList (entries : List (String × α)) : Sorted (ofList entries) :=
  sorted_merge List.Pairwise.nil entries

theorem sorted_of_keys_eq {β : Type} {t : List (String × α)} {u : List (String × β)}
    (h : keys t = keys u) (hu : Sorted u) : Sorted t := by
  have hkeys : (keys u).Pairwise (· < ·) := List.pairwise_map.2 hu
  rw [← h] at hkeys
  exact List.pairwise_map.1 hkeys

theorem insert_of_forall_lt {key : String} {t : List (String × α)} (h : ∀ e ∈ t, e.1 < key)
    (value : α) : insert key value t = t ++ [(key,value)] := by
  induction t with
  | nil => rfl
  | cons f r ih =>
    obtain ⟨hf,hr⟩ := List.forall_mem_cons.1 h
    have hlt : ¬key < f.1 := String.lt_asymm hf
    have hne : key ≠ f.1 := Ne.symm (String.ne_of_lt hf)
    rw [insert,if_neg hlt,if_neg hne,ih hr]
    rfl

theorem merge_of_sorted {t u : List (String × α)} (h : Sorted (t ++ u)) : merge t u = t ++ u := by
  induction u generalizing t with
  | nil => simp [merge]
  | cons e r ih =>
    have hlt : ∀ f ∈ t, f.1 < e.1 := fun f hf =>
      (List.pairwise_append.1 h).2.2 f hf e List.mem_cons_self
    have hstep : merge t (e :: r) = merge (insert e.1 e.2 t) r := rfl
    rw [hstep,insert_of_forall_lt hlt,ih (by simpa using h)]
    simp

/-- Entries that are in order are their own table. -/
theorem ofList_of_sorted {t : List (String × α)} (h : Sorted t) : ofList t = t := merge_of_sorted h

end Stencil.Table
