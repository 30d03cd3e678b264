import Stencil.Proofs.Outcome
import Stencil.Proofs.Text.Bytes
import Stencil.Proofs.Text.Search
import Stencil.Proofs.Value.Sliced

/-!
Membership and look-up: what is in a map, a list or a text can be reached by a key or an index, and
what can be reached is in it. The two differ at the integers as keys of a map, which look-up takes for
their texts and membership does not.
-/

set_option autoImplicit false

namespace Stencil.Value

variable {α : Type} {elements items : List α} {x : α} {n : Nat} {i : Int64}

theorem position_of_inside (h : -(n : Int) ≤ i.toInt ∧ i.toInt < n) :
    ∃ p : Fin n, position n i = .ok p ∧
      (p.val : Int) = if i.toInt < 0 then i.toInt + n else i.toInt := by
  unfold position
  have hinside : 0 ≤ (if i.toInt < 0 then i.toInt + n else i.toInt) ∧
      (if i.toInt < 0 then i.toInt + n else i.toInt) < n := by
    split <;> omega
  simp only [dif_pos hinside]
  exact ⟨_,rfl,Int.toNat_of_nonneg hinside.1⟩

theorem position_of_outside (h : ¬(-(n : Int) ≤ i.toInt ∧ i.toInt < n)) :
    position n i = .error (.indexOutOfRange n i) := by
  unfold position
  refine dif_neg fun hinside => h ?_
  split at hinside <;> omega

theorem element_of_inside (container : Kind)
    (h : -(elements.length : Int) ≤ i.toInt ∧ i.toInt < elements.length) :
    ∃ (p : Nat) (hp : p < elements.length), element container elements (.int i) = .ok elements[p] ∧
      (p : Int) = if i.toInt < 0 then i.toInt + elements.length else i.toInt := by
  obtain ⟨p,hposition,hp⟩ := position_of_inside h
  refine ⟨p.val,p.isLt,?_,hp⟩
  simp only [element,hposition]
  rfl

theorem element_of_outside (container : Kind)
    (h : ¬(-(elements.length : Int) ≤ i.toInt ∧ i.toInt < elements.length)) :
    element container elements (.int i) = .error (.indexOutOfRange elements.length i) := by
  simp only [element,position_of_outside h]
  rfl

theorem mem_of_element {container : Kind} {key : Value} (h : element container elements key = .ok x) :
    x ∈ elements := by
  cases key with
  | int i =>
    obtain ⟨p,_,rfl⟩ := map_eq_ok_iff.mp h
    exact List.getElem_mem _
  | none | bool | float | str | safe | list | map => cases h

theorem exists_element_iff (container : Kind) :
    (∃ x, element container elements (.int i) = .ok x) ↔
      -(elements.length : Int) ≤ i.toInt ∧ i.toInt < elements.length := by
  constructor
  · rintro ⟨x,hx⟩
    refine Decidable.byContradiction fun hinside => ?_
    rw [element_of_outside container hinside] at hx
    cases hx
  · intro hinside
    obtain ⟨p,hp,hx,_⟩ := element_of_inside container hinside
    exact ⟨_,hx⟩

/-- Every element has an index, as long as the positions are 64-bit integers. -/
theorem exists_index_of_mem (container : Kind) (hlength : elements.length ≤ Int64.maxValue.toInt)
    (h : x ∈ elements) : ∃ i : Int64, element container elements (.int i) = .ok x := by
  obtain ⟨p,hp,rfl⟩ := List.mem_iff_getElem.mp h
  have hindex : (Int64.ofNat p).toInt = p := Integer.toInt_ofNat (by omega)
  have hinside : -(elements.length : Int) ≤ (Int64.ofNat p).toInt ∧
      (Int64.ofNat p).toInt < elements.length := by omega
  obtain ⟨q,hq,hx,heq⟩ := element_of_inside container hinside
  rw [if_neg (by omega)] at heq
  obtain rfl : q = p := by omega
  exact ⟨_,hx⟩

section Maps

variable {entries : List (String × Value)} {k : Value}

theorem entry_eq_ok_iff {key : String} {v : Value} :
    entry entries key = .ok v ↔ Table.get? entries key = some v := by
  unfold entry
  cases Table.get? entries key <;> simp

theorem contains_entry (entries : List (String × Value)) (key : String) :
    Table.contains entries key = true ↔ ∃ v, entry entries key = .ok v := by
  simp [Table.contains,Option.isSome_iff_exists,entry_eq_ok_iff]

theorem contains_map_of_asText? {key : String} (h : k.asText? = some key) :
    contains (.map entries) k = .ok true ↔ ∃ v, index (.map entries) k = .ok v := by
  cases k with
  | str t | safe t =>
    obtain rfl : t = key := Option.some.inj h
    simpa [contains,index,asText?] using contains_entry entries t
  | none | bool | int | float | list | map => cases h

/-- Membership in a map agrees with look-up, unless the key is an integer whose text is a key. -/
theorem contains_map_iff :
    (contains (.map entries) k = .ok true ↔ ∃ v, index (.map entries) k = .ok v) ↔
      ∀ i, k = .int i → Table.get? entries (Integer.toText i) = Option.none := by
  cases k with
  | int i =>
    simp [contains,index,asText?,entry_eq_ok_iff,Option.eq_none_iff_forall_ne_some]
  | str key => simpa using contains_map_of_asText? (k := .str key) rfl
  | safe key => simpa using contains_map_of_asText? (k := .safe key) rfl
  | none | bool | float | list | map => simp [contains,index,asText?]

end Maps

section Lists

variable {values : List Value} {v w : Value}

theorem index_list (values : List Value) (k : Value) :
    index (.list values) k = element .list values k := rfl

theorem contains_list_iff (hlength : values.length ≤ Int64.maxValue.toInt) :
    contains (.list values) w = .ok true ↔
      ∃ (i : Int64) (v : Value), index (.list values) (.int i) = .ok v ∧ v.isEqual w = true := by
  rw [contains,Except.ok.injEq,List.any_eq_true]
  constructor
  · rintro ⟨v,hv,heq⟩
    obtain ⟨i,hi⟩ := exists_index_of_mem .list hlength hv
    exact ⟨i,v,hi,heq⟩
  · rintro ⟨i,v,hi,heq⟩
    rw [index_list] at hi
    exact ⟨v,mem_of_element hi,heq⟩

theorem slice_of_index (hlength : values.length ≤ Int64.maxValue.toInt)
    (h : index (.list values) (.int i) = .ok v) :
    ∃ rest, slice (.list values) (some i) Option.none Option.none = .ok (.list (v :: rest)) := by
  have hinside := (exists_element_iff .list).mp ⟨v,h⟩
  obtain ⟨p,hp,hv,hplace⟩ := element_of_inside .list hinside
  obtain rfl : v = values[p] := Except.ok.inj (h.symm.trans hv)
  have hstep : stride Option.none ≠ 0 := by decide
  obtain ⟨part,hpart,hslice⟩ :=
    (IsSequence.list values).exists_slice hlength (some i) Option.none hstep
  rw [show stride Option.none = 1 from rfl] at hslice
  have hfirst : firstPlace values.length 1 (some i) = p := by
    show boundPlace values.length 1 i.toInt = p
    unfold boundPlace
    simp only [Int.reduceLT,if_false]
    omega
  rw [hfirst] at hslice
  have hdrop : part = values[p] :: values.drop (p + 1) := by
    rw [← List.drop_eq_getElem_cons hp]
    exact hslice.unique (isSlice_drop (Nat.le_of_lt hp))
  exact ⟨_,hdrop ▸ hpart⟩

end Lists

section Texts

variable {s : String} {k v : Value}

theorem contains_of_element {container : Kind}
    (h : (element container s.toList k).map (fun c => .str (String.singleton c)) = .ok v) :
    ∃ t, v.asText? = some t ∧ Text.occursIn t.toList s.toList = true := by
  obtain ⟨c,hc,rfl⟩ := map_eq_ok_iff.mp h
  refine ⟨String.singleton c,rfl,?_⟩
  rw [String.toList_singleton]
  exact Text.occursIn_singleton (mem_of_element hc)

theorem contains_of_index {text : Value} (htext : text = .str s ∨ text = .safe s)
    (h : index text k = .ok v) : contains text v = .ok true := by
  obtain rfl | rfl := htext
  all_goals
    obtain ⟨t,ht,hoccurs⟩ := contains_of_element h
    simp [contains,ht,hoccurs]

end Texts

section Keys

variable {entries : List (String × Value)}

theorem keys_pairwise (h : Table.Sorted entries) : (Table.keys entries).Pairwise fun s t =>
    s.toUTF8.data.toList < t.toUTF8.data.toList :=
  (List.pairwise_map.mpr h).imp Text.toUTF8_lt

theorem iterate_map (entries : List (String × Value)) :
    iterate (.map entries) = .ok ((Table.keys entries).map .str) := by
  simp [iterate,Table.keys]

theorem index_of_mem (h : Table.Sorted entries) {key : String} {v : Value}
    (hmem : (key,v) ∈ entries) : index (.map entries) (.str key) = .ok v :=
  entry_eq_ok_iff.mpr ((Table.get?_eq_some_iff h key v).mpr hmem)

end Keys

/-- Membership and look-up in a map, a list, whose positions are 64-bit integers, and a text. A value
is in the map where it can be looked up, unless it is an integer whose text is a key. A loop over the
map visits its keys in the order of their bytes, and each key is in the map and has its own value. A
value is in the list where an index has an element equal to it; the indices are those from minus the
length up to the length, and the slice from an index on starts with its element. What is at an index of
the text is in it. -/
theorem contains_where_index {entries : List (String × Value)} (hsorted : Table.Sorted entries)
    {values : List Value} (hlength : values.length ≤ Int64.maxValue.toInt) (s : String) :
    (∀ k, (contains (.map entries) k = .ok true ↔ ∃ v, index (.map entries) k = .ok v) ↔
      ∀ i, k = .int i → Table.get? entries (Integer.toText i) = Option.none) ∧
    (iterate (.map entries) = .ok ((Table.keys entries).map .str) ∧
      ((Table.keys entries).Pairwise fun s t => s.toUTF8.data.toList < t.toUTF8.data.toList) ∧
      ∀ key v, (key,v) ∈ entries → contains (.map entries) (.str key) = .ok true ∧
        index (.map entries) (.str key) = .ok v) ∧
    (∀ w, contains (.list values) w = .ok true ↔
      ∃ (i : Int64) (v : Value), index (.list values) (.int i) = .ok v ∧ v.isEqual w = true) ∧
    (∀ i : Int64, ((∃ v, index (.list values) (.int i) = .ok v) ↔
        -(values.length : Int) ≤ i.toInt ∧ i.toInt < values.length) ∧
      ∀ v, index (.list values) (.int i) = .ok v → ∃ rest,
        slice (.list values) (some i) Option.none Option.none = .ok (.list (v :: rest))) ∧
    ∀ text k v, text = .str s ∨ text = .safe s → index text k = .ok v →
      contains text v = .ok true := by
  refine ⟨fun _ => contains_map_iff,⟨iterate_map entries,keys_pairwise hsorted,fun key v hmem => ?_⟩,
    fun w => contains_list_iff hlength,
    fun i => ⟨exists_element_iff .list,fun v => slice_of_index hlength⟩,
    fun _ _ _ => contains_of_index⟩
  have hindex := index_of_mem hsorted hmem
  exact ⟨(contains_map_of_asText? rfl).mpr ⟨v,hindex⟩,hindex⟩

/-- A map with a key beyond ASCII, a list with an index from its end, and a text. -/
theorem contains_where_index_of_each :
    let entries : List (String × Value) := [("a",.int 1),("é",.none)]
    let values : List Value := [.int 1,.float (Binary64.ofInt 2)]
    Table.Sorted entries ∧ values.length ≤ Int64.maxValue.toInt ∧
    contains (.map entries) (.safe "é") = .ok true ∧
    "a".toUTF8.data.toList < "é".toUTF8.data.toList ∧
    contains (.list values) (.int 2) = .ok true ∧
    (∃ rest, slice (.list values) (some (-2)) Option.none Option.none =
      .ok (.list (.int 1 :: rest))) ∧
    contains (.safe "né") (.str "é") = .ok true := by
  intro entries values
  have hsorted : Table.Sorted entries := List.pairwise_pair.mpr (by decide)
  have hlength : values.length ≤ Int64.maxValue.toInt := by decide
  obtain ⟨hmap,⟨_,hbytes,_⟩,hlist,hslice,htext⟩ := contains_where_index hsorted hlength "né"
  refine ⟨hsorted,hlength,?_,List.rel_of_pairwise_cons hbytes (by decide),?_,?_,?_⟩
  · exact ((hmap (.safe "é")).mpr fun _ => nofun).mpr ⟨.none,rfl⟩
  · exact (hlist (.int 2)).mpr ⟨-1,.float (Binary64.ofInt 2),rfl,by decide +kernel⟩
  · exact (hslice (-2)).2 (.int 1) rfl
  · exact htext (.safe "né") (.int (-1)) (.str "é") (.inr rfl) rfl

/-- An integer that can be looked up in a map, and is not in it. -/
theorem contains_misses_index :
    let entries : List (String × Value) := [("1",.str "x")]
    index (.map entries) (.int 1) = .ok (.str "x") ∧
    contains (.map entries) (.int 1) = .ok false := ⟨rfl,rfl⟩

end Stencil.Value
