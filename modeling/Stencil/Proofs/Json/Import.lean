import Stencil.Proofs.Json.Ordered

set_option autoImplicit false

namespace Stencil

def JsonNumber.whole? : JsonNumber → Option Int
  | .nat n => some n.toNat
  | .neg n => some n.toInt
  | .float _ => none

namespace Json

mutual

/-- The value that a document means: an integer where 64 bits with a sign hold it, the nearest float
for a larger whole number, and all items and entries in their order. -/
inductive Means : Json → Value → Prop
  | null : Means .null .none
  | bool {b} : Means (.bool b) (.bool b)
  | integer {n : JsonNumber} {i : Int64} : n.whole? = some i.toInt → Means (.number n) (.int i)
  | large {n : UInt64} : Int64.maxValue.toInt < n.toNat →
      Means (.number (.nat n)) (.float (Binary64.ofInt n.toNat))
  | float {x} : Means (.number (.float x)) (.float x)
  | str {s} : Means (.str s) (.str s)
  | arr {items vs} : ListMeans items vs → Means (.arr items) (.list vs)
  | obj {entries es} : EntriesMean entries es → Means (.obj entries) (.map es)

inductive ListMeans : List Json → List Value → Prop
  | nil : ListMeans [] []
  | cons {j js v vs} : Means j v → ListMeans js vs → ListMeans (j :: js) (v :: vs)

inductive EntriesMean : List (String × Json) → List (String × Value) → Prop
  | nil : EntriesMean [] []
  | cons {k j es v vs} : Means j v → EntriesMean es vs → EntriesMean ((k,j) :: es) ((k,v) :: vs)

end

end Json

theorem Value.ofInt_toInt (n : Int64) : Value.ofInt n.toInt = .int n := by
  simp [ofInt,Integer.ofInt?]

theorem Value.ofInt_of_large {i : Int} (h : Int64.maxValue.toInt < i) :
    Value.ofInt i = .float (Binary64.ofInt i) := by
  unfold ofInt
  cases hi : Integer.ofInt? i with
  | none => rfl
  | some n =>
    have hn := Integer.ofInt?_eq_some_iff.mp hi
    have hle := n.toInt_le
    omega

namespace Json

theorem keys_entriesToValues (es : List (String × Json)) :
    Table.keys (entriesToValues es) = Table.keys es := by
  induction es with
  | nil => rfl
  | cons e es ih =>
    unfold entriesToValues
    exact congrArg (e.1 :: ·) ih

theorem sorted_entriesToValues {es : List (String × Json)} (h : Table.Sorted es) :
    Table.Sorted (entriesToValues es) :=
  Table.sorted_of_keys_eq (keys_entriesToValues es) h

mutual

theorem toValue_toData : (j : Json) → j.toData.toValue = .ok j.toValue
  | .null | .bool _ | .str _ => rfl
  | .number (.nat _) | .number (.float _) => rfl
  | .number (.neg n) => congrArg Except.ok (Value.ofInt_toInt n)
  | .arr items => by
    unfold toData toValue Data.toValue
    rw [listToValues_listToData items]
    rfl
  | .obj entries => by
    unfold toData toValue Data.toValue
    rw [partsToEntries_entriesToParts [] entries]
    rfl

theorem listToValues_listToData : (js : List Json) →
    Data.listToValues (listToData js) = .ok (listToValues js)
  | [] => rfl
  | j :: js => by
    unfold listToData listToValues Data.listToValues
    rw [toValue_toData j,listToValues_listToData js]
    rfl

theorem partsToEntries_entriesToParts (before : List (String × Value)) :
    (es : List (String × Json)) → Data.partsToEntries none before (entriesToParts es) =
      .ok (Table.merge before (entriesToValues es))
  | [] => rfl
  | (k,j) :: es => by
    have hrest := partsToEntries_entriesToParts (Table.insert k j.toValue before) es
    unfold entriesToParts entriesToValues Data.partsToEntries
    simp only [Data.toKey,bind,Except.bind]
    unfold Data.partsToEntries
    simp only [toValue_toData j,bind,Except.bind]
    exact hrest

end

theorem means_number_iff (n : JsonNumber) (v : Value) : Means (.number n) v ↔ v = n.toValue := by
  constructor
  · intro h
    cases h with
    | @integer _ i hi =>
      cases n with
      | nat n =>
        have hn : (n.toNat : Int) = i.toInt := Option.some.inj hi
        rw [JsonNumber.toValue,hn,Value.ofInt_toInt]
      | neg n =>
        have hn : n = i := Int64.toInt_inj.mp (Option.some.inj hi)
        rw [hn]
        rfl
      | float x => cases hi
    | large h => exact (Value.ofInt_of_large h).symm
    | float => rfl
  · rintro rfl
    cases n with
    | nat n =>
      by_cases h : Int64.maxValue.toInt < n.toNat
      · rw [JsonNumber.toValue,Value.ofInt_of_large h]
        exact .large h
      · have hmax : Int64.maxValue.toInt = 2^63-1 := rfl
        have hn : (Int64.ofInt n.toNat).toInt = n.toNat :=
          Int64.toInt_ofInt_of_le (by omega) (by omega)
        rw [JsonNumber.toValue,← hn,Value.ofInt_toInt]
        exact .integer (congrArg some hn.symm)
    | neg n => exact .integer rfl
    | float x => exact .float

mutual

theorem means_iff : (j : Json) → j.Ordered → (v : Value) → (Means j v ↔ v = j.toValue)
  | .null, _, v | .bool _, _, v | .str _, _, v => by
    constructor
    · intro h
      cases h
      rfl
    · rintro rfl
      constructor
  | .number n, _, v => means_number_iff n v
  | .arr items, h, v => by
    constructor
    · intro hv
      cases hv with
      | arr hvs => exact congrArg Value.list ((listMeans_iff items h _).mp hvs)
    · rintro rfl
      exact .arr ((listMeans_iff items h _).mpr rfl)
  | .obj entries, h, v => by
    have htable : toValue (.obj entries) = .map (entriesToValues entries) :=
      congrArg Value.map (Table.ofList_of_sorted (sorted_entriesToValues h.1))
    rw [htable]
    constructor
    · intro hv
      cases hv with
      | obj hes => exact congrArg Value.map ((entriesMean_iff entries h.2 _).mp hes)
    · rintro rfl
      exact .obj ((entriesMean_iff entries h.2 _).mpr rfl)

theorem listMeans_iff : (js : List Json) → ListOrdered js → (vs : List Value) →
    (ListMeans js vs ↔ vs = listToValues js)
  | [], _, vs => by
    constructor
    · intro h
      cases h
      rfl
    · rintro rfl
      exact .nil
  | j :: js, h, vs => by
    constructor
    · intro hvs
      cases hvs with
      | cons hv hrest =>
        rw [(means_iff j h.1 _).mp hv,(listMeans_iff js h.2 _).mp hrest]
        rfl
    · rintro rfl
      exact .cons ((means_iff j h.1 _).mpr rfl) ((listMeans_iff js h.2 _).mpr rfl)

theorem entriesMean_iff : (es : List (String × Json)) → EntriesOrdered es →
    (vs : List (String × Value)) → (EntriesMean es vs ↔ vs = entriesToValues es)
  | [], _, vs => by
    constructor
    · intro h
      cases h
      rfl
    · rintro rfl
      exact .nil
  | (k,j) :: es, h, vs => by
    constructor
    · intro hvs
      cases hvs with
      | cons hv hrest =>
        rw [(means_iff j h.1 _).mp hv,(entriesMean_iff es h.2 _).mp hrest]
        rfl
    · rintro rfl
      exact .cons ((means_iff j h.1 _).mpr rfl) ((entriesMean_iff es h.2 _).mpr rfl)

end

/-- As data, a document is the value that it is directly, and never fails. Where the entries of its
objects are in order, as in each document that is read, that is the one value that it means. -/
theorem imports_agree (j : Json) : j.toData.toValue = .ok j.toValue ∧
    (j.Ordered → ∀ v, Means j v ↔ v = j.toValue) ∧
    ∀ text, ofText? text = some j → j.Ordered :=
  ⟨toValue_toData j,fun h => means_iff j h,fun _ => ordered_of_ofText?⟩

theorem imports_agree_on_large_number :
    let text := "\x7b\"a\":[18446744073709551615,null],\"b\":-1\x7d"
    let j : Json := .obj [("a",.arr [.number (.nat 18446744073709551615),.null]),
      ("b",.number (.neg (-1)))]
    let v : Value := .map [("a",.list [.float (Binary64.ofInt 18446744073709551615),.none]),
      ("b",.int (-1))]
    ofText? text = some j ∧ j.Ordered ∧ j.toData.toValue = .ok v ∧ Means j v := by
  intro text j v
  have htext : ofText? text = some j := by
    simp only [text,j]
    with_unfolding_all rfl
  have hvalue : v = j.toValue := by rfl
  obtain ⟨hdata,hmeans,hread⟩ := imports_agree j
  have hordered := hread text htext
  exact ⟨htext,hordered,hdata.trans (congrArg Except.ok hvalue.symm),
    (hmeans hordered v).mpr hvalue⟩

end Json

end Stencil
