import Stencil.Proofs.Json.Import
import Stencil.Proofs.Value.Plain
import Stencil.Render

set_option autoImplicit false

namespace Stencil

namespace Value

mutual

def Ordered : Value → Prop
  | .list items => ListOrdered items
  | .map entries => Table.Sorted entries ∧ EntriesOrdered entries
  | .none | .bool _ | .int _ | .float _ | .str _ | .safe _ => True

def ListOrdered : List Value → Prop
  | [] => True
  | v :: vs => v.Ordered ∧ ListOrdered vs

def EntriesOrdered : List (String × Value) → Prop
  | [] => True
  | (_,v) :: es => v.Ordered ∧ EntriesOrdered es

end

theorem entriesOrdered_iff (es : List (String × Value)) :
    EntriesOrdered es ↔ ∀ e ∈ es, e.2.Ordered := by
  induction es with
  | nil => simp [EntriesOrdered]
  | cons e es ih => simp [EntriesOrdered,ih]

theorem entriesOrdered_insert {es : List (String × Value)} {v : Value} (h : EntriesOrdered es)
    (hv : v.Ordered) (name : String) : EntriesOrdered (Table.insert name v es) := by
  rw [entriesOrdered_iff] at h ⊢
  intro e he
  obtain rfl | he := Table.mem_insert he
  · exact hv
  · exact h e he

mutual

/-- The value with each safe text in it, at any depth, as a text like any other. -/
def unmarked : Value → Value
  | .safe s => .str s
  | .list items => .list (unmarkedItems items)
  | .map entries => .map (unmarkedEntries entries)
  | .none => .none
  | .bool b => .bool b
  | .int n => .int n
  | .float x => .float x
  | .str s => .str s

def unmarkedItems : List Value → List Value
  | [] => []
  | v :: vs => v.unmarked :: unmarkedItems vs

def unmarkedEntries : List (String × Value) → List (String × Value)
  | [] => []
  | (k,v) :: es => (k,v.unmarked) :: unmarkedEntries es

end

theorem keys_unmarkedEntries (es : List (String × Value)) :
    Table.keys (unmarkedEntries es) = Table.keys es := by
  induction es with
  | nil => rfl
  | cons e es ih => simpa [unmarkedEntries,Table.keys] using ih

theorem sorted_unmarkedEntries {es : List (String × Value)} (h : Table.Sorted es) :
    Table.Sorted (unmarkedEntries es) :=
  Table.sorted_of_keys_eq (keys_unmarkedEntries es) h

mutual

theorem unmarked_of_plain : (v : Value) → v.Plain → v.unmarked = v
  | .none, _ | .bool _, _ | .int _, _ | .float _, _ | .str _, _ => rfl
  | .safe _, h => absurd h not_plain_safe
  | .list items, h => congrArg list (unmarkedItems_of_plain items (plain_list.mp h))
  | .map entries, h => congrArg map (unmarkedEntries_of_plain entries (plain_map.mp h))

theorem unmarkedItems_of_plain : (vs : List Value) → (∀ v ∈ vs, v.Plain) → unmarkedItems vs = vs
  | [], _ => rfl
  | v :: vs, h => by
    obtain ⟨hv,hvs⟩ := List.forall_mem_cons.mp h
    simp [unmarkedItems,unmarked_of_plain v hv,unmarkedItems_of_plain vs hvs]

theorem unmarkedEntries_of_plain : (es : List (String × Value)) → (∀ e ∈ es, e.2.Plain) →
    unmarkedEntries es = es
  | [], _ => rfl
  | (k,v) :: es, h => by
    obtain ⟨hv,hes⟩ := List.forall_mem_cons.mp h
    simp [unmarkedEntries,unmarked_of_plain v hv,unmarkedEntries_of_plain es hes]

end

end Value

namespace Data
open Value

theorem ordered_ofInt (i : Int) : (Value.ofInt i).Ordered := by
  unfold Value.ofInt
  split <;> simp [Ordered]

theorem ordered_tagged {name : String} {v : Value} (hv : v.Ordered) : (tagged name v).Ordered := by
  simpa [tagged,Ordered,EntriesOrdered,Table.Sorted] using hv

mutual

theorem ordered_toValue : (d : Data) → Ensures d.toValue Ordered
  | .bool _ | .float _ | .char _ | .str _ | .unitVariant _ | .absent | .unit =>
    ensures_ok (by simp [Ordered])
  | .integer n | .wide _ n => ensures_ok (ordered_ofInt n)
  | .bytes bs => by
    refine ensures_ok ?_
    induction bs with
    | nil => simp [Ordered,ListOrdered]
    | cons b bs ih => simpa [Ordered,ListOrdered] using ih
  | .present d | .wrapped d => ordered_toValue d
  | .variant _ d => (ordered_toValue d).map fun _ => ordered_tagged
  | .seq items => (ordered_listToValues items).map fun _ => id
  | .tupleVariant _ items =>
    (ordered_listToValues items).map fun vs (h : ListOrdered vs) => ordered_tagged h
  | .map parts => (ordered_partsToEntries none parts .nil trivial).map fun _ => id
  | .record fields => (ordered_fieldsToEntries fields .nil trivial).map fun _ => id
  | .recordVariant _ fields => (ordered_fieldsToEntries fields .nil trivial).map
    fun es (h : Table.Sorted es ∧ EntriesOrdered es) => ordered_tagged h
  | .failing _ => ensures_error

theorem ordered_listToValues : (ds : List Data) → Ensures (listToValues ds) ListOrdered
  | [] => ensures_ok trivial
  | d :: ds => (ordered_toValue d).bind fun _ hv => (ordered_listToValues ds).bind fun _ hvs =>
    ensures_ok ⟨hv,hvs⟩

theorem ordered_partsToEntries (waiting : Option String) {entries : List (String × Value)} :
    (parts : List (Slot × Data)) → Table.Sorted entries → EntriesOrdered entries →
    Ensures (partsToEntries waiting entries parts) fun es => Table.Sorted es ∧ EntriesOrdered es
  | [], hsorted, h => ensures_ok ⟨hsorted,h⟩
  | (.key,_) :: parts, hsorted, h =>
    ensures_bind fun key => ordered_partsToEntries (some key) parts hsorted h
  | (.value,d) :: parts, hsorted, h => by
    cases waiting with
    | none => exact ensures_error
    | some key =>
      exact (ordered_toValue d).bind fun v hv => ordered_partsToEntries none parts
        (Table.sorted_insert hsorted key v) (entriesOrdered_insert h hv key)

theorem ordered_fieldsToEntries {entries : List (String × Value)} :
    (fields : List (String × Data)) → Table.Sorted entries → EntriesOrdered entries →
    Ensures (fieldsToEntries entries fields) fun es => Table.Sorted es ∧ EntriesOrdered es
  | [], hsorted, h => ensures_ok ⟨hsorted,h⟩
  | (name,d) :: fields, hsorted, h =>
    (ordered_toValue d).bind fun v hv => ordered_fieldsToEntries fields
      (Table.sorted_insert hsorted name v) (entriesOrdered_insert h hv name)

end

end Data

namespace Value

mutual

/-- By induction on the value: the entries of a map come back one by one, each behind those that
are there. -/
theorem toValue_toData_unmarked : (v : Value) → v.Ordered → v.toData.toValue = .ok v.unmarked
  | .none, _ | .bool _, _ | .float _, _ | .str _, _ | .safe _, _ => rfl
  | .int n, _ => congrArg Except.ok (ofInt_toInt n)
  | .list items, h => by
    unfold toData unmarked Data.toValue
    rw [listToValues_unmarkedItems items h]
    rfl
  | .map entries, h => by
    unfold toData unmarked Data.toValue
    rw [partsToEntries_unmarkedEntries [] entries h.2,
      Table.merge_of_sorted (sorted_unmarkedEntries h.1)]
    rfl

theorem listToValues_unmarkedItems : (vs : List Value) → ListOrdered vs →
    Data.listToValues (listToData vs) = .ok (unmarkedItems vs)
  | [], _ => rfl
  | v :: vs, h => by
    unfold listToData unmarkedItems Data.listToValues
    rw [toValue_toData_unmarked v h.1,listToValues_unmarkedItems vs h.2]
    rfl

theorem partsToEntries_unmarkedEntries (before : List (String × Value)) :
    (es : List (String × Value)) → EntriesOrdered es →
    Data.partsToEntries Option.none before (entriesToParts es) =
      .ok (Table.merge before (unmarkedEntries es))
  | [], _ => rfl
  | (k,v) :: es, h => by
    have hrest := partsToEntries_unmarkedEntries (Table.insert k v.unmarked before) es h.2
    unfold entriesToParts unmarkedEntries Data.partsToEntries
    simp only [Data.toKey,bind,Except.bind]
    unfold Data.partsToEntries
    simp only [toValue_toData_unmarked v h.1,bind,Except.bind]
    exact hrest

end

theorem plain_unmarked {v : Value} (h : v.Ordered) : v.unmarked.Plain :=
  Data.plain_toValue v.toData _ (toValue_toData_unmarked v h)

theorem ordered_unmarked {v : Value} (h : v.Ordered) : v.unmarked.Ordered :=
  Data.ordered_toValue v.toData _ (toValue_toData_unmarked v h)

/-- A value sent through data comes back without its safety marks and otherwise as it was. What came
back comes back as it is, and a template does with the value as data what it does with what came
back. -/
theorem sent_through_data {v : Value} (h : v.Ordered) :
    v.toData.toValue = .ok v.unmarked ∧ v.unmarked.Plain ∧
    v.unmarked.toData.toValue = .ok v.unmarked ∧ (v.Plain → v.unmarked = v) ∧
    ∀ (e : Engine) (doc : Document), e.renderData doc v.toData = e.render doc v.unmarked ∧
      ∀ (σ : Type) (sink : Sink σ) (state : σ),
        e.renderDataTo doc sink state v.toData = e.renderTo doc sink state v.unmarked := by
  have hvalue := toValue_toData_unmarked v h
  have hplain := plain_unmarked h
  have hagain := toValue_toData_unmarked v.unmarked (ordered_unmarked h)
  rw [unmarked_of_plain _ hplain] at hagain
  refine ⟨hvalue,hplain,hagain,unmarked_of_plain v,fun e doc => ⟨?_,fun σ sink state => ?_⟩⟩
  · simp [Engine.renderData,hvalue]
  · simp [Engine.renderDataTo,hvalue]

/-- Safe texts in a list in a map, beside floats that are not numbers: one that signals, with a sign
and a payload, and a quiet one. -/
theorem sent_through_data_of_nested :
    let x : Binary64 := .nan true ⟨4,by decide⟩
    let y : Binary64 := .nan false Binary64.quiet
    let v : Value := .map [("a",.list [.safe "<b>",.float x,.float y]),("b",.safe "&")]
    let w : Value := .map [("a",.list [.str "<b>",.float x,.float y]),("b",.str "&")]
    let doc : Document :=
      ⟨Option.none,"\x7b\x7b b \x7d\x7d",[.echo (.var ⟨"b",⟨3,4⟩⟩) ⟨0,7⟩]⟩
    v.Ordered ∧ v.toData.toValue = .ok w ∧ w.Plain ∧ w.toData.toValue = .ok w ∧
      Engine.standard.renderData doc v.toData = Engine.standard.render doc w := by
  intro x y v w doc
  have hv : v.Ordered := by
    simp only [v,Ordered,ListOrdered,EntriesOrdered,Table.Sorted,and_true,List.pairwise_pair]
    decide
  obtain ⟨hvalue,hplain,hagain,_,hrender⟩ := sent_through_data hv
  exact ⟨hv,hvalue,hplain,hagain,(hrender _ _).1⟩

end Value

end Stencil
