import Mathlib.Data.List.Forall2
import Stencil.Data
import Stencil.Proofs.Outcome

set_option autoImplicit false

namespace Stencil

theorem Integer.textOfInt_eq_repr (n : Int) : Integer.textOfInt n = n.repr := by
  unfold Integer.textOfInt Decimal.toDigits
  cases n with
  | ofNat n => rfl
  | negSucc n =>
    have hneg : Int.negSucc n < 0 := Int.negSucc_lt_zero n
    rw [if_pos hneg]
    rfl

namespace Data

/-- The text of a text, a character, a truth value, an integer of any width or a variant without
contents, all of which may be present and under other names. -/
inductive HasText : Data → String → Prop
  | str {s} : HasText (.str s) s
  | char {c} : HasText (.char c) (String.singleton c)
  | true : HasText (.bool Bool.true) "true"
  | false : HasText (.bool Bool.false) "false"
  | integer {n} : HasText (.integer n) n.repr
  | wide {signed n} : HasText (.wide signed n) n.repr
  | unitVariant {name} : HasText (.unitVariant name) name
  | present {d s} : HasText d s → HasText (.present d) s
  | wrapped {d s} : HasText d s → HasText (.wrapped d) s

/-- An integer of 128 bits, which may be present and under other names. -/
inductive IsWide : Data → Prop
  | wide {signed n} : IsWide (.wide signed n)
  | present {d} : IsWide d → IsWide (.present d)
  | wrapped {d} : IsWide d → IsWide (.wrapped d)

mutual

/-- The data can be given, and in its maps each value stands behind a key of its own. -/
def Regular : Data → Prop
  | .failing _ => False
  | .present d | .wrapped d | .variant _ d => d.Regular
  | .seq items | .tupleVariant _ items => ListRegular items
  | .map parts => PartsRegular Bool.false parts
  | .record fields | .recordVariant _ fields => FieldsRegular fields
  | .bool _ | .integer _ | .wide _ _ | .float _ | .char _ | .str _ | .bytes _ | .absent | .unit
  | .unitVariant _ => True

def ListRegular : List Data → Prop
  | [] => True
  | d :: ds => d.Regular ∧ ListRegular ds

/-- The parts of a map behind a key that waits for its value, if `waiting`. -/
def PartsRegular (waiting : Bool) : List (Slot × Data) → Prop
  | [] => True
  | (.key,d) :: parts => d.Regular ∧ PartsRegular Bool.true parts
  | (.value,d) :: parts => waiting = Bool.true ∧ d.Regular ∧ PartsRegular Bool.false parts

def FieldsRegular : List (String × Data) → Prop
  | [] => True
  | (_,d) :: fields => d.Regular ∧ FieldsRegular fields

end

mutual

def maps : Data → List (List (Slot × Data))
  | .present d | .wrapped d | .variant _ d => d.maps
  | .seq items | .tupleVariant _ items => listMaps items
  | .map parts => parts :: partsMaps parts
  | .record fields | .recordVariant _ fields => fieldsMaps fields
  | .bool _ | .integer _ | .wide _ _ | .float _ | .char _ | .str _ | .bytes _ | .absent | .unit
  | .unitVariant _ | .failing _ => []

def listMaps : List Data → List (List (Slot × Data))
  | [] => []
  | d :: ds => d.maps ++ listMaps ds

def partsMaps : List (Slot × Data) → List (List (Slot × Data))
  | [] => []
  | (_,d) :: parts => d.maps ++ partsMaps parts

def fieldsMaps : List (String × Data) → List (List (Slot × Data))
  | [] => []
  | (_,d) :: fields => d.maps ++ fieldsMaps fields

end

def keysOf (parts : List (Slot × Data)) : List Data :=
  (parts.filter (·.1 = .key)).map (·.2)

@[simp] theorem keysOf_nil : keysOf [] = [] := rfl

@[simp] theorem keysOf_key (d : Data) (parts : List (Slot × Data)) :
    keysOf ((.key,d) :: parts) = d :: keysOf parts := rfl

@[simp] theorem keysOf_value (d : Data) (parts : List (Slot × Data)) :
    keysOf ((.value,d) :: parts) = keysOf parts := rfl

def keys (d : Data) : List Data := d.maps.flatMap keysOf

def pairs (waiting : Option Data) : List (Slot × Data) → List (Data × Data)
  | [] => []
  | (.key,d) :: parts => pairs (some d) parts
  | (.value,d) :: parts => (waiting.map (·,d)).toList ++ pairs none parts

def IsKey (d : Data) : Prop := (∃ s, d.HasText s) ∧ ¬d.IsWide

/-- The computation succeeds where `p` holds and nowhere else, and its errors are those of bringing
data in. -/
def SucceedsWhere {α : Type} (p : Prop) (r : Except Cause α) : Prop :=
  ((∃ a, r = .ok a) ↔ p) ∧ ∀ c, r = .error c → c.category = .serialize

namespace SucceedsWhere

variable {α β : Type} {p q : Prop} {r : Except Cause α}

theorem ok {a : α} (hp : p) : SucceedsWhere p (.ok a) :=
  ⟨⟨fun _ => hp,fun _ => ⟨a,rfl⟩⟩,nofun⟩

theorem error {c : Cause} (hp : ¬p) (hc : c.category = .serialize) :
    SucceedsWhere (α := α) p (.error c) :=
  ⟨⟨nofun,fun h => absurd h hp⟩,fun _ h => Except.error.inj h ▸ hc⟩

theorem of_iff (h : SucceedsWhere p r) (hpq : q ↔ p) : SucceedsWhere q r :=
  ⟨h.1.trans hpq.symm,h.2⟩

theorem map (h : SucceedsWhere p r) (g : α → β) : SucceedsWhere p (r.map g) := by
  refine ⟨?_,fun c hc => h.2 c (error_of_map hc)⟩
  rw [← h.1]
  simp [map_eq_ok_iff]

theorem bind {k : α → Except Cause β} (h : SucceedsWhere p r)
    (hk : ∀ a, r = .ok a → SucceedsWhere q (k a)) : SucceedsWhere (p ∧ q) (r >>= k) := by
  cases r with
  | ok a =>
    have hp : p := h.1.mp ⟨a,rfl⟩
    exact (hk a rfl).of_iff (by simp [hp])
  | error c =>
    have hp : ¬p := fun hp => nomatch h.1.mpr hp
    exact error (fun hpq => hp hpq.1) (h.2 c rfl)

end SucceedsWhere

section Keys

variable {d : Data} {s : String} {c : Cause}

theorem hasText_of_toKey : (d : Data) → d.toKey = .ok s → d.HasText s ∧ ¬d.IsWide
  | .bool Bool.true, h | .bool Bool.false, h | .char _, h | .str _, h | .unitVariant _, h => by
    cases h
    exact ⟨by constructor,nofun⟩
  | .integer n, h => by
    cases h
    rw [Integer.textOfInt_eq_repr]
    exact ⟨.integer,nofun⟩
  | .present d, h => by
    obtain ⟨htext,hwide⟩ := hasText_of_toKey d h
    exact ⟨.present htext,fun | .present hw => hwide hw⟩
  | .wrapped d, h => by
    obtain ⟨htext,hwide⟩ := hasText_of_toKey d h
    exact ⟨.wrapped htext,fun | .wrapped hw => hwide hw⟩

theorem toKey_of_hasText (h : d.HasText s) (hwide : ¬d.IsWide) : d.toKey = .ok s := by
  induction h with
  | integer => exact congrArg Except.ok (Integer.textOfInt_eq_repr _)
  | wide => exact absurd .wide hwide
  | present _ ih => exact ih fun h => hwide (.present h)
  | wrapped _ ih => exact ih fun h => hwide (.wrapped h)
  | str | char | true | false | unitVariant => rfl

theorem toKey_eq_ok_iff : d.toKey = .ok s ↔ d.HasText s ∧ ¬d.IsWide :=
  ⟨hasText_of_toKey d,fun h => toKey_of_hasText h.1 h.2⟩

theorem category_of_toKey : (d : Data) → d.toKey = .error c → c.category = .serialize
  | .present d, h | .wrapped d, h => category_of_toKey d h
  | .wide _ _, h | .float _, h | .bytes _, h | .absent, h | .unit, h | .variant _ _, h
  | .tupleVariant _ _, h | .recordVariant _ _, h | .seq _, h | .map _, h | .record _, h
  | .failing _, h => by
    cases h
    rfl

theorem toKey_succeeds (d : Data) : SucceedsWhere d.IsKey d.toKey :=
  ⟨by simp [toKey_eq_ok_iff,IsKey],fun _ => category_of_toKey d⟩

theorem IsKey.plain (h : d.IsKey) : d.Regular ∧ d.maps = [] := by
  obtain ⟨⟨s,htext⟩,-⟩ := h
  induction htext with
  | present _ ih | wrapped _ ih =>
    unfold Regular maps
    exact ih
  | str | char | true | false | integer | wide | unitVariant => simp [Regular,maps]

end Keys

section Domain

variable {d : Data} {ds : List Data} {parts : List (Slot × Data)} {fields : List (String × Data)}
  {waiting : Bool}

def Keyed (maps : List (List (Slot × Data))) : Prop :=
  ∀ parts ∈ maps, ∀ k ∈ keysOf parts, k.IsKey

def InDomain (d : Data) : Prop := d.Regular ∧ Keyed d.maps

def ListInDomain (ds : List Data) : Prop := ListRegular ds ∧ Keyed (listMaps ds)

def PartsInDomain (waiting : Bool) (parts : List (Slot × Data)) : Prop :=
  PartsRegular waiting parts ∧ Keyed (parts :: partsMaps parts)

def FieldsInDomain (fields : List (String × Data)) : Prop :=
  FieldsRegular fields ∧ Keyed (fieldsMaps fields)

@[simp] theorem keyed_nil : Keyed [] := nofun

@[simp] theorem keyed_cons {maps : List (List (Slot × Data))} :
    Keyed (parts :: maps) ↔ (∀ k ∈ keysOf parts, k.IsKey) ∧ Keyed maps :=
  List.forall_mem_cons

@[simp] theorem keyed_append {maps maps' : List (List (Slot × Data))} :
    Keyed (maps ++ maps') ↔ Keyed maps ∧ Keyed maps' :=
  List.forall_mem_append

theorem listInDomain_cons : ListInDomain (d :: ds) ↔ d.InDomain ∧ ListInDomain ds := by
  simp [ListInDomain,InDomain,ListRegular,listMaps,and_and_and_comm]

theorem fieldsInDomain_cons {name : String} :
    FieldsInDomain ((name,d) :: fields) ↔ d.InDomain ∧ FieldsInDomain fields := by
  simp [FieldsInDomain,InDomain,FieldsRegular,fieldsMaps,and_and_and_comm]

theorem partsInDomain_key :
    PartsInDomain waiting ((.key,d) :: parts) ↔ d.IsKey ∧ PartsInDomain Bool.true parts := by
  have hplain : d.IsKey → d.Regular ∧ Keyed d.maps := fun h => ⟨h.plain.1,by simp [h.plain.2]⟩
  simp only [PartsInDomain,PartsRegular,partsMaps,keyed_cons,keyed_append,keysOf_key,
    List.forall_mem_cons]
  tauto

theorem partsInDomain_value : PartsInDomain waiting ((.value,d) :: parts) ↔
    waiting = Bool.true ∧ d.InDomain ∧ PartsInDomain Bool.false parts := by
  simp only [PartsInDomain,InDomain,PartsRegular,partsMaps,keyed_cons,keyed_append,keysOf_value]
  tauto

mutual

/-- By recursion on the data, as it is brought in. -/
theorem toValue_succeeds : (d : Data) → SucceedsWhere d.InDomain d.toValue
  | .bool _ | .integer _ | .wide _ _ | .float _ | .char _ | .str _ | .bytes _ | .absent | .unit
  | .unitVariant _ => .ok (by simp [InDomain,Regular,maps])
  | .present d | .wrapped d => toValue_succeeds d
  | .variant _ d => (toValue_succeeds d).map _
  | .seq items | .tupleVariant _ items => (listToValues_succeeds items).map _
  | .map parts => (partsToEntries_succeeds none [] parts).map _
  | .record fields | .recordVariant _ fields => (fieldsToEntries_succeeds [] fields).map _
  | .failing _ => .error (fun h => h.1) rfl

theorem listToValues_succeeds : (ds : List Data) → SucceedsWhere (ListInDomain ds) (listToValues ds)
  | [] => .ok (by simp [ListInDomain,ListRegular,listMaps])
  | d :: ds => by
    refine SucceedsWhere.of_iff ?_ listInDomain_cons
    exact (toValue_succeeds d).bind fun v _ => (listToValues_succeeds ds).map (v :: ·)

theorem partsToEntries_succeeds (waiting : Option String) (entries : List (String × Value)) :
    (parts : List (Slot × Data)) →
    SucceedsWhere (PartsInDomain waiting.isSome parts) (partsToEntries waiting entries parts)
  | [] => .ok (by simp [PartsInDomain,PartsRegular,partsMaps])
  | (.key,d) :: parts => by
    refine SucceedsWhere.of_iff ?_ partsInDomain_key
    exact (toKey_succeeds d).bind fun key _ => partsToEntries_succeeds (some key) entries parts
  | (.value,d) :: parts => by
    cases waiting with
    | none => exact .error (fun h => Bool.noConfusion (partsInDomain_value.mp h).1) rfl
    | some key =>
      refine SucceedsWhere.of_iff ?_ (partsInDomain_value.trans (and_iff_right rfl))
      exact (toValue_succeeds d).bind fun v _ =>
        partsToEntries_succeeds none (Table.insert key v entries) parts

theorem fieldsToEntries_succeeds (entries : List (String × Value)) :
    (fields : List (String × Data)) →
    SucceedsWhere (FieldsInDomain fields) (fieldsToEntries entries fields)
  | [] => .ok (by simp [FieldsInDomain,FieldsRegular,fieldsMaps])
  | (name,d) :: fields => by
    refine SucceedsWhere.of_iff ?_ fieldsInDomain_cons
    exact (toValue_succeeds d).bind fun v _ =>
      fieldsToEntries_succeeds (Table.insert name v entries) fields

end

mutual

theorem InDomain.of_mem_maps : (d : Data) → d.InDomain → ∀ parts ∈ d.maps, (map parts).InDomain
  | .present d, h | .wrapped d, h | .variant _ d, h => InDomain.of_mem_maps d h
  | .seq items, h | .tupleVariant _ items, h => inDomain_of_mem_listMaps items h
  | .map parts, h => List.forall_mem_cons.mpr ⟨h,inDomain_of_mem_partsMaps parts h⟩
  | .record fields, h | .recordVariant _ fields, h => inDomain_of_mem_fieldsMaps fields h
  | .bool _, _ | .integer _, _ | .wide _ _, _ | .float _, _ | .char _, _ | .str _, _ | .bytes _, _
  | .absent, _ | .unit, _ | .unitVariant _, _ | .failing _, _ => by simp [maps]

theorem inDomain_of_mem_listMaps : (ds : List Data) → ListInDomain ds →
    ∀ parts ∈ listMaps ds, (map parts).InDomain
  | [], _ => by simp [listMaps]
  | d :: ds, h => by
    obtain ⟨hd,hds⟩ := listInDomain_cons.mp h
    exact List.forall_mem_append.mpr ⟨InDomain.of_mem_maps d hd,inDomain_of_mem_listMaps ds hds⟩

theorem inDomain_of_mem_partsMaps {waiting : Bool} : (parts : List (Slot × Data)) →
    PartsInDomain waiting parts → ∀ inner ∈ partsMaps parts, (map inner).InDomain
  | [], _ => by simp [partsMaps]
  | (.key,d) :: parts, h => by
    obtain ⟨hkey,hparts⟩ := partsInDomain_key.mp h
    rw [partsMaps,hkey.plain.2]
    exact inDomain_of_mem_partsMaps parts hparts
  | (.value,d) :: parts, h => by
    obtain ⟨-,hd,hparts⟩ := partsInDomain_value.mp h
    exact List.forall_mem_append.mpr
      ⟨InDomain.of_mem_maps d hd,inDomain_of_mem_partsMaps parts hparts⟩

theorem inDomain_of_mem_fieldsMaps : (fields : List (String × Data)) → FieldsInDomain fields →
    ∀ parts ∈ fieldsMaps fields, (map parts).InDomain
  | [], _ => by simp [fieldsMaps]
  | (_,d) :: fields, h => by
    obtain ⟨hd,hfields⟩ := fieldsInDomain_cons.mp h
    exact List.forall_mem_append.mpr
      ⟨InDomain.of_mem_maps d hd,inDomain_of_mem_fieldsMaps fields hfields⟩

end

theorem inDomain_iff : d.InDomain ↔ d.Regular ∧ ∀ k ∈ d.keys, k.IsKey := by
  simp [InDomain,Keyed,keys,List.mem_flatMap]
  tauto

end Domain

/-- What the entries of a map become: each key its text, and each value what it stands for. -/
def Entered (p : Data × Data) (e : String × Value) : Prop :=
  p.1.HasText e.1 ∧ p.2.toValue = .ok e.2

theorem entered_of_partsToEntries (parts : List (Slot × Data)) {waiting : Option Data}
    {text : Option String} {before es : List (String × Value)}
    (hwaiting : Option.Rel HasText waiting text)
    (h : partsToEntries text before parts = .ok es) :
    ∃ entries, es = Table.merge before entries ∧
      List.Forall₂ Entered (pairs waiting parts) entries := by
  induction parts generalizing waiting text before with
  | nil =>
    cases h
    exact ⟨[],rfl,.nil⟩
  | cons part parts ih =>
    obtain ⟨slot,d⟩ := part
    unfold partsToEntries at h
    cases slot with
    | key =>
      obtain ⟨key,hkey,h⟩ := bind_eq_ok_iff.mp h
      exact ih (.some (hasText_of_toKey d hkey).1) h
    | value =>
      cases hwaiting with
      | none => cases h
      | @some k key hkey =>
        obtain ⟨v,hv,h⟩ := bind_eq_ok_iff.mp h
        obtain ⟨entries,rfl,hentries⟩ := ih .none h
        exact ⟨(key,v) :: entries,rfl,.cons ⟨hkey,hv⟩ hentries⟩

theorem toValue_map {parts : List (Slot × Data)} {v : Value}
    (h : (Data.map parts).toValue = .ok v) :
    ∃ entries, v = .map (Table.ofList entries) ∧
      List.Forall₂ Entered (pairs none parts) entries := by
  obtain ⟨es,hes,rfl⟩ := map_eq_ok_iff.mp h
  obtain ⟨entries,rfl,hentries⟩ := entered_of_partsToEntries parts .none hes
  exact ⟨entries,rfl,hentries⟩

/-- Data can be brought in if and only if it can be given at all, with a key in front of each value of
a map, and every key in it has a text and is no integer of 128 bits. Otherwise there is an error of
bringing data in. In each map of data that can be brought in the keys become their texts. -/
theorem toValue_where_keys_have_texts (d : Data) :
    ((∃ v, d.toValue = .ok v) ↔
      d.Regular ∧ ∀ k ∈ d.keys, (∃ s, k.HasText s) ∧ ¬k.IsWide) ∧
    ((¬∃ v, d.toValue = .ok v) → ∃ c, d.toValue = .error c ∧ c.category = .serialize) ∧
    ((∃ v, d.toValue = .ok v) → ∀ parts ∈ d.maps, ∃ entries,
      (Data.map parts).toValue = .ok (.map (Table.ofList entries)) ∧
      List.Forall₂ Entered (pairs none parts) entries) := by
  obtain ⟨hiff,hcategory⟩ := toValue_succeeds d
  refine ⟨hiff.trans inDomain_iff,fun hnone => ?_,fun hsome parts hparts => ?_⟩
  · cases h : d.toValue with
    | ok v => exact absurd ⟨v,h⟩ hnone
    | error c => exact ⟨c,rfl,hcategory c h⟩
  · obtain ⟨v,hv⟩ := (toValue_succeeds (.map parts)).1.mpr
      (InDomain.of_mem_maps d (hiff.mp hsome) parts hparts)
    obtain ⟨entries,rfl,hentries⟩ := toValue_map hv
    exact ⟨entries,hv,hentries⟩

/-- An integer as a key in a map that is the value of another map, and a float as a key. -/
theorem toValue_where_keys_have_texts_of_nested :
    let inner : List (Slot × Data) := [(.key,.present (.integer (-7))),(.value,.unit)]
    let d : Data := .seq [.map [(.key,.bool Bool.true),(.value,.map inner)]]
    let refused : Data := .map [(.key,.wrapped (.float .invalid)),(.value,.unit)]
    (d.Regular ∧ (∃ v, d.toValue = .ok v) ∧ inner ∈ d.maps ∧ ∃ entries,
      (Data.map inner).toValue = .ok (.map (Table.ofList entries)) ∧
      List.Forall₂ Entered [(.present (.integer (-7)),.unit)] entries) ∧
    refused.Regular ∧ (¬∃ v, refused.toValue = .ok v) ∧
      ∃ c, refused.toValue = .error c ∧ c.category = .serialize := by
  intro inner d refused
  have hregular : d.Regular := by
    simp [d,inner,Regular,ListRegular,PartsRegular]
  have hkeys : ∀ k ∈ d.keys, (∃ s, k.HasText s) ∧ ¬k.IsWide := by
    have hd : d.keys = [.bool Bool.true,.present (.integer (-7))] := rfl
    rw [hd]
    simp only [List.forall_mem_cons]
    exact ⟨⟨⟨_,.true⟩,nofun⟩,⟨⟨_,.present .integer⟩,fun | .present h => nomatch h⟩,nofun⟩
  have hsome : ∃ v, d.toValue = .ok v := (toValue_where_keys_have_texts d).1.mpr ⟨hregular,hkeys⟩
  have hmem : inner ∈ d.maps := by
    simp [d,maps,listMaps,partsMaps]
  have hrefused : ¬∃ v, refused.toValue = .ok v := nofun
  refine ⟨⟨hregular,hsome,hmem,?_⟩,?_,hrefused,?_⟩
  · exact (toValue_where_keys_have_texts d).2.2 hsome inner hmem
  · simp [refused,Regular,PartsRegular]
  · exact (toValue_where_keys_have_texts refused).2.1 hrefused

/-- An integer of 128 bits has a text, and is refused as a key. -/
theorem toValue_refuses_wide_key :
    let d : Data := .map [(.key,.wide Bool.true 1),(.value,.str "x")]
    d.Regular ∧ (∀ k ∈ d.keys, k.HasText "1") ∧ d.toValue = .error (.unsupported "i128") := by
  intro d
  have hkeys : d.keys = [.wide Bool.true 1] := rfl
  refine ⟨by simp [d,Regular,PartsRegular],fun k hk => ?_,rfl⟩
  rw [hkeys,List.mem_singleton] at hk
  exact hk ▸ .wide

end Data

end Stencil
