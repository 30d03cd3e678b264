import Stencil.Data
import Stencil.Proofs.Number.Notation
import Stencil.Proofs.Scope.Frames
import Stencil.Proofs.Text.Escaped
import Stencil.Value.Access
import Stencil.Value.Text

set_option autoImplicit false

namespace Stencil

namespace Value

/-- The value is a safe text, or holds one at some depth. -/
inductive HoldsSafe : Value → Prop
  | safe {s} : HoldsSafe (.safe s)
  | item {items v} : v ∈ items → HoldsSafe v → HoldsSafe (.list items)
  | entry {entries e} : e ∈ entries → HoldsSafe e.2 → HoldsSafe (.map entries)

def Plain (v : Value) : Prop := ¬v.HoldsSafe

@[simp] theorem plain_none : Plain .none := nofun

@[simp] theorem plain_bool {b : Bool} : (Value.bool b).Plain := nofun

@[simp] theorem plain_int {n : Int64} : (Value.int n).Plain := nofun

@[simp] theorem plain_float {x : Binary64} : (Value.float x).Plain := nofun

@[simp] theorem plain_str {s : String} : (Value.str s).Plain := nofun

@[simp] theorem not_plain_safe {s : String} : ¬(Value.safe s).Plain := fun h => h .safe

@[simp] theorem plain_list {items : List Value} :
    (Value.list items).Plain ↔ ∀ v ∈ items, v.Plain := by
  constructor
  · intro h v hv hsafe
    exact h (.item hv hsafe)
  · intro h hsafe
    cases hsafe with
    | item hv hsafe => exact h _ hv hsafe

@[simp] theorem plain_map {entries : List (String × Value)} :
    (Value.map entries).Plain ↔ ∀ e ∈ entries, e.2.Plain := by
  constructor
  · intro h e he hsafe
    exact h (.entry he hsafe)
  · intro h hsafe
    cases hsafe with
    | entry he hsafe => exact h _ he hsafe

end Value

def Frame.Plain (f : Frame) : Prop := ∀ b ∈ f, b.2.Plain

def Scope.Plain (s : Scope) : Prop := ∀ f ∈ s.frames, Frame.Plain f

theorem Frame.Plain.insert {f : Frame} {name : String} {v : Value} (hf : f.Plain) (hv : v.Plain) :
    Frame.Plain (Table.insert name v f) := by
  intro b hb
  obtain rfl | hb := Table.mem_insert hb
  · exact hv
  · exact hf b hb

namespace Scope.Plain

variable {s : Scope} {f : Frame} {name : String} {v : Value}

theorem root (hf : Frame.Plain f) : (Scope.root f).Plain := by simpa [Scope.Plain,frames,Scope.root]

theorem push (hs : s.Plain) (hf : Frame.Plain f) : (s.push f).Plain := forall_push hs hf

theorem pop (hs : s.Plain) : s.pop.Plain := forall_pop hs

theorem define (hs : s.Plain) (hv : v.Plain) : (s.define name v).Plain :=
  forall_define hs fun _ hf => hf.insert hv

theorem assign (hs : s.Plain) (hv : v.Plain) : (s.assign name v).Plain :=
  forall_assign hs fun _ hf => hf.insert hv

theorem get? (hs : s.Plain) (h : s.get? name = some v) : v.Plain := by
  obtain ⟨f,hf,hget⟩ := List.exists_of_findSome?_eq_some h
  exact hs f hf _ (Table.mem_of_get? hget)

theorem collect (hs : s.Plain) : Frame.Plain s.collect := by
  unfold Scope.Plain at hs
  unfold Scope.collect
  generalize s.frames = fs at hs ⊢
  induction fs with
  | nil => simp [Frame.Plain]
  | cons f fs ih =>
    obtain ⟨hf,hrest⟩ := List.forall_mem_cons.mp hs
    intro b hb
    obtain hb | hb := Table.mem_merge hb
    · exact ih hrest b hb
    · exact hf b hb

end Scope.Plain

def Ensures {ε α : Type} (r : Except ε α) (P : α → Prop) : Prop := ∀ a, r = .ok a → P a

section

variable {ε α β : Type} {P : α → Prop} {Q : β → Prop}

theorem ensures_ok {a : α} (h : P a) : Ensures (.ok a : Except ε α) P := by
  intro _ ha
  cases ha
  exact h

theorem ensures_error {e : ε} : Ensures (.error e : Except ε α) P := nofun

theorem ensures_self {r : Except ε α} : Ensures r fun _ => True := fun _ _ => trivial

theorem Ensures.bind {r : Except ε α} {k : α → Except ε β} (hr : Ensures r P)
    (hk : ∀ a, P a → Ensures (k a) Q) : Ensures (r >>= k) Q := by
  intro b hb
  cases r with
  | error e => cases hb
  | ok a => exact hk a (hr a rfl) b hb

theorem ensures_bind {r : Except ε α} {k : α → Except ε β} (hk : ∀ a, Ensures (k a) Q) :
    Ensures (r >>= k) Q :=
  ensures_self.bind fun a _ => hk a

theorem Ensures.map {r : Except ε α} {g : α → β} (hr : Ensures r P) (hg : ∀ a, P a → Q (g a)) :
    Ensures (r.map g) Q := by
  intro b hb
  cases r with
  | error e => cases hb
  | ok a =>
    cases hb
    exact hg a (hr a rfl)

theorem ensures_ite {c : Prop} [Decidable c] {r r' : Except ε α} (hr : Ensures r P)
    (hr' : Ensures r' P) : Ensures (if c then r else r') P := by
  split
  · exact hr
  · exact hr'

theorem ensures_map {r : Except ε α} {g : α → β} (hg : ∀ a, Q (g a)) : Ensures (r.map g) Q :=
  ensures_self.map fun a _ => hg a

end

namespace Value

theorem plain_arithmetic {onInts : Int64 → Int64 → Except Cause Int64}
    {onFloats : Binary64 → Binary64 → Binary64} (a b : Value) :
    Ensures (arithmetic onInts onFloats a b) Plain := by
  refine ensures_bind fun m => ensures_bind fun n => ?_
  split
  · exact ensures_bind fun _ => ensures_ok plain_int
  · exact ensures_ok plain_float

theorem plain_negate (v : Value) : Ensures v.negate Plain := by
  refine ensures_bind fun n => ?_
  split
  · exact ensures_bind fun _ => ensures_ok plain_int
  · exact ensures_ok plain_float

theorem plain_iterate {v : Value} (hv : v.Plain) :
    Ensures v.iterate fun vs => ∀ u ∈ vs, u.Plain := by
  unfold iterate
  split
  · exact ensures_ok (by simp)
  · exact ensures_ok (plain_list.mp hv)
  · refine ensures_ok fun u hu => ?_
    obtain ⟨e,_,rfl⟩ := List.mem_map.mp hu
    exact plain_str
  · exact ensures_error

theorem plain_element {container : Kind} {items : List Value} {key : Value}
    (h : ∀ v ∈ items, v.Plain) : Ensures (element container items key) Plain := by
  unfold element
  split
  · exact ensures_map fun p => h _ (List.getElem_mem p.isLt)
  · exact ensures_error

theorem plain_entry {entries : List (String × Value)} {key : String}
    (h : ∀ e ∈ entries, e.2.Plain) : Ensures (entry entries key) Plain := by
  unfold entry
  split
  · rename_i v hget
    exact ensures_ok (h _ (Table.mem_of_get? hget))
  · exact ensures_error

theorem plain_index {container key : Value} (h : container.Plain) :
    Ensures (container.index key) Plain := by
  unfold index
  split
  · split
    · exact plain_entry (plain_map.mp h)
    · exact plain_entry (plain_map.mp h)
    · exact plain_entry (plain_map.mp h)
    · exact ensures_error
  · exact plain_element (plain_list.mp h)
  · exact ensures_map fun _ => plain_str
  · exact ensures_map fun _ => plain_str
  · exact ensures_error

theorem plain_slice {container : Value} {start stop step : Option Int64} (h : container.Plain) :
    Ensures (container.slice start stop step) Plain := by
  unfold slice
  split
  · refine Ensures.map (P := fun vs => ∀ v ∈ vs, v.Plain) (ensures_map fun positions v hv => ?_)
      fun vs hvs => plain_list.mpr hvs
    obtain ⟨i,_,hi⟩ := List.mem_filterMap.mp hv
    exact plain_list.mp h v (List.mem_of_getElem? hi)
  · exact ensures_map fun _ => plain_str
  · exact ensures_map fun _ => plain_str
  · exact ensures_error

theorem isInert_of_digits {cs : List Char}
    (h : ∀ c ∈ cs, Decimal.isDigit c = true ∨ c ∈ ['-','.']) : Text.IsInert cs := by
  intro c hc
  have hother : ∀ d ∈ ['&','<','>'], ¬(Decimal.isDigit d = true ∨ d ∈ ['-','.']) := by
    simp [Decimal.isDigit]
  refine ⟨?_,?_,?_⟩
  all_goals
    rintro rfl
    exact hother _ (by simp) (h _ hc)

theorem isInert_boolText (b : Bool) : Text.IsInert (boolText b).toList := by
  cases b <;> simp [boolText,Text.IsInert]

theorem isInert_toText_int (n : Int64) : Text.IsInert (Integer.toText n).toList := by
  have hdigits (k : Nat) : ∀ c ∈ Decimal.toDigits k, Decimal.isDigit c = true :=
    Decimal.Digits.toDigits k
  refine isInert_of_digits fun c hc => ?_
  unfold Integer.toText Integer.textOfInt at hc
  split at hc
  · obtain rfl | hc : c = '-' ∨ c ∈ Decimal.toDigits n.toInt.natAbs := by simpa using hc
    · exact .inr (by simp)
    · exact .inl (hdigits _ c hc)
  · exact .inl (hdigits _ c (by simpa using hc))

theorem digit_of_mem_positional {m : Nat} {e : Int} {c : Char}
    (hc : c ∈ Decimal.positional m e) : Decimal.isDigit c = true ∨ c = '.' := by
  have hdigits : ∀ d ∈ Decimal.toDigits m, Decimal.isDigit d = true := Decimal.Digits.toDigits m
  have hzeros (k : Nat) : ∀ d ∈ List.replicate k '0', Decimal.isDigit d = true :=
    Decimal.Digits.replicate k
  unfold Decimal.positional at hc
  split at hc
  · obtain hc | hc := List.mem_append.mp hc
    · exact .inl (hdigits c hc)
    · exact .inl (hzeros _ c hc)
  · obtain hc | hc := List.mem_append.mp hc
    · obtain hc | hc := List.mem_append.mp (List.mem_of_mem_take hc)
      · exact .inl (hzeros _ c hc)
      · exact .inl (hdigits c hc)
    · obtain rfl | hc := List.mem_cons.mp hc
      · exact .inr rfl
      · obtain hc | hc := List.mem_append.mp (List.mem_of_mem_drop hc)
        · exact .inl (hzeros _ c hc)
        · exact .inl (hdigits c hc)

theorem isInert_toText_float (x : Binary64) : Text.IsInert x.toText.toList := by
  have hminus : Text.IsInert ['-'] := by simp [Text.IsInert]
  have hdigits : Text.IsInert x.digits := by
    refine isInert_of_digits fun c hc => ?_
    unfold Binary64.digits at hc
    split at hc
    · obtain hc | hc := List.mem_append.mp hc
      · exact .inl (Decimal.Digits.toDigits _ c hc)
      · have htail : ∀ d ∈ ['.','0'], Decimal.isDigit d = true ∨ d ∈ ['-','.'] := by
          simp [Decimal.isDigit]
        exact htail c hc
    · exact (digit_of_mem_positional hc).imp_right fun h => by simp [h]
  have hbody : Text.IsInert (if x.isFinite then String.ofList x.digits else "inf").toList := by
    split
    · simpa using hdigits
    · simp [Text.IsInert]
  unfold Binary64.toText
  split
  · simp [Text.IsInert]
  · dsimp only
    split
    · rw [String.toList_append]
      exact hminus.append hbody
    · exact hbody

theorem isEscaped_toMarkup {v : Value} (h : v.Plain) : Text.IsEscaped v.toMarkup.toList := by
  cases v with
  | none => exact Text.IsInert.isEscaped (by simp [toMarkup,Text.IsInert])
  | bool b => exact (isInert_boolText b).isEscaped
  | int n => exact (isInert_toText_int n).isEscaped
  | float x => exact (isInert_toText_float x).isEscaped
  | safe s => exact absurd h not_plain_safe
  | str _ | list _ | map _ => exact Text.isEscaped_escapeHtml _

end Value

namespace Data
open Value

theorem plain_tagged {name : String} {v : Value} (hv : v.Plain) : (tagged name v).Plain := by
  simpa [tagged] using hv

theorem plain_ofInt (i : Int) : (Value.ofInt i).Plain := by
  unfold Value.ofInt
  split
  · exact plain_int
  · exact plain_float

mutual

theorem plain_toValue : (d : Data) → Ensures d.toValue Plain
  | .bool _ => ensures_ok plain_bool
  | .integer n | .wide _ n => ensures_ok (plain_ofInt n)
  | .float _ => ensures_ok plain_float
  | .char _ | .str _ | .unitVariant _ => ensures_ok plain_str
  | .bytes bs => by
    refine ensures_ok (plain_list.mpr fun v hv => ?_)
    obtain ⟨b,_,rfl⟩ := List.mem_map.mp hv
    exact plain_int
  | .absent | .unit => ensures_ok plain_none
  | .present d | .wrapped d => plain_toValue d
  | .variant _ d => (plain_toValue d).map fun _ => plain_tagged
  | .seq items => (plain_listToValues items).map fun _ => plain_list.mpr
  | .tupleVariant _ items =>
    (plain_listToValues items).map fun _ hvs => plain_tagged (plain_list.mpr hvs)
  | .map parts => (plain_partsToEntries none parts (by simp)).map fun _ => plain_map.mpr
  | .record fields => (plain_fieldsToEntries fields (by simp)).map fun _ => plain_map.mpr
  | .recordVariant _ fields =>
    (plain_fieldsToEntries fields (by simp)).map fun _ hes => plain_tagged (plain_map.mpr hes)
  | .failing _ => ensures_error

theorem plain_listToValues : (ds : List Data) →
    Ensures (listToValues ds) fun vs => ∀ v ∈ vs, v.Plain
  | [] => ensures_ok (by simp)
  | d :: ds => (plain_toValue d).bind fun _ hv => (plain_listToValues ds).bind fun _ hvs =>
    ensures_ok (List.forall_mem_cons.mpr ⟨hv,hvs⟩)

theorem plain_partsToEntries (waiting : Option String) {entries : List (String × Value)} :
    (parts : List (Slot × Data)) → (∀ e ∈ entries, e.2.Plain) →
    Ensures (partsToEntries waiting entries parts) fun es => ∀ e ∈ es, e.2.Plain
  | [], h => ensures_ok h
  | (.key,_) :: parts, h => ensures_bind fun key => plain_partsToEntries (some key) parts h
  | (.value,d) :: parts, h => by
    cases waiting with
    | none => exact ensures_error
    | some key =>
      exact (plain_toValue d).bind fun _ hv =>
        plain_partsToEntries none parts (Frame.Plain.insert h hv)

theorem plain_fieldsToEntries {entries : List (String × Value)} :
    (fields : List (String × Data)) → (∀ e ∈ entries, e.2.Plain) →
    Ensures (fieldsToEntries entries fields) fun es => ∀ e ∈ es, e.2.Plain
  | [], h => ensures_ok h
  | (_,d) :: fields, h =>
    (plain_toValue d).bind fun _ hv => plain_fieldsToEntries fields (Frame.Plain.insert h hv)

end

end Data

end Stencil
