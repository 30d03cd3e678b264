import Mathlib.Data.List.Forall2
import Stencil.Proofs.Value.Order
import Stencil.Proofs.Value.Unmarked
import Stencil.Term.Eval

/-!
The equality of the language: reflexive, not-a-number included, and symmetric. Lists and maps are equal
where their parts are. Of two numbers either one is less or they are equal. Which texts are safe is not
seen.
-/

set_option autoImplicit false

namespace Stencil

namespace Table

variable {α β : Type} {R : α → β → Prop}

theorem isSome_of_rel {a : Option α} {b : Option β} (h : Option.Rel R a b) :
    a.isSome = b.isSome := by
  cases h <;> rfl

/-- Tables in order whose entries are related one by one, under the same names, are those that give
related answers to every name. -/
theorem forall₂_iff_of_sorted (R : α → β → Prop) {es : List (String × α)} {fs : List (String × β)}
    (hes : Sorted es) (hfs : Sorted fs) :
    List.Forall₂ (fun e f => e.1 = f.1 ∧ R e.2 f.2) es fs ↔
      ∀ key, Option.Rel R (get? es key) (get? fs key) := by
  constructor
  · intro h key
    induction h with
    | nil => exact .none
    | cons h _ ih =>
      have hrest := ih (List.pairwise_cons.mp hes).2 (List.pairwise_cons.mp hfs).2
      rw [get?,get?,h.1]
      split
      · exact .some h.2
      · exact hrest
  · intro h
    induction es generalizing fs with
    | nil =>
      cases fs with
      | nil => exact .nil
      | cons f fs => simpa [get?] using isSome_of_rel (h f.1)
    | cons e es ih =>
      cases fs with
      | nil => simpa [get?] using isSome_of_rel (h e.1)
      | cons f fs =>
        have hfirst := first_eq_of_contains_eq hes hfs fun key => isSome_of_rel (h key)
        obtain ⟨k,v⟩ := e
        obtain ⟨l,w⟩ := f
        obtain rfl : k = l := hfirst
        have hvalue : R v w := by simpa [get?] using h k
        have hrest := forall_rest hes hfs .none h
        exact .cons ⟨rfl,hvalue⟩
          (ih (List.pairwise_cons.mp hes).2 (List.pairwise_cons.mp hfs).2 hrest)

end Table

namespace BinaryOp

/-- What the comparisons of two values answer, all of them by these three. -/
structure Comparisons (a b : Value) (less equal greater : Bool) : Prop where
  lt : BinaryOp.lt.apply a b = .ok (.bool less)
  eq : BinaryOp.eq.apply a b = .ok (.bool equal)
  gt : BinaryOp.gt.apply a b = .ok (.bool greater)
  le : BinaryOp.le.apply a b = .ok (.bool !greater)
  ge : BinaryOp.ge.apply a b = .ok (.bool !less)
  ne : BinaryOp.ne.apply a b = .ok (.bool !equal)

end BinaryOp

namespace Value

variable {v w : Value}

theorem comparesEqual_self (n : Number) : n.toValue.comparesEqual n.toValue = true := by
  rw [comparesEqual_iff,compareNumbers_eq_iff (toNumber_toValue n) (toNumber_toValue n)]
  exact Number.compare_self n

theorem comparesEqual_comm (v w : Value) : v.comparesEqual w = w.comparesEqual v := by
  rw [Bool.eq_iff_iff,comparesEqual_iff,comparesEqual_iff,compareNumbers_eq_ok_iff,
    compareNumbers_eq_ok_iff]
  constructor
  · rintro ⟨m,n,hv,hw,h⟩
    exact ⟨n,m,hw,hv,Number.compare_eq_symm h⟩
  · rintro ⟨m,n,hw,hv,h⟩
    exact ⟨n,m,hv,hw,Number.compare_eq_symm h⟩

variable (floats : Binary64 → Binary64 → Bool)

mutual

theorem isEqualBy_self : (v : Value) → v.isEqualBy floats v = true
  | .none => rfl
  | .bool b => beq_self_eq_true b
  | .int n => comparesEqual_self (.int n)
  | .float x => comparesEqual_self (.float x)
  | .str s | .safe s => beq_self_eq_true s
  | .list vs => by simp [isEqualBy,isNumeric,areEqualBy_self vs]
  | .map es => by simp [isEqualBy,isNumeric,entriesEqualBy_self es]

theorem areEqualBy_self : (vs : List Value) → areEqualBy floats vs vs = true
  | [] => rfl
  | v :: vs => by simp [areEqualBy,isEqualBy_self v,areEqualBy_self vs]

theorem entriesEqualBy_self : (es : List (String × Value)) → entriesEqualBy floats es es = true
  | [] => rfl
  | (k,v) :: es => by simp [entriesEqualBy,isEqualBy_self v,entriesEqualBy_self es]

end

mutual

theorem isEqualBy_comm : (v w : Value) → v.isEqualBy floats w = w.isEqualBy floats v
  | .none, w => by cases w <;> rfl
  | .bool a, w => by
    cases w with
    | bool b => exact Bool.beq_comm
    | none | int | float | str | safe | list | map => rfl
  | .int _, w | .float _, w => by
    cases w with
    | int | float => exact comparesEqual_comm ..
    | none | bool | str | safe | list | map => rfl
  | .str s, w | .safe s, w => by
    cases w with
    | str t | safe t => exact BEq.comm
    | none | bool | int | float | list | map => rfl
  | .list vs, w => by
    cases w with
    | list ws => simp only [isEqualBy,isNumeric,areEqualBy_comm vs ws,BEq.comm (a := vs.length)]
    | none | bool | int | float | str | safe | map => rfl
  | .map es, w => by
    cases w with
    | map fs => simp only [isEqualBy,isNumeric,entriesEqualBy_comm es fs,BEq.comm (a := es.length)]
    | none | bool | int | float | str | safe | list => rfl

theorem areEqualBy_comm : (vs ws : List Value) → areEqualBy floats vs ws = areEqualBy floats ws vs
  | [], [] | [], _ :: _ | _ :: _, [] => rfl
  | v :: vs, w :: ws => by simp only [areEqualBy,isEqualBy_comm v w,areEqualBy_comm vs ws]

theorem entriesEqualBy_comm : (es fs : List (String × Value)) →
    entriesEqualBy floats es fs = entriesEqualBy floats fs es
  | [], [] | [], _ :: _ | _ :: _, [] => rfl
  | (k,v) :: es, (l,w) :: fs => by
    simp only [entriesEqualBy,isEqualBy_comm v w,entriesEqualBy_comm es fs,BEq.comm (a := k) (b := l)]

end

mutual

/-- No float is left to the comparison part by part, so that any equality of floats may stand there. -/
theorem isEqualBy_eq_isEqual : (v w : Value) → v.isEqualBy floats w = v.isEqual w
  | .none, w | .bool _, w | .int _, w | .float _, w | .str _, w | .safe _, w => by cases w <;> rfl
  | .list vs, w => by
    cases w with
    | list ws => simp only [isEqual,isEqualBy,isNumeric,areEqualBy_eq vs ws]
    | none | bool | int | float | str | safe | map => rfl
  | .map es, w => by
    cases w with
    | map fs => simp only [isEqual,isEqualBy,isNumeric,entriesEqualBy_eq es fs]
    | none | bool | int | float | str | safe | list => rfl

theorem areEqualBy_eq : (vs ws : List Value) →
    areEqualBy floats vs ws = areEqualBy Binary64.sameNumber vs ws
  | [], [] | [], _ :: _ | _ :: _, [] => rfl
  | v :: vs, w :: ws => by
    simp only [areEqualBy,isEqualBy_eq_isEqual v w,areEqualBy_eq vs ws,isEqual]

theorem entriesEqualBy_eq : (es fs : List (String × Value)) →
    entriesEqualBy floats es fs = entriesEqualBy Binary64.sameNumber es fs
  | [], [] | [], _ :: _ | _ :: _, [] => rfl
  | (k,v) :: es, (l,w) :: fs => by
    simp only [entriesEqualBy,isEqualBy_eq_isEqual v w,entriesEqualBy_eq es fs,isEqual]

end

theorem length_unmarkedItems (vs : List Value) : (unmarkedItems vs).length = vs.length := by
  induction vs with
  | nil => rfl
  | cons v vs ih => simp [unmarkedItems,ih]

theorem length_unmarkedEntries (es : List (String × Value)) :
    (unmarkedEntries es).length = es.length := by
  induction es with
  | nil => rfl
  | cons e es ih => simp [unmarkedEntries,ih]

mutual

theorem isEqualBy_unmarked : (v w : Value) →
    v.unmarked.isEqualBy floats w.unmarked = v.isEqualBy floats w
  | .none, w | .bool _, w | .int _, w | .float _, w | .str _, w | .safe _, w => by cases w <;> rfl
  | .list vs, w => by
    cases w with
    | list ws =>
      simp only [unmarked,isEqualBy,isNumeric,length_unmarkedItems,areEqualBy_unmarked vs ws]
    | none | bool | int | float | str | safe | map => rfl
  | .map es, w => by
    cases w with
    | map fs =>
      simp only [unmarked,isEqualBy,isNumeric,length_unmarkedEntries,entriesEqualBy_unmarked es fs]
    | none | bool | int | float | str | safe | list => rfl

theorem areEqualBy_unmarked : (vs ws : List Value) →
    areEqualBy floats (unmarkedItems vs) (unmarkedItems ws) = areEqualBy floats vs ws
  | [], [] | [], _ :: _ | _ :: _, [] => rfl
  | v :: vs, w :: ws => by
    simp only [unmarkedItems,areEqualBy,isEqualBy_unmarked v w,areEqualBy_unmarked vs ws]

theorem entriesEqualBy_unmarked : (es fs : List (String × Value)) →
    entriesEqualBy floats (unmarkedEntries es) (unmarkedEntries fs) = entriesEqualBy floats es fs
  | [], [] | [], _ :: _ | _ :: _, [] => rfl
  | (k,v) :: es, (l,w) :: fs => by
    simp only [unmarkedEntries,entriesEqualBy,isEqualBy_unmarked v w,entriesEqualBy_unmarked es fs]

end

theorem isEqual_unmarked (v w : Value) : v.unmarked.isEqual w.unmarked = v.isEqual w :=
  isEqualBy_unmarked _ v w

theorem isEqual_list_iff {vs ws : List Value} : isEqual (.list vs) (.list ws) = true ↔
    List.Forall₂ (fun v w => v.isEqual w = true) vs ws := by
  simp only [isEqual,isEqualBy,isNumeric,Bool.and_eq_true,beq_iff_eq]
  induction vs generalizing ws with
  | nil => cases ws <;> simp [areEqualBy]
  | cons v vs ih =>
    cases ws with
    | nil => simp
    | cons w ws => simp [areEqualBy,← ih,and_left_comm]

theorem isEqual_map_iff_forall₂ {es fs : List (String × Value)} :
    isEqual (.map es) (.map fs) = true ↔
      List.Forall₂ (fun e f => e.1 = f.1 ∧ e.2.isEqual f.2 = true) es fs := by
  simp only [isEqual,isEqualBy,isNumeric,Bool.and_eq_true,beq_iff_eq]
  induction es generalizing fs with
  | nil => cases fs <;> simp [entriesEqualBy]
  | cons e es ih =>
    cases fs with
    | nil => simp
    | cons f fs => simp [entriesEqualBy,← ih,and_assoc,and_left_comm]

theorem isEqual_map_iff {es fs : List (String × Value)} (hes : Table.Sorted es)
    (hfs : Table.Sorted fs) : isEqual (.map es) (.map fs) = true ↔
      ∀ key, Option.Rel (fun v w => v.isEqual w = true) (Table.get? es key) (Table.get? fs key) := by
  rw [isEqual_map_iff_forall₂]
  exact Table.forall₂_iff_of_sorted (fun v w => v.isEqual w = true) hes hfs

theorem isEqual_toValue (m n : Number) :
    m.toValue.isEqual n.toValue = (m.compare n == .eq) := by
  rw [Bool.eq_iff_iff,isEqual_iff (isNumeric_iff.mpr ⟨m,rfl⟩) (isNumeric_iff.mpr ⟨n,rfl⟩),
    compareNumbers_eq_iff (toNumber_toValue m) (toNumber_toValue n),beq_iff_eq]

theorem exists_comparisons (hv : v.isNumeric = true) (hw : w.isNumeric = true) :
    ∃ less equal greater, BinaryOp.Comparisons v w less equal greater ∧
      [less,equal,greater].count true = 1 := by
  obtain ⟨m,rfl⟩ := isNumeric_iff.mp hv
  obtain ⟨n,rfl⟩ := isNumeric_iff.mp hw
  have horder := compareNumbers_eq (toNumber_toValue m) (toNumber_toValue n)
  have hequal := isEqual_toValue m n
  generalize m.compare n = o at horder hequal
  refine ⟨o.isLT,o == .eq,o.isGT,?_,by cases o <;> rfl⟩
  constructor <;> simp only [BinaryOp.apply,BinaryOp.comparison,horder,hequal] <;> cases o <;> rfl

theorem asText?_unmarked (v : Value) : v.unmarked.asText? = v.asText? := by
  cases v <;> rfl

theorem kind_unmarked (h : v.asText? = Option.none) : v.unmarked.kind = v.kind := by
  cases v with
  | str s | safe s => cases h
  | none | bool | int | float | list | map => rfl

theorem any_isEqual_unmarked (items : List Value) (w : Value) :
    (unmarkedItems items).any (fun v => v.isEqual w.unmarked) =
      items.any fun v => v.isEqual w := by
  induction items with
  | nil => rfl
  | cons v items ih => simp only [unmarkedItems,List.any_cons,isEqual_unmarked,ih]

theorem contains_unmarkedEntries (entries : List (String × Value)) (key : String) :
    Table.contains (unmarkedEntries entries) key = Table.contains entries key := by
  induction entries with
  | nil => rfl
  | cons e entries ih =>
    simp only [Table.contains,unmarkedEntries,Table.get?] at ih ⊢
    split <;> simp [ih]

theorem contains_unmarked (v w : Value) : v.unmarked.contains w.unmarked = v.contains w := by
  cases v with
  | str s | safe s =>
    simp only [unmarked,contains,asText?_unmarked]
    cases h : w.asText? with
    | some t => rfl
    | none => simp only [kind_unmarked h]
  | list items => simp only [unmarked,contains,any_isEqual_unmarked]
  | map entries => simp only [unmarked,contains,asText?_unmarked,contains_unmarkedEntries]
  | none | bool | int | float => rfl

/-- The equality of values of any depth is reflexive and symmetric, and no float in them is compared
part by part: any equality of floats in that place gives the same answer. Lists are equal where they
have equal elements one by one, and maps, whose entries are in order, where they give equal answers to
every key. Of two numbers exactly one is less or they are equal; `<=`, `>=` and `!=` are the opposites.
Texts in values may become safe or lose that mark, at any depth, and neither equality nor membership
changes. -/
theorem equality_laws (a b : Value) :
    a.isEqual a = true ∧ a.isEqual b = b.isEqual a ∧
    (∀ floats, a.isEqualBy floats b = a.isEqual b) ∧
    (∀ vs ws, isEqual (.list vs) (.list ws) = true ↔
      List.Forall₂ (fun v w => v.isEqual w = true) vs ws) ∧
    (∀ es fs, Table.Sorted es → Table.Sorted fs → (isEqual (.map es) (.map fs) = true ↔
      ∀ key, Option.Rel (fun v w => v.isEqual w = true) (Table.get? es key) (Table.get? fs key))) ∧
    (a.isNumeric = true → b.isNumeric = true → ∃ less equal greater,
      BinaryOp.Comparisons a b less equal greater ∧ [less,equal,greater].count true = 1) ∧
    ∀ a' b' : Value, a'.unmarked = a.unmarked → b'.unmarked = b.unmarked →
      a'.isEqual b' = a.isEqual b ∧ a'.contains b' = a.contains b := by
  refine ⟨isEqualBy_self _ a,isEqualBy_comm _ a b,fun floats => isEqualBy_eq_isEqual floats a b,
    fun vs ws => isEqual_list_iff,fun es fs hes hfs => isEqual_map_iff hes hfs,exists_comparisons,
    fun a' b' ha hb => ⟨?_,?_⟩⟩
  · rw [← isEqual_unmarked a' b',ha,hb,isEqual_unmarked]
  · rw [← contains_unmarked a' b',ha,hb,contains_unmarked]

/-- Two maps with a safe text or another one beside what is no number, of which one is the negation of
the other and greater, and an integer beside the float that is nearest to it. -/
theorem equality_laws_of_nested :
    let x : Binary64 := .nan true ⟨4,by decide⟩
    let es : List (String × Value) := [("k",.list [.float x,.safe "<b>"])]
    let fs : List (String × Value) := [("k",.list [.float x,.str "<b>"])]
    let a : Value := .int 9007199254740993
    let b : Value := .float (Binary64.ofInt 9007199254740992)
    Table.Sorted es ∧ Table.Sorted fs ∧ (Value.map fs).unmarked = (Value.map es).unmarked ∧
    isEqual (.map fs) (.map es) = true ∧ isSame (.map es) (.map es) = false ∧
    isEqual (.float x) (.float x.neg) = false ∧
    compareNumbers (.float x) (.float x.neg) = .ok .lt ∧
    (∀ key, Option.Rel (fun v w => v.isEqual w = true) (Table.get? fs key) (Table.get? es key)) ∧
    a.isNumeric = true ∧ b.isNumeric = true ∧ ∃ less equal greater,
      BinaryOp.Comparisons a b less equal greater ∧ [less,equal,greater].count true = 1 := by
  intro x es fs a b
  have hes : Table.Sorted es := List.pairwise_singleton ..
  have hfs : Table.Sorted fs := List.pairwise_singleton ..
  obtain ⟨hself,_,_,_,hmap,_,hmarks⟩ := equality_laws (.map es) (.map es)
  obtain ⟨_,_,_,_,_,hnumbers,_⟩ := equality_laws a b
  have hequal : isEqual (.map fs) (.map es) = true :=
    (hmarks (.map fs) (.map es) rfl rfl).1.trans hself
  have hless : compareNumbers (.float x) (.float x.neg) = .ok .lt := by decide +kernel
  have hne : isEqual (.float x) (.float x.neg) = false := by decide +kernel
  exact ⟨hes,hfs,rfl,hequal,rfl,hne,hless,(hmap fs es hfs hes).mp hequal,rfl,rfl,hnumbers rfl rfl⟩

end Value

end Stencil
