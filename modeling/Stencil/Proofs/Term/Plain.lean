import Stencil.Function.Builtin
import Stencil.Proofs.Value.Plain
import Stencil.Term.Eval

set_option autoImplicit false

namespace Stencil
open Value

theorem UnaryOp.plain_apply (op : UnaryOp) (v : Value) : Ensures (op.apply v) Plain := by
  cases op with
  | not => exact ensures_ok plain_bool
  | neg => exact plain_negate v

theorem BinaryOp.plain_apply (op : BinaryOp) (a : Value) {b : Value} (hb : b.Plain) :
    Ensures (op.apply a b) Plain := by
  cases op with
  | or | and => exact ensures_ok hb
  | eq | ne => exact ensures_ok plain_bool
  | lt | gt | le | ge | isIn => exact ensures_map fun _ => plain_bool
  | add | mul | div | rem => exact plain_arithmetic a b
  | sub => exact ensures_bind fun _ => plain_arithmetic a _

def Function.KeepsPlain (f : Function) : Prop :=
  ∀ args : Args, (∀ v ∈ args.values, v.Plain) → args.scope.Plain → Ensures (f args) Value.Plain

namespace Builtin

theorem plain_get {args : Args} (h : ∀ v ∈ args.values, v.Plain) (i : Nat) :
    Ensures (args.get i) Value.Plain := by
  unfold Args.get
  split
  · rename_i v hv
    exact ensures_ok (h v (List.mem_of_getElem? hv))
  · exact ensures_error

theorem plain_best {wanted : Ordering} {leader : Value} {vs : List Value} (hleader : leader.Plain)
    (hvs : ∀ v ∈ vs, v.Plain) : Ensures (best wanted leader vs) Value.Plain := by
  induction vs generalizing leader with
  | nil => exact ensures_ok hleader
  | cons v vs ih =>
    obtain ⟨hv,hvs⟩ := List.forall_mem_cons.mp hvs
    refine ensures_bind fun order => ih ?_ hvs
    split
    · exact hv
    · exact hleader

theorem keepsPlain_extremum (wanted : Ordering) : (extremum wanted).KeepsPlain := by
  intro args hargs _
  unfold extremum
  dsimp only
  split
  · exact ensures_error
  · rename_i v vs hcandidates
    have hplain : ∀ u ∈ v :: vs, u.Plain := by
      rw [← hcandidates]
      split
      · rename_i items hvalues
        exact plain_list.mp (hargs _ (by simp [hvalues]))
      · exact hargs
    obtain ⟨hv,hvs⟩ := List.forall_mem_cons.mp hplain
    exact plain_best hv hvs

theorem keepsPlain_onText (f : List Char → List Char) : (onText f).KeepsPlain :=
  fun _ _ _ => ensures_bind fun _ => ensures_bind fun _ => ensures_ok plain_str

theorem keepsPlain_get : get.KeepsPlain := by
  intro args hargs hscope
  have hfound (fallback : Value) (h : fallback.Plain) : Ensures (do
      let name ← args.string 0
      return (args.scope.get? name).getD fallback) Value.Plain := by
    refine ensures_bind fun name => ensures_ok ?_
    cases hget : args.scope.get? name with
    | none => exact h
    | some v => exact hscope.get? hget
  unfold get
  dsimp only
  split
  · exact hfound .none plain_none
  · exact (plain_get hargs 1).bind hfound
  · exact ensures_error

theorem keepsPlain_bool : bool.KeepsPlain :=
  fun _ _ _ => ensures_bind fun _ => ensures_bind fun _ => ensures_ok plain_bool

theorem keepsPlain_int : int.KeepsPlain := by
  intro args _ _
  refine ensures_bind fun _ => ensures_bind fun v => ?_
  split
  · exact ensures_ok plain_int
  · exact ensures_bind fun _ => ensures_ok plain_int

theorem keepsPlain_float : float.KeepsPlain := by
  intro args _ _
  refine ensures_bind fun _ => ensures_bind fun v => ?_
  split
  · exact ensures_ok plain_float
  · exact ensures_bind fun _ => ensures_ok plain_float

theorem keepsPlain_str : str.KeepsPlain :=
  fun _ _ _ => ensures_bind fun _ => ensures_bind fun _ => ensures_ok plain_str

theorem keepsPlain_len : len.KeepsPlain := by
  intro args _ _
  refine ensures_bind fun _ => ensures_bind fun v => ?_
  split
  · exact ensures_ok plain_int
  · exact ensures_ok plain_int
  · exact ensures_ok plain_int
  · exact ensures_ok plain_int
  · exact ensures_error

theorem plain_integers (is : List Int64) : (Value.list (is.map .int)).Plain := by
  refine plain_list.mpr fun v hv => ?_
  obtain ⟨i,_,rfl⟩ := List.mem_map.mp hv
  exact plain_int

theorem keepsPlain_range : range.KeepsPlain := by
  intro args _ _
  unfold range
  dsimp only
  split
  · exact ensures_bind fun _ => ensures_bind fun _ =>
      ensures_ite ensures_error (ensures_ok (plain_integers _))
  · exact ensures_bind fun _ => ensures_bind fun _ => ensures_bind fun _ =>
      ensures_ite ensures_error (ensures_ok (plain_integers _))
  · exact ensures_bind fun _ => ensures_bind fun _ => ensures_bind fun _ => ensures_bind fun _ =>
      ensures_ite ensures_error (ensures_ok (plain_integers _))
  · exact ensures_error

theorem keepsPlain_contains : contains.KeepsPlain :=
  fun _ _ _ => ensures_bind fun _ => ensures_bind fun _ => ensures_bind fun _ =>
    ensures_bind fun _ => ensures_ok plain_bool

theorem keepsPlain_replace : replace.KeepsPlain :=
  fun _ _ _ => ensures_bind fun _ => ensures_bind fun _ => ensures_bind fun _ =>
    ensures_bind fun _ => ensures_ok plain_str

theorem keepsPlain_startsWith : startsWith.KeepsPlain :=
  fun _ _ _ => ensures_bind fun _ => ensures_bind fun _ => ensures_bind fun _ =>
    ensures_ok plain_bool

theorem keepsPlain_endsWith : endsWith.KeepsPlain :=
  fun _ _ _ => ensures_bind fun _ => ensures_bind fun _ => ensures_bind fun _ =>
    ensures_ok plain_bool

theorem keepsPlain_join : join.KeepsPlain := by
  intro args _ _
  unfold join
  dsimp only
  split
  · exact ensures_bind fun _ => ensures_bind fun _ => ensures_ok plain_str
  · exact ensures_bind fun _ => ensures_bind fun _ => ensures_ok plain_str
  · exact ensures_error

theorem plain_texts (pieces : List (List Char)) :
    (Value.list (pieces.map fun cs => .str (String.ofList cs))).Plain := by
  refine plain_list.mpr fun v hv => ?_
  obtain ⟨cs,_,rfl⟩ := List.mem_map.mp hv
  exact plain_str

theorem keepsPlain_split : split.KeepsPlain := by
  intro args _ _
  refine ensures_bind fun s => ?_
  dsimp only
  split
  · exact ensures_ok (plain_texts _)
  · refine ensures_bind fun separator => ?_
    split
    · exact ensures_error
    · exact ensures_ok (plain_texts _)
  · exact ensures_error

theorem keepsPlain_defined : defined.KeepsPlain :=
  fun _ _ _ => ensures_bind fun _ => ensures_bind fun _ => ensures_ok plain_bool

theorem keepsPlain_locals : locals.KeepsPlain :=
  fun _ _ hscope => ensures_bind fun _ => ensures_ok (plain_map.mpr hscope.collect)

theorem keepsPlain_of_mem {name : String} {f : Function} (h : (name,f) ∈ all)
    (hname : name ≠ "safe") : f.KeepsPlain := by
  have hall : ∀ e ∈ all, e.1 = "safe" ∨ e.2.KeepsPlain := by
    simp [all,min,max,lower,upper,capitalize,trim,keepsPlain_bool,keepsPlain_int,keepsPlain_float,
      keepsPlain_str,keepsPlain_len,keepsPlain_extremum,keepsPlain_range,keepsPlain_contains,
      keepsPlain_onText,keepsPlain_replace,keepsPlain_startsWith,keepsPlain_endsWith,
      keepsPlain_join,keepsPlain_split,keepsPlain_defined,keepsPlain_get,keepsPlain_locals]
  exact (hall _ h).resolve_left hname

end Builtin

namespace Term

mutual

def calls : Term → List String
  | .literal _ _ | .var _ => []
  | .unary _ t _ => t.calls
  | .binary _ l r _ => l.calls ++ r.calls
  | .call f args _ => f.value :: listCalls args
  | .index c k _ => c.calls ++ k.calls
  | .slice c start stop step _ =>
    c.calls ++ (boundCalls start ++ (boundCalls stop ++ boundCalls step))
  | .list items _ => listCalls items

def listCalls : List Term → List String
  | [] => []
  | t :: ts => t.calls ++ listCalls ts

def boundCalls : Option Term → List String
  | .none => []
  | some t => t.calls

end

end Term

structure Env.Plain (env : Env) : Prop where
  functions : ∀ f ∈ env.functions, f ∈ Builtin.all
  scope : env.scope.Plain

theorem ensures_placedAt {α : Type} {P : α → Prop} {span : Span} {r : Except Cause α}
    (h : Ensures r P) : Ensures (Except.placedAt span r) P := by
  cases r with
  | ok a => exact ensures_ok (h a rfl)
  | error c => exact ensures_error

theorem Env.Plain.call {env : Env} (h : env.Plain) {function : Located String}
    (hname : function.value ≠ "safe") {values : List Value} (hvalues : ∀ v ∈ values, v.Plain)
    (span : Span) : Ensures (env.call function values span) Value.Plain := by
  unfold Env.call
  split
  · exact ensures_error
  · rename_i f hget
    have hkeeps := Builtin.keepsPlain_of_mem (h.functions _ (Table.mem_of_get? hget)) hname
    split
    · rename_i v hv
      exact ensures_ok (hkeeps ⟨values,env.scope⟩ hvalues h.scope v hv)
    · exact ensures_error

namespace Term

variable {env : Env}

mutual

theorem plain_eval (henv : env.Plain) : (t : Term) → "safe" ∉ t.calls →
    Ensures (t.eval env) Value.Plain
  | .literal l _, _ => by
    unfold eval
    cases l <;> exact ensures_ok (by simp [Literal.toValue])
  | .var n, _ => by
    unfold eval
    refine ensures_placedAt ?_
    unfold Scope.lookup
    split
    · rename_i v hget
      exact ensures_ok (henv.scope.get? hget)
    · exact ensures_error
  | .unary op t _, _ => by
    unfold eval
    exact ensures_bind fun v => ensures_placedAt (op.plain_apply v)
  | .binary op l r _, h => by
    simp only [calls,List.mem_append,not_or] at h
    unfold eval
    refine (plain_eval henv l h.1).bind fun a ha => ensures_ite (ensures_ok ha) ?_
    exact (plain_eval henv r h.2).bind fun b hb => ensures_placedAt (op.plain_apply a hb)
  | .call f args span, h => by
    simp only [calls,List.mem_cons,not_or] at h
    unfold eval
    exact (plain_evalList henv args h.2).bind fun values hvalues =>
      henv.call (Ne.symm h.1) hvalues span
  | .index c k _, h => by
    simp only [calls,List.mem_append,not_or] at h
    unfold eval
    exact (plain_eval henv c h.1).bind fun container hcontainer =>
      ensures_bind fun key => ensures_placedAt (plain_index hcontainer)
  | .slice c _ _ _ _, h => by
    simp only [calls,List.mem_append,not_or] at h
    unfold eval
    exact (plain_eval henv c h.1).bind fun container hcontainer => ensures_bind fun _ =>
      ensures_bind fun _ => ensures_bind fun _ => ensures_placedAt (plain_slice hcontainer)
  | .list items _, h => by
    unfold eval
    exact (plain_evalList henv items h).map fun _ => plain_list.mpr

theorem plain_evalList (henv : env.Plain) : (ts : List Term) → "safe" ∉ listCalls ts →
    Ensures (evalList env ts) fun vs => ∀ v ∈ vs, v.Plain
  | [], _ => ensures_ok (by simp)
  | t :: ts, h => by
    simp only [listCalls,List.mem_append,not_or] at h
    unfold evalList
    exact (plain_eval henv t h.1).bind fun v hv => (plain_evalList henv ts h.2).bind fun vs hvs =>
      ensures_ok (List.forall_mem_cons.mpr ⟨hv,hvs⟩)

end

end Term

end Stencil
