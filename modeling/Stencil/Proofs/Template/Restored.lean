import Stencil.Proofs.Template.Echoed
import Stencil.Proofs.Term.Bare
import Stencil.Text.Identifier
import Stencil.Value.Text

set_option autoImplicit false

namespace Stencil

namespace Value

inductive IsData : Value → Prop
  | none : IsData .none
  | bool {b} : IsData (.bool b)
  | int {n} : IsData (.int n)
  | float {x} : x.isFinite = true → IsData (.float x)
  | str {s} : IsData (.str s)
  | list {items} : (∀ v ∈ items, IsData v) → IsData (.list items)

inductive OccursIn (u : Value) : Value → Prop
  | self : OccursIn u u
  | item {items v} : v ∈ items → OccursIn u v → OccursIn u (.list items)

theorem not_occursIn_list {n : Int64} {items : List Value}
    (h : ∀ v ∈ items, ¬(Value.int n).OccursIn v) : ¬(Value.int n).OccursIn (.list items) := by
  intro hoccurs
  cases hoccurs with
  | item hv hoccurs => exact h _ hv hoccurs

theorem negate_int {m n : Int64} (h : m.toInt = -n.toInt) :
    (Value.int m).negate = .ok (.int n) := by
  have hneg : Integer.ofInt? (-m.toInt) = some n := Integer.ofInt?_eq_some_iff.mpr (by omega)
  have hchecked : checked .negation (-m.toInt) = .ok n := by
    unfold checked
    rw [hneg]
  show (do return .int (← checked .negation (-m.toInt)) : Except Cause Value) = _
  rw [hchecked]
  rfl

end Value

namespace Term

section
variable [Alphabet]

/-- The term is written as the value is shown inside a list, and that is its value everywhere. -/
structure Restores (t : Term) (v : Value) : Prop where
  writable : t.Writable
  text : t.toText = v.nestedText
  value : ∀ env, t.eval env = .ok v

theorem restores_literal {l : Literal} (h : l.Writable) :
    (Term.literal l nowhere).Restores l.toValue := by
  refine ⟨h,?_,fun _ => rfl⟩
  cases l with
  | bool b => cases b <;> rfl
  | null | int _ | float _ | str _ => rfl

theorem restores_negation {l : Literal} {v : Value} (h : l.Writable)
    (htext : v.nestedText = "-" ++ l.toValue.nestedText) (hv : l.toValue.negate = .ok v) :
    (Term.unary .neg (.literal l nowhere) nowhere).Restores v := by
  refine ⟨h,?_,fun env => ?_⟩
  · rw [htext,← (restores_literal h).text]
    rfl
  · show Except.placedAt nowhere l.toValue.negate = _
    rw [hv]
    rfl

structure RestoreAll (ts : List Term) (vs : List Value) : Prop where
  writable : AllWritable ts
  text : listText ts = Value.itemsText vs
  more : moreText ts = Value.moreItemsText vs
  values : ∀ env, evalList env ts = .ok vs

theorem Restores.cons {t : Term} {ts : List Term} {v : Value} {vs : List Value} (h : t.Restores v)
    (hs : RestoreAll ts vs) : RestoreAll (t :: ts) (v :: vs) := by
  refine ⟨⟨h.writable,hs.writable⟩,?_,?_,fun env => ?_⟩
  · rw [listText,Value.itemsText,h.text,hs.more]
  · rw [moreText,Value.moreItemsText,h.text,hs.more]
  · rw [evalList,h.value,hs.values]
    rfl

theorem restoreAll_nil : RestoreAll [] [] := ⟨trivial,rfl,rfl,fun _ => rfl⟩

theorem exists_restoreAll {vs : List Value} (h : ∀ v ∈ vs, ∃ t : Term, t.Restores v) :
    ∃ ts, RestoreAll ts vs := by
  induction vs with
  | nil => exact ⟨[],restoreAll_nil⟩
  | cons v vs ih =>
    obtain ⟨⟨t,ht⟩,hvs⟩ := List.forall_mem_cons.mp h
    obtain ⟨ts,hts⟩ := ih hvs
    exact ⟨t :: ts,ht.cons hts⟩

theorem RestoreAll.list {ts : List Term} {vs : List Value} (h : RestoreAll ts vs) :
    (Term.list ts nowhere).Restores (.list vs) := by
  refine ⟨h.writable,?_,fun env => ?_⟩
  · rw [toText,Value.nestedText,h.text]
  · rw [eval,h.values]
    rfl

theorem exists_restores_int {n : Int64} (h : n ≠ Int64.minValue) :
    ∃ t : Term, t.Restores (.int n) := by
  by_cases hn : 0 ≤ n.toInt
  · exact ⟨_,restores_literal (l := .int n) hn⟩
  · obtain ⟨m,hm⟩ := Integer.exists_neg h
    have hwritable : (Literal.int m).Writable := by
      show 0 ≤ m.toInt
      omega
    have htext : (Value.int n).nestedText = "-" ++ (Value.int m).nestedText :=
      Integer.toText_of_neg (by omega) hm
    exact ⟨_,restores_negation hwritable htext (Value.negate_int hm)⟩

theorem exists_restores_float {x : Binary64} (hfinite : x.isFinite = true) :
    ∃ t : Term, t.Restores (.float x) := by
  cases hneg : x.isNegative with
  | false => exact ⟨_,restores_literal (l := .float x) ⟨hneg,hfinite⟩⟩
  | true =>
    have hwritable : (Literal.float x.neg).Writable :=
      ⟨Binary64.isNegative_neg hneg,x.isFinite_neg.trans hfinite⟩
    have htext : (Value.float x).nestedText = "-" ++ (Value.float x.neg).nestedText :=
      Binary64.toText_of_isNegative hneg hfinite
    have hv : (Value.float x.neg).negate = .ok (.float x) := by
      show Except.ok (Value.float x.neg.neg) = _
      rw [x.neg_neg]
    exact ⟨_,restores_negation hwritable htext hv⟩

theorem exists_restores {v : Value} (hdata : v.IsData)
    (hmin : ¬(Value.int Int64.minValue).OccursIn v) : ∃ t : Term, t.Restores v := by
  induction hdata with
  | none => exact ⟨_,restores_literal (l := .null) trivial⟩
  | @bool b => exact ⟨_,restores_literal (l := .bool b) trivial⟩
  | @int n =>
    refine exists_restores_int fun hn => hmin ?_
    rw [hn]
    exact .self
  | float hfinite => exact exists_restores_float hfinite
  | @str s => exact ⟨_,restores_literal (l := .str s) trivial⟩
  | list _ ih =>
    obtain ⟨ts,hts⟩ := exists_restoreAll fun v hv => ih v hv fun hoccurs => hmin (.item hv hoccurs)
    exact ⟨_,hts.list⟩

end

end Term

namespace Document

/-- Data that does not hold the least integer is restored from its text inside a list: between the
delimiters of an echo that text compiles to one echo, whose term has the list as its value with any
functions and in any scope. -/
theorem data_restored_from_text [Alphabet] (name : Option String) {v : Value} (hdata : v.IsData)
    (hmin : ¬(Value.int Int64.minValue).OccursIn v) :
    ∃ t span, (compile name
        ("\x7b\x7b " ++ (Value.list [v]).toText ++ " \x7d\x7d")).map Document.nodes =
          .ok [.echo t span] ∧
      ∀ env : Env, t.eval env = .ok (.list [v]) := by
  obtain ⟨u,hu⟩ := Term.exists_restores hdata hmin
  have hlist : (Term.list [u] Term.nowhere).Restores (.list [v]) :=
    (hu.cons Term.restoreAll_nil).list
  obtain ⟨t,span,hparse,hbare⟩ := parse_writable hlist.writable
  have htext : (Value.list [v]).toText = (Term.list [u] Term.nowhere).toText := hlist.text.symm
  refine ⟨t,span,?_,fun env => Term.eval_eq_ok_of_bare hbare (hlist.value env)⟩
  rw [htext]
  simp [compile,hparse,Except.map]

theorem data_restored_from_text_of_nested :
    let v : Value := .list [.none,.int (-5),.float (Binary64.zero true),.list [.str "a\"b\n"]]
    v.IsData ∧ ¬(Value.int Int64.minValue).OccursIn v ∧
      ∃ t span, (compile none
          ("\x7b\x7b " ++ (Value.list [v]).toText ++ " \x7d\x7d")).map Document.nodes =
            .ok [.echo t span] ∧
        ∀ env : Env, t.eval env = .ok (.list [v]) := by
  intro v
  have hdata : v.IsData := by
    refine .list ?_
    simp only [List.forall_mem_cons]
    refine ⟨.none,.int,.float rfl,.list ?_,by simp⟩
    simp only [List.forall_mem_cons]
    exact ⟨.str,by simp⟩
  have hmin : ¬(Value.int Int64.minValue).OccursIn v := by
    refine Value.not_occursIn_list ?_
    simp only [List.forall_mem_cons]
    refine ⟨nofun,?_,nofun,Value.not_occursIn_list ?_,by simp⟩
    · intro h
      cases h
    · simp only [List.forall_mem_cons]
      exact ⟨nofun,by simp⟩
  exact ⟨hdata,hmin,data_restored_from_text none hdata hmin⟩

/-- A literal has no sign, and the least integer is the negation of none. -/
theorem least_integer_not_restored :
    (Value.int Int64.minValue).IsData ∧
      compile none
        ("\x7b\x7b " ++ (Value.list [.int Int64.minValue]).toText ++ " \x7d\x7d") =
          .error ⟨.integerLiteralRange,
            some ⟨"\x7b\x7b [-9223372036854775808] \x7d\x7d",⟨5,24⟩⟩,none⟩ := by
  have htext : (Value.list [.int Int64.minValue]).toText = "[-9223372036854775808]" := by decide
  refine ⟨.int,?_⟩
  rw [htext]
  with_unfolding_all rfl

end Document

end Stencil
