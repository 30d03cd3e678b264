import Stencil.Proofs.Number.Order
import Stencil.Value.Equality

set_option autoImplicit false

namespace Stencil.Value

variable {a b c : Value} {m n k : Number}

@[simp] theorem toNumber_toValue (n : Number) : n.toValue.toNumber = .ok n := by
  cases n <;> rfl

theorem isNumeric_iff : a.isNumeric = true ↔ ∃ n : Number, a = n.toValue := by
  constructor
  · intro h
    cases a with
    | int n => exact ⟨.int n,rfl⟩
    | float x => exact ⟨.float x,rfl⟩
    | none | bool | str | safe | list | map => exact absurd h Bool.false_ne_true
  · rintro ⟨n,rfl⟩
    cases n <;> rfl

theorem compareNumbers_eq (ha : a.toNumber = .ok m) (hb : b.toNumber = .ok n) :
    a.compareNumbers b = .ok (m.compare n) := by
  rw [compareNumbers,ha,hb]
  rfl

theorem compareNumbers_eq_iff (ha : a.toNumber = .ok m) (hb : b.toNumber = .ok n) (o : Ordering) :
    a.compareNumbers b = .ok o ↔ m.compare n = o := by
  rw [compareNumbers_eq ha hb,Except.ok.injEq]

theorem compareNumbers_eq_ok_iff {o : Ordering} : a.compareNumbers b = .ok o ↔
    ∃ m n, a.toNumber = .ok m ∧ b.toNumber = .ok n ∧ m.compare n = o := by
  unfold compareNumbers
  cases a.toNumber <;> cases b.toNumber <;> simp [bind,Except.bind,pure,Except.pure]

theorem compareNumbers_self_ne {o : Ordering} (ho : o ≠ .eq) (v : Value) :
    v.compareNumbers v ≠ .ok o := by
  rw [ne_eq,compareNumbers_eq_ok_iff]
  rintro ⟨m,n,hm,hn,hmn⟩
  obtain rfl : m = n := Except.ok.inj (hm.symm.trans hn)
  exact ho (hmn.symm.trans (Number.compare_self m))

theorem comparesEqual_iff : a.comparesEqual b = true ↔ a.compareNumbers b = .ok .eq := by
  unfold comparesEqual
  split
  · simp [*]
  · rename_i h
    exact ⟨nofun,fun heq => absurd heq h⟩

/-- Two numbers are equal in the language where neither comes before the other. -/
theorem isEqual_iff (ha : a.isNumeric = true) (hb : b.isNumeric = true) :
    a.isEqual b = true ↔ a.compareNumbers b = .ok .eq := by
  rw [isEqual,isEqualBy.eq_def]
  simp only [ha,hb]
  exact comparesEqual_iff

/-- The order of three values that count as numbers. It can be reversed. It is transitive, and equal
values compare alike, unless one of them is a float to which the other two, different integers, are
both nearest. Such a float is equal to the two integers, which are not equal to each other, and one
of them is beyond `2 ^ 53`. -/
theorem compareNumbers_preorder (ha : a.toNumber = .ok m) (hb : b.toNumber = .ok n)
    (hc : c.toNumber = .ok k) :
    (∃ o : Ordering, a.compareNumbers b = .ok o ∧ b.compareNumbers a = .ok o.swap) ∧
    (a.compareNumbers b ≠ .ok .gt → b.compareNumbers c ≠ .ok .gt →
      a.compareNumbers c ≠ .ok .gt ∨ Number.Blurred m n k) ∧
    (a.compareNumbers b = .ok .eq → b.compareNumbers c = .ok .eq →
      a.compareNumbers c = .ok .eq ∨ Number.Blurred m n k) ∧
    (a.isNumeric = true → b.isNumeric = true → c.isNumeric = true →
      a.isEqual b = true → b.isEqual c = true → a.isEqual c = true ∨ Number.Blurred m n k) ∧
    (a.compareNumbers b = .ok .eq → a.compareNumbers c = b.compareNumbers c ∨
      Number.Blurred m n k ∨ Number.Blurred n m k) ∧
    (Number.Blurred m n k → a.compareNumbers b = .ok .eq ∧ b.compareNumbers c = .ok .eq ∧
      a.compareNumbers c ≠ .ok .eq ∧ ∃ i j : Int64, m = .int i ∧ k = .int j ∧
        (2 ^ 53 < i.toInt.natAbs ∨ 2 ^ 53 < j.toInt.natAbs)) := by
  have hab := compareNumbers_eq_iff ha hb
  have hbc := compareNumbers_eq_iff hb hc
  have hac := compareNumbers_eq_iff ha hc
  have heq : a.compareNumbers b = .ok .eq → b.compareNumbers c = .ok .eq →
      a.compareNumbers c = .ok .eq ∨ Number.Blurred m n k := by
    rw [hab,hbc,hac]
    exact Number.compare_eq_trans
  refine ⟨⟨m.compare n,(hab _).mpr rfl,?_⟩,?_,heq,fun hna hnb hnc => ?_,fun h => ?_,fun h => ?_⟩
  · rw [Number.compare_swap]
    exact compareNumbers_eq hb ha
  · rw [ne_eq,ne_eq,ne_eq,hab,hbc,hac]
    exact Number.compare_le_trans
  · rw [isEqual_iff hna hnb,isEqual_iff hnb hnc,isEqual_iff hna hnc]
    exact heq
  · rw [compareNumbers_eq ha hc,compareNumbers_eq hb hc,Except.ok.injEq]
    exact Number.compare_congr ((hab _).mp h) k
  · rw [hab,hbc,ne_eq,hac]
    exact ⟨h.compare_eq,Number.compare_eq_symm h.symm.compare_eq,h.merged.compare_ne,
      h.merged.large⟩

/-- Two texts and an integer beyond `2 ^ 53`, of which the second text counts as the float to which
the first one is nearest. -/
theorem compareNumbers_preorder_of_texts :
    let a : Value := .str "9007199254740993"
    let b : Value := .safe "9007199254740992.0"
    let c : Value := .int 9007199254740994
    let x : Binary64 := Binary64.ofInt 9007199254740992
    a.toNumber = .ok (.int 9007199254740993) ∧ b.toNumber = .ok (.float x) ∧
    c.toNumber = .ok (.int 9007199254740994) ∧ a.compareNumbers b = .ok .eq ∧
    b.compareNumbers c = .ok .lt ∧ a.compareNumbers c ≠ .ok .gt := by
  intro a b c x
  have ha : a.toNumber = .ok (.int 9007199254740993) := by decide +kernel
  have hb : b.toNumber = .ok (.float x) := by decide +kernel
  have hc : c.toNumber = .ok (.int 9007199254740994) := rfl
  have hab : a.compareNumbers b = .ok .eq := by decide +kernel
  have hbc : b.compareNumbers c = .ok .lt := by decide +kernel
  have hfloats : Binary64.ofInt 9007199254740993 ≠ Binary64.ofInt 9007199254740994 := by
    decide +kernel
  obtain ⟨_,htrans,_⟩ := compareNumbers_preorder ha hb hc
  refine ⟨ha,hb,hc,hab,hbc,(htrans (by simp [hab]) (by simp [hbc])).resolve_right fun h => ?_⟩
  exact hfloats h.merged.toFloat

/-- Between two integers beyond `2 ^ 53` there need not be a float. -/
theorem compareNumbers_not_transitive :
    let a : Value := .int 9007199254740993
    let b : Value := .float (Binary64.ofInt 9007199254740992)
    let c : Value := .int 9007199254740992
    a.compareNumbers b = .ok .eq ∧ b.compareNumbers c = .ok .eq ∧ a.compareNumbers c = .ok .gt ∧
    a.isEqual b = true ∧ b.isEqual c = true ∧ a.isEqual c = false := by
  decide +kernel

end Stencil.Value
