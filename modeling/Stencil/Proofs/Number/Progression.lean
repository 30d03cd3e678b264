import Stencil.Number.Progression

/-!
Arithmetic progressions: the loop with checked sums visits `i`, `i + step`, … up to the bound, and
where a sum is no 64-bit integer, the bound has been reached.
-/

set_option autoImplicit false

namespace Stencil.Integer

theorem toInt_ne_zero {a : Int64} (h : a ≠ 0) : a.toInt ≠ 0 := fun hzero =>
  h (Int64.toInt_inj.mp hzero)

theorem checkedAdd_eq_some_iff {a b c : Int64} :
    checkedAdd a b = some c ↔ c.toInt = a.toInt + b.toInt := ofInt?_eq_some_iff

theorem toInt_ofInt {i : Int} (hmin : Int64.minValue.toInt ≤ i) (hmax : i ≤ Int64.maxValue.toInt) :
    (Int64.ofInt i).toInt = i := by
  simp only [Int64.toInt_minValue,Int64.toInt_maxValue] at hmin hmax
  exact Int64.toInt_ofInt_of_le (by omega) (by omega)

theorem ofInt?_eq_none_iff {i : Int} :
    ofInt? i = none ↔ i < Int64.minValue.toInt ∨ Int64.maxValue.toInt < i := by
  unfold ofInt?
  split
  · rename_i hi
    have hmin := (Int64.ofInt i).minValue_le_toInt
    have hmax := (Int64.ofInt i).toInt_le
    simp only [reduceCtorEq,false_iff]
    omega
  · rename_i hi
    simp only [true_iff]
    exact Decidable.byContradiction fun hrange => hi (toInt_ofInt (by omega) (by omega))

def Precedes (step i stop : Int) : Prop := if step < 0 then stop < i else i < stop

instance (step i stop : Int) : Decidable (Precedes step i stop) :=
  inferInstanceAs (Decidable (if step < 0 then stop < i else i < stop))

theorem not_precedes_add {step i stop : Int} (h : ¬Precedes step i stop) (k : Nat) :
    ¬Precedes step (i + k * step) stop := by
  unfold Precedes at *
  split
  · rename_i hneg
    rw [if_pos hneg] at h
    have hmul : (k : Int) * step ≤ 0 := Int.mul_nonpos_of_nonneg_of_nonpos (by omega) (by omega)
    omega
  · rename_i hneg
    rw [if_neg hneg] at h
    have hmul : 0 ≤ (k : Int) * step := Int.mul_nonneg (by omega) (by omega)
    omega

theorem not_precedes_of_checkedAdd {i step stop : Int64} (h : checkedAdd i step = none) :
    ¬Precedes step.toInt (i.toInt + step.toInt) stop.toInt := by
  have hrange := ofInt?_eq_none_iff.mp h
  have himin := i.minValue_le_toInt
  have himax := i.toInt_le
  have hmin := stop.minValue_le_toInt
  have hmax := stop.toInt_le
  unfold Precedes
  split <;> omega

theorem progression_cons_iff {i step stop : Int64} (hstep : step ≠ 0) :
    (0 < step ∧ i < stop) ∨ (step < 0 ∧ stop < i) ↔
      Precedes step.toInt i.toInt stop.toInt := by
  have hne := toInt_ne_zero hstep
  simp only [Int64.lt_iff_toInt_lt,Int64.toInt_zero,Precedes]
  split <;> omega

theorem succ_mul_add (i step : Int) (k : Nat) :
    i + (k + 1 : Nat) * step = i + step + k * step := by
  rw [Int.natCast_succ,Int.add_mul,Int.one_mul]
  omega

/-- By induction along the loop: it goes on exactly as long as the next place comes before the
bound. -/
theorem lt_length_progression_iff {i step stop : Int64} (hstep : step ≠ 0) (k : Nat) :
    k < (progression stop step i).length ↔
      Precedes step.toInt (i.toInt + k * step.toInt) stop.toInt := by
  fun_induction progression stop step i generalizing k with
  | case1 i hlt ih =>
    have hfirst := (progression_cons_iff hstep).mp hlt
    cases k with
    | zero => simpa using hfirst
    | succ k =>
      rw [succ_mul_add,List.length_cons,Nat.add_lt_add_iff_right]
      split
      · rename_i j hj
        rw [ih j hj,checkedAdd_eq_some_iff.mp hj]
      · rename_i hnone
        simpa using not_precedes_add (not_precedes_of_checkedAdd hnone) k
  | case2 i hlt =>
    rw [progression_cons_iff hstep] at hlt
    simpa using not_precedes_add hlt k

theorem toInt_of_mem_progression {i j step stop : Int64} {k : Nat}
    (h : (progression stop step i)[k]? = some j) : j.toInt = i.toInt + k * step.toInt := by
  fun_induction progression stop step i generalizing k with
  | case1 i hlt ih =>
    cases k with
    | zero =>
      obtain rfl : i = j := by simpa using h
      simp
    | succ k =>
      rw [List.getElem?_cons_succ] at h
      split at h
      · rename_i next hnext
        rw [succ_mul_add,← checkedAdd_eq_some_iff.mp hnext]
        exact ih next hnext h
      · simp at h
  | case2 => simp at h

end Stencil.Integer
