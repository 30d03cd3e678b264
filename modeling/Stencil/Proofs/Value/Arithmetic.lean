import Stencil.Proofs.Number.Progression
import Stencil.Value.Number

/-!
Arithmetic with values that count as integers: the result is the exact one, or an overflow where that
one has no place among the 64-bit integers. A difference is the sum with the negated operand, and a
remainder comes with a quotient; both overflow with their intermediate result too.
-/

set_option autoImplicit false

namespace Stencil

namespace Integer

def InRange (i : Int) : Prop := Int64.minValue.toInt ≤ i ∧ i ≤ Int64.maxValue.toInt

instance (i : Int) : Decidable (InRange i) := inferInstanceAs (Decidable (_ ∧ _))

variable {x y : Int64} {i : Int}

theorem inRange_toInt (x : Int64) : InRange x.toInt := ⟨x.minValue_le_toInt,x.toInt_le⟩

theorem ofInt?_of_inRange (h : InRange i) : ofInt? i = some (Int64.ofInt i) :=
  ofInt?_eq_some_iff.mpr (toInt_ofInt h.1 h.2)

theorem ofInt?_of_not_inRange (h : ¬InRange i) : ofInt? i = none := by
  refine ofInt?_eq_none_iff.mpr (Decidable.byContradiction fun hle => h ⟨?_,?_⟩) <;> omega

theorem inRange_neg_iff : InRange (-x.toInt) ↔ x ≠ Int64.minValue := by
  have hrange := inRange_toInt x
  rw [ne_eq,← Int64.toInt_inj]
  unfold InRange at *
  simp only [Int64.toInt_minValue,Int64.toInt_maxValue] at *
  omega

/-- Only the smallest integer by minus one has a quotient that is out of range: any other divisor
leaves the size as it is or halves it. -/
theorem inRange_tdiv_iff (hy : y ≠ 0) :
    InRange (x.toInt.tdiv y.toInt) ↔ ¬(x = Int64.minValue ∧ y = -1) := by
  have hx := inRange_toInt x
  have hzero := toInt_ne_zero hy
  by_cases hminus : y = -1
  · subst hminus
    have hquotient : x.toInt.tdiv (-1 : Int64).toInt = -x.toInt := by
      rw [show (-1 : Int64).toInt = -1 from rfl,Int.tdiv_neg,Int.tdiv_one]
    rw [hquotient,inRange_neg_iff]
    simp
  · have hne : y.toInt ≠ -1 := fun h => hminus (Int64.toInt_inj.mp h)
    simp only [hminus,and_false,not_false_iff,iff_true]
    by_cases hone : y.toInt = 1
    · rw [hone,Int.tdiv_one]
      exact hx
    · have hsize : (x.toInt.tdiv y.toInt).natAbs ≤ x.toInt.natAbs / 2 := by
        rw [Int.natAbs_tdiv]
        exact Nat.div_le_div_left (by omega) (by decide)
      unfold InRange at *
      simp only [Int64.toInt_minValue,Int64.toInt_maxValue] at *
      omega

theorem inRange_tmod (hy : y ≠ 0) : InRange (x.toInt.tmod y.toInt) := by
  have hzero := toInt_ne_zero hy
  have hsize := Int.natAbs_tmod x.toInt y.toInt
  have hlt := Nat.mod_lt x.toInt.natAbs (show 0 < y.toInt.natAbs by omega)
  have hrange := inRange_toInt y
  unfold InRange at *
  simp only [Int64.toInt_minValue,Int64.toInt_maxValue] at *
  omega

theorem sign_tmod_or (i j : Int) : i.tmod j = 0 ∨ (i.tmod j).sign = i.sign := by
  have hsign := Int.sign_tmod i j
  split at hsign
  · exact .inl (Int.sign_eq_zero_iff_zero.mp hsign)
  · exact .inr hsign

end Integer

namespace Value

variable {a b : Value} {m n : Number} {x y : Int64} {i : Int} {operation : Operation}
  {result : Except Cause Value}

def IsFloat (result : Except Cause Value) : Prop := ∃ z, result = .ok (.float z)

/-- The result of an operation on integers that is `i` in the whole numbers. -/
inductive Exact (operation : Operation) (i : Int) : Except Cause Value → Prop where
  | fits (z : Int64) (h : z.toInt = i) : Exact operation i (.ok (.int z))
  | overflows (h : ¬Integer.InRange i) : Exact operation i (.error (.overflow operation))

theorem Exact.of_inRange (h : Exact operation i result) (hi : Integer.InRange i) :
    ∃ z : Int64, z.toInt = i ∧ result = .ok (.int z) := by
  cases h with
  | fits z hz => exact ⟨z,hz,rfl⟩
  | overflows hnot => exact absurd hi hnot

theorem Exact.of_not_inRange (h : Exact operation i result) (hi : ¬Integer.InRange i) :
    result = .error (.overflow operation) := by
  cases h with
  | fits z hz => exact absurd (hz ▸ Integer.inRange_toInt z) hi
  | overflows => rfl

theorem Exact.toInt_eq (h : Exact operation i (.ok (.int x))) : x.toInt = i := by
  cases h
  assumption

theorem exact_checked (operation : Operation) (i : Int) :
    Exact operation i ((checked operation i).map .int) := by
  unfold checked
  by_cases h : Integer.InRange i
  · rw [Integer.ofInt?_of_inRange h]
    exact .fits _ (Integer.toInt_ofInt h.1 h.2)
  · rw [Integer.ofInt?_of_not_inRange h]
    exact .overflows h

section Integers

variable (ha : a.toNumber = .ok (.int x)) (hb : b.toNumber = .ok (.int y))
include ha hb

theorem arithmetic_ints (onInts : Int64 → Int64 → Except Cause Int64)
    (onFloats : Binary64 → Binary64 → Binary64) :
    arithmetic onInts onFloats a b = (onInts x y).map .int := by
  rw [arithmetic,ha,hb]
  cases h : onInts x y <;> simp [bind,Except.bind,pure,Except.pure,Except.map,h]

theorem exact_add : Exact .addition (x.toInt + y.toInt) (a.add b) := by
  rw [add,arithmetic_ints ha hb]
  exact exact_checked ..

theorem exact_mul : Exact .multiplication (x.toInt * y.toInt) (a.mul b) := by
  rw [mul,arithmetic_ints ha hb]
  exact exact_checked ..

theorem div_zero (hy : y = 0) : a.div b = .error .divisionByZero := by
  rw [div,arithmetic_ints ha hb,if_pos hy]
  rfl

theorem exact_div (hy : y ≠ 0) : Exact .division (x.toInt.tdiv y.toInt) (a.div b) := by
  rw [div,arithmetic_ints ha hb,if_neg hy]
  exact exact_checked ..

theorem rem_zero (hy : y = 0) : a.rem b = .error .remainderByZero := by
  rw [rem,arithmetic_ints ha hb,if_pos hy]
  rfl

theorem rem_minValue (hx : x = Int64.minValue) (hy : y = -1) :
    a.rem b = .error (.overflow .remainder) := by
  rw [rem,arithmetic_ints ha hb,if_neg (by rw [hy]; decide),if_pos ⟨hx,hy⟩]
  rfl

theorem exact_rem (hy : y ≠ 0) (hquotient : ¬(x = Int64.minValue ∧ y = -1)) :
    Exact .remainder (x.toInt.tmod y.toInt) (a.rem b) := by
  rw [rem,arithmetic_ints ha hb,if_neg hy,if_neg hquotient]
  exact exact_checked ..

end Integers

theorem exact_negate (ha : a.toNumber = .ok (.int x)) : Exact .negation (-x.toInt) a.negate := by
  have hnegate : a.negate = (checked .negation (-x.toInt)).map .int := by
    rw [negate,ha]
    cases h : checked .negation (-x.toInt) <;>
      simp [bind,Except.bind,pure,Except.pure,Except.map,h]
  rw [hnegate]
  exact exact_checked ..

theorem exact_sub (ha : a.toNumber = .ok (.int x)) (hb : b.toNumber = .ok (.int y))
    (hy : y ≠ Int64.minValue) : Exact .addition (x.toInt - y.toInt) (a.sub b) := by
  obtain ⟨z,hz,hnegate⟩ := (exact_negate hb).of_inRange (Integer.inRange_neg_iff.mpr hy)
  rw [sub,hnegate,Int.sub_eq_add_neg,← hz]
  exact exact_add ha rfl

theorem sub_minValue (a : Value) (hb : b.toNumber = .ok (.int Int64.minValue)) :
    a.sub b = .error (.overflow .negation) := by
  have hnegate := (exact_negate hb).of_not_inRange (by decide)
  rw [sub,hnegate]
  rfl

theorem toInt_sub (ha : a.toNumber = .ok (.int x)) (hb : b.toNumber = .ok (.int y)) {z : Int64}
    (h : a.sub b = .ok (.int z)) : z.toInt = x.toInt - y.toInt := by
  by_cases hy : y = Int64.minValue
  · rw [sub_minValue a (hy ▸ hb)] at h
    cases h
  · have hexact := exact_sub ha hb hy
    rw [h] at hexact
    exact hexact.toInt_eq

theorem toInt_rem (ha : a.toNumber = .ok (.int x)) (hb : b.toNumber = .ok (.int y)) {z : Int64}
    (h : a.rem b = .ok (.int z)) : y ≠ 0 ∧ z.toInt = x.toInt.tmod y.toInt := by
  by_cases hzero : y = 0
  · rw [rem_zero ha hb hzero] at h
    cases h
  by_cases hquotient : x = Int64.minValue ∧ y = -1
  · rw [rem_minValue ha hb hquotient.1 hquotient.2] at h
    cases h
  · have hexact := exact_rem ha hb hzero hquotient
    rw [h] at hexact
    exact ⟨hzero,hexact.toInt_eq⟩

section Floats

variable (ha : a.toNumber = .ok m) (hb : b.toNumber = .ok n)
  (hfloat : (∃ z, m = .float z) ∨ ∃ z, n = .float z)
include ha hb hfloat

theorem isFloat_arithmetic (onInts : Int64 → Int64 → Except Cause Int64)
    (onFloats : Binary64 → Binary64 → Binary64) : IsFloat (arithmetic onInts onFloats a b) := by
  rw [arithmetic,ha,hb]
  obtain ⟨z,rfl⟩ | ⟨z,rfl⟩ := hfloat
  · exact ⟨_,rfl⟩
  · cases m <;> exact ⟨_,rfl⟩

theorem isFloat_sub (hn : n ≠ .int Int64.minValue) : IsFloat (a.sub b) := by
  cases n with
  | float z =>
    have hnegate : b.negate = .ok (.float z.neg) := by
      rw [negate,hb]
      rfl
    rw [sub,hnegate]
    exact isFloat_arithmetic (b := .float z.neg) ha rfl (.inr ⟨_,rfl⟩) ..
  | int y =>
    have hy : y ≠ Int64.minValue := fun h => hn (congrArg _ h)
    obtain ⟨z,_,hnegate⟩ := (exact_negate hb).of_inRange (Integer.inRange_neg_iff.mpr hy)
    rw [sub,hnegate]
    exact isFloat_arithmetic (b := .int z) ha rfl (hfloat.imp_right fun ⟨_,h⟩ => nomatch h) ..

end Floats

/-- The difference and the remainder of two values that count as integers are exact. Besides a
difference that is out of range, only the smallest integer cannot be subtracted, and only the smallest
integer has no remainder, by minus one. Where one of the values counts as a float, there always is a
remainder, and a difference unless the smallest integer is subtracted. -/
theorem sub_rem_in_range (ha : a.toNumber = .ok m) (hb : b.toNumber = .ok n) :
    (∀ x y : Int64, m = .int x → n = .int y →
      (y ≠ Int64.minValue → Exact .addition (x.toInt - y.toInt) (a.sub b)) ∧
      (y = Int64.minValue → a.sub b = .error (.overflow .negation)) ∧
      (y ≠ 0 → Integer.InRange (x.toInt.tmod y.toInt) ∧
        (x.toInt.tmod y.toInt = 0 ∨ (x.toInt.tmod y.toInt).sign = x.toInt.sign)) ∧
      (y ≠ 0 → ¬(x = Int64.minValue ∧ y = -1) →
        ∃ r : Int64, r.toInt = x.toInt.tmod y.toInt ∧ a.rem b = .ok (.int r)) ∧
      (x = Int64.minValue → y = -1 → a.rem b = .error (.overflow .remainder))) ∧
    ((∃ z, m = .float z) ∨ (∃ z, n = .float z) →
      IsFloat (a.rem b) ∧ (n ≠ .int Int64.minValue → IsFloat (a.sub b))) ∧
    ∀ operation, (Cause.overflow operation).category = .type := by
  refine ⟨fun x y hx hy => ?_,fun hfloat => ?_,fun _ => rfl⟩
  · subst hx hy
    refine ⟨exact_sub ha hb,fun hmin => sub_minValue a (hmin ▸ hb),fun hzero => ?_,
      fun hzero hquotient => ?_,rem_minValue ha hb⟩
    · exact ⟨Integer.inRange_tmod hzero,Integer.sign_tmod_or ..⟩
    · exact (exact_rem ha hb hzero hquotient).of_inRange (Integer.inRange_tmod hzero)
  · exact ⟨isFloat_arithmetic ha hb hfloat ..,isFloat_sub ha hb hfloat⟩

/-- The greatest integer subtracted from minus one, in two texts, and as a divisor of it. -/
theorem sub_rem_in_range_of_texts :
    let a : Value := .safe "-1"
    let b : Value := .str "9223372036854775807"
    a.toNumber = .ok (.int (-1)) ∧ b.toNumber = .ok (.int Int64.maxValue) ∧
    a.sub b = .ok (.int Int64.minValue) ∧ a.rem b = .ok (.int (-1)) := by
  intro a b
  have ha : a.toNumber = .ok (.int (-1)) := rfl
  have hb : b.toNumber = .ok (.int Int64.maxValue) := rfl
  obtain ⟨hints,_⟩ := sub_rem_in_range ha hb
  obtain ⟨hsub,_,_,hrem,_⟩ := hints (-1) Int64.maxValue rfl rfl
  obtain ⟨z,hz,hsub⟩ := (hsub (by decide)).of_inRange (by decide)
  obtain ⟨r,hr,hrem⟩ := hrem (by decide) (by decide)
  have hmin : z = Int64.minValue := Int64.toInt_inj.mp (hz.trans (by decide))
  have hminus : r = -1 := Int64.toInt_inj.mp (hr.trans (by decide))
  exact ⟨ha,hb,hmin ▸ hsub,hminus ▸ hrem⟩

/-- A difference, a remainder and a difference of a float that would have room, and overflow. -/
theorem sub_rem_overflow_in_range :
    Integer.InRange ((-1 : Int64).toInt - Int64.minValue.toInt) ∧
    sub (.int (-1)) (.int Int64.minValue) = .error (.overflow .negation) ∧
    Integer.InRange (Int64.minValue.toInt.tmod (-1 : Int64).toInt) ∧
    rem (.int Int64.minValue) (.int (-1)) = .error (.overflow .remainder) ∧
    sub (.float (Binary64.ofRatio false 1 2)) (.int Int64.minValue) =
      .error (.overflow .negation) := by
  exact ⟨by decide,sub_minValue _ rfl,by decide,rem_minValue rfl rfl rfl rfl,sub_minValue _ rfl⟩

/-- Arithmetic with two values that count as integers: the exact sum, product, quotient and negation
where they are in range, and an error of the kind of a value elsewhere. A difference and a remainder
are exact where there is one, and quotient and remainder belong together. -/
theorem integers_never_wrap (ha : a.toNumber = .ok (.int x)) (hb : b.toNumber = .ok (.int y)) :
    Exact .addition (x.toInt + y.toInt) (a.add b) ∧
    Exact .multiplication (x.toInt * y.toInt) (a.mul b) ∧
    (y = 0 → a.div b = .error .divisionByZero) ∧
    (y ≠ 0 → Exact .division (x.toInt.tdiv y.toInt) (a.div b) ∧
      (Integer.InRange (x.toInt.tdiv y.toInt) ↔ ¬(x = Int64.minValue ∧ y = -1))) ∧
    Exact .negation (-x.toInt) a.negate ∧
    (Integer.InRange (-x.toInt) ↔ x ≠ Int64.minValue) ∧
    (∀ r : Int64, a.sub b = .ok (.int r) → r.toInt = x.toInt - y.toInt) ∧
    (∀ r : Int64, a.rem b = .ok (.int r) → r.toInt = x.toInt.tmod y.toInt) ∧
    (∀ q r : Int64, a.div b = .ok (.int q) → a.rem b = .ok (.int r) →
      x.toInt = q.toInt * y.toInt + r.toInt ∧ r.toInt.natAbs < y.toInt.natAbs ∧
      (r.toInt = 0 ∨ r.toInt.sign = x.toInt.sign)) ∧
    Cause.divisionByZero.category = .type ∧
    ∀ operation, (Cause.overflow operation).category = .type := by
  refine ⟨exact_add ha hb,exact_mul ha hb,div_zero ha hb,
    fun hzero => ⟨exact_div ha hb hzero,Integer.inRange_tdiv_iff hzero⟩,exact_negate ha,
    Integer.inRange_neg_iff,fun _ => toInt_sub ha hb,fun _ h => (toInt_rem ha hb h).2,
    fun q r hq hr => ?_,rfl,fun _ => rfl⟩
  obtain ⟨hzero,hr⟩ := toInt_rem ha hb hr
  have hexact := exact_div ha hb hzero
  rw [hq] at hexact
  have hpos : y.toInt ≠ 0 := fun h => hzero (Int64.toInt_inj.mp h)
  rw [hexact.toInt_eq,hr,Int.natAbs_tmod]
  exact ⟨(Int.tdiv_mul_add_tmod ..).symm,Nat.mod_lt _ (by omega),Integer.sign_tmod_or ..⟩

/-- The smallest integer, in a text, and ten. -/
theorem integers_never_wrap_of_minValue :
    let a : Value := .str "-9223372036854775808"
    let b : Value := .int 10
    a.toNumber = .ok (.int Int64.minValue) ∧ b.toNumber = .ok (.int 10) ∧
    a.mul b = .error (.overflow .multiplication) ∧
    ∃ q : Int64, a.div b = .ok (.int q) ∧ q.toInt = -922337203685477580 := by
  intro a b
  have ha : a.toNumber = .ok (.int Int64.minValue) := rfl
  have hb : b.toNumber = .ok (.int 10) := rfl
  obtain ⟨_,hmul,_,hdiv,_⟩ := integers_never_wrap ha hb
  obtain ⟨q,hq,hdiv⟩ := (hdiv (by decide)).1.of_inRange (by decide)
  exact ⟨ha,hb,hmul.of_not_inRange (by decide),q,hdiv,hq.trans (by decide)⟩

end Value

end Stencil
