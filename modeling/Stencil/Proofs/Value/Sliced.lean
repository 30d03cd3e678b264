import Stencil.Proofs.Number.Progression
import Stencil.Value.Access

set_option autoImplicit false

namespace Stencil

namespace Integer

theorem toInt_saturatingAdd {a b : Int64} (ha : a.toInt < 0) (hb : 0 ≤ b.toInt) :
    (saturatingAdd a b).toInt = a.toInt + b.toInt := by
  have hmin := a.minValue_le_toInt
  have hmax := b.toInt_le
  unfold saturatingAdd clamp
  rw [if_neg (by omega),if_neg (by omega)]
  exact toInt_ofInt (by omega) (by omega)

theorem toInt_max (a b : Int64) : (max a b).toInt = max a.toInt b.toInt := by
  have hmax : max a b = if a ≤ b then b else a := rfl
  rw [hmax]
  split <;> simp_all only [Int64.le_iff_toInt_le] <;> omega

theorem toInt_min (a b : Int64) : (min a b).toInt = min a.toInt b.toInt := by
  have hmin : min a b = if a ≤ b then a else b := rfl
  rw [hmin]
  split <;> simp_all only [Int64.le_iff_toInt_le] <;> omega

theorem toInt_ofNat {n : Nat} (h : n ≤ Int64.maxValue.toInt) : (Int64.ofNat n).toInt = n := by
  rw [Int64.toInt_maxValue] at h
  exact Int64.toInt_ofNat_of_lt (by omega)

theorem toInt_pred {a : Int64} (ha : 0 ≤ a.toInt) : (a - 1).toInt = a.toInt - 1 := by
  have hmax := a.toInt_lt
  rw [Int64.toInt_sub,Int64.toInt_one]
  exact Int.bmod_eq_of_le (by omega) (by omega)

end Integer

namespace Value

def stride (step : Option Int64) : Int := step.elim 1 Int64.toInt

/-- The place of a bound among `n` elements: a negative one counts from the end, and one outside is
moved to the nearest place, from 0 to `n` upwards and from -1 to `n - 1` downwards. -/
def boundPlace (n : Nat) (d b : Int) : Int :=
  let i := if b < 0 then b + n else b
  if d < 0 then max (-1) (min i (n - 1)) else max 0 (min i n)

def firstPlace (n : Nat) (d : Int) : Option Int64 → Int
  | some b => boundPlace n d b.toInt
  | Option.none => if d < 0 then n - 1 else 0

def lastPlace (n : Nat) (d : Int) : Option Int64 → Int
  | some b => boundPlace n d b.toInt
  | Option.none => if d < 0 then -1 else n

variable {α : Type} {elements part other : List α} {n : Nat} {start stop step : Option Int64}
  {b length : Int64} {d first last : Int}

theorem toInt_getD_one (step : Option Int64) : (step.getD 1).toInt = stride step := by
  cases step <;> rfl

theorem getD_one_ne_zero (hstep : stride step ≠ 0) : step.getD 1 ≠ 0 :=
  fun h => hstep ((toInt_getD_one step).symm.trans (congrArg Int64.toInt h))

theorem toInt_slicePlace (hlength : length.toInt = n) (step : Int64) :
    (slicePlace length (sliceEnds length step) b).toInt = boundPlace n step.toInt b.toInt := by
  have hpred := Integer.toInt_pred (a := length) (by omega)
  have hminus : (-1 : Int64).toInt = -1 := rfl
  unfold slicePlace sliceEnds boundPlace
  simp only [Int64.lt_iff_toInt_lt,Int64.toInt_zero]
  by_cases hb : b.toInt < 0
  · have hsum := Integer.toInt_saturatingAdd hb (b := length) (by omega)
    simp only [hb,if_true,Integer.toInt_max,hsum]
    split <;> simp only [hminus,Int64.toInt_zero] <;> omega
  · simp only [hb,if_false,Integer.toInt_min]
    split <;> simp only [hpred] <;> omega

/-- The positions of a slice are a progression between its places. -/
theorem slicePositions_eq (start stop : Option Int64) (hn : n ≤ Int64.maxValue.toInt)
    (hstep : stride step ≠ 0) :
    ∃ first last : Int64, first.toInt = firstPlace n (stride step) start ∧
      last.toInt = lastPlace n (stride step) stop ∧
      slicePositions n start stop step =
        .ok (Integer.progression last (step.getD 1) first) := by
  have hlength : (Int64.ofNat n).toInt = n := Integer.toInt_ofNat hn
  have hstride := toInt_getD_one step
  have hne := getD_one_ne_zero hstep
  have hpred := Integer.toInt_pred (a := Int64.ofNat n) (by omega)
  refine ⟨_,_,?_,?_,by unfold slicePositions; simp only [if_neg hne]; rfl⟩
  · cases start with
    | none =>
      simp only [Option.map_none,Option.getD_none,firstPlace,sliceEnds,Int64.lt_iff_toInt_lt,
        Int64.toInt_zero,hstride]
      split <;> simp [*]
    | some b => exact hstride ▸ toInt_slicePlace hlength (step.getD 1)
  · cases stop with
    | none =>
      simp only [Option.map_none,Option.getD_none,lastPlace,sliceEnds,Int64.lt_iff_toInt_lt,
        Int64.toInt_zero,hstride]
      split <;> simp [*]
    | some b => exact hstride ▸ toInt_slicePlace hlength (step.getD 1)

/-- The part of a sequence at `first`, `first + d`, … in front of `last`. -/
structure IsSlice (elements part : List α) (first last d : Int) : Prop where
  inside : ∀ k : Nat, Integer.Precedes d (first + k * d) last →
    0 ≤ first + k * d ∧ first + k * d < elements.length
  length : ∀ k : Nat, k < part.length ↔ Integer.Precedes d (first + k * d) last
  element : ∀ k : Nat, k < part.length → part[k]? = elements[(first + k * d).toNat]?

theorem IsSlice.unique (h : IsSlice elements part first last d)
    (h' : IsSlice elements other first last d) : part = other := by
  have hlength (k : Nat) : k < part.length ↔ k < other.length :=
    (h.length k).trans (h'.length k).symm
  refine List.ext_getElem? fun k => ?_
  by_cases hk : k < part.length
  · rw [h.element k hk,h'.element k ((hlength k).mp hk)]
  · rw [List.getElem?_eq_none (by omega),List.getElem?_eq_none (by have := hlength k; omega)]

theorem precedes_one {i stop : Int} : Integer.Precedes 1 i stop ↔ i < stop := Iff.rfl

theorem precedes_neg_one {i stop : Int} : Integer.Precedes (-1) i stop ↔ stop < i := Iff.rfl

theorem isSlice_take {m : Nat} (hm : m ≤ elements.length) :
    IsSlice elements (elements.take m) 0 m 1 where
  inside k hk := by
    rw [precedes_one] at hk
    omega
  length k := by
    rw [precedes_one,List.length_take]
    omega
  element k hk := by
    rw [List.length_take] at hk
    simp only [Int.zero_add,Int.mul_one,Int.toNat_natCast]
    exact List.getElem?_take_of_lt (by omega)

theorem isSlice_drop {m : Nat} (hm : m ≤ elements.length) :
    IsSlice elements (elements.drop m) m elements.length 1 where
  inside k hk := by
    rw [precedes_one] at hk
    omega
  length k := by
    rw [precedes_one,List.length_drop]
    omega
  element k hk := by
    have hplace : ((m : Int) + k * 1).toNat = m + k := by omega
    rw [hplace,List.getElem?_drop]

theorem isSlice_reverse :
    IsSlice elements elements.reverse (elements.length - 1) (-1) (-1) where
  inside k hk := by
    rw [precedes_neg_one] at hk
    omega
  length k := by
    rw [precedes_neg_one,List.length_reverse]
    omega
  element k hk := by
    rw [List.length_reverse] at hk
    have hplace : ((elements.length : Int) - 1 + k * -1).toNat = elements.length - 1 - k := by omega
    rw [hplace,List.getElem?_reverse hk]

theorem firstPlace_inside (n : Nat) (d : Int) (start : Option Int64) :
    if d < 0 then firstPlace n d start ≤ n - 1 else 0 ≤ firstPlace n d start := by
  cases start <;> simp only [firstPlace,boundPlace] <;> split <;> omega

theorem lastPlace_inside (n : Nat) (d : Int) (stop : Option Int64) :
    if d < 0 then -1 ≤ lastPlace n d stop else lastPlace n d stop ≤ n := by
  cases stop <;> simp only [lastPlace,boundPlace] <;> split <;> omega

theorem inside_of_precedes {k : Nat}
    (hk : Integer.Precedes d (firstPlace n d start + k * d) (lastPlace n d stop)) :
    0 ≤ firstPlace n d start + k * d ∧ firstPlace n d start + k * d < n := by
  have hfirst := firstPlace_inside n d start
  have hlast := lastPlace_inside n d stop
  unfold Integer.Precedes at hk
  split at hk
  · rename_i hneg
    have hmul : (k : Int) * d ≤ 0 := Int.mul_nonpos_of_nonneg_of_nonpos (by omega) (by omega)
    rw [if_pos hneg] at hfirst hlast
    omega
  · rename_i hneg
    have hmul : 0 ≤ (k : Int) * d := Int.mul_nonneg (by omega) (by omega)
    rw [if_neg hneg] at hfirst hlast
    omega

theorem getElem?_filterMap_of_isSome {β : Type} {f : β → Option α} {l : List β}
    (h : ∀ x ∈ l, (f x).isSome) (k : Nat) : (l.filterMap f)[k]? = l[k]?.bind f := by
  induction l generalizing k with
  | nil => simp
  | cons x l ih =>
    obtain ⟨hx,hl⟩ := List.forall_mem_cons.mp h
    obtain ⟨y,hy⟩ := Option.isSome_iff_exists.mp hx
    rw [List.filterMap_cons_some hy]
    cases k with
    | zero => simp [hy]
    | succ k => simpa using ih hl k

theorem sliceElements_isSlice (start stop : Option Int64)
    (hlength : elements.length ≤ Int64.maxValue.toInt) (hstep : stride step ≠ 0) :
    ∃ part, sliceElements elements start stop step = .ok part ∧
      IsSlice elements part (firstPlace elements.length (stride step) start)
        (lastPlace elements.length (stride step) stop) (stride step) := by
  obtain ⟨first,last,hfirst,hlast,hpositions⟩ :=
    slicePositions_eq start stop hlength hstep
  have hstride := toInt_getD_one step
  have hne := getD_one_ne_zero hstep
  let positions := Integer.progression last (step.getD 1) first
  have hlt (k : Nat) : k < positions.length ↔ Integer.Precedes (stride step)
      (firstPlace elements.length (stride step) start + k * stride step)
      (lastPlace elements.length (stride step) stop) := by
    rw [Integer.lt_length_progression_iff hne,hstride,hfirst,hlast]
  have hplace {k : Nat} {i : Int64} (hi : positions[k]? = some i) :
      i.toInt = firstPlace elements.length (stride step) start + k * stride step := by
    rw [Integer.toInt_of_mem_progression hi,hstride,hfirst]
  have hsome : ∀ i ∈ positions, (elements[i.toInt.toNat]?).isSome := by
    intro i hi
    obtain ⟨k,hk⟩ := List.mem_iff_getElem?.mp hi
    obtain ⟨hklt,_⟩ := List.getElem?_eq_some_iff.mp hk
    have hinside := inside_of_precedes ((hlt k).mp hklt)
    rw [hplace hk,List.getElem?_eq_getElem (by omega)]
    rfl
  have helement := getElem?_filterMap_of_isSome hsome
  refine ⟨positions.filterMap fun i => elements[i.toInt.toNat]?,?_,?_⟩
  · rw [sliceElements,hpositions]
    rfl
  · have hsame : (positions.filterMap fun i => elements[i.toInt.toNat]?).length =
        positions.length := by
      rw [List.length_filterMap_eq_countP,List.countP_eq_length]
      exact hsome
    refine ⟨fun k hk => inside_of_precedes hk,fun k => ?_,fun k hk => ?_⟩
    · rw [hsame,hlt]
    · rw [hsame] at hk
      rw [helement k,List.getElem?_eq_getElem hk,Option.bind_some,
        hplace (List.getElem?_eq_getElem hk)]

theorem boundPlace_one (n : Nat) (b : Int) :
    ∃ m : Nat, m ≤ n ∧ boundPlace n 1 b = m := by
  have hrange : 0 ≤ boundPlace n 1 b ∧ boundPlace n 1 b ≤ n := by
    unfold boundPlace
    simp only [Int.reduceLT,if_false]
    omega
  exact ⟨(boundPlace n 1 b).toNat,by omega,by omega⟩

inductive IsSequence : {α : Type} → Value → List α → (List α → Value) → Prop where
  | list (items : List Value) : IsSequence (.list items) items .list
  | str (s : String) : IsSequence (.str s) s.toList fun cs => .str (String.ofList cs)
  | safe (s : String) : IsSequence (.safe s) s.toList fun cs => .str (String.ofList cs)

namespace IsSequence

variable {v : Value} {make : List α → Value}

theorem slice_eq (h : IsSequence v elements make) (start stop step : Option Int64) :
    v.slice start stop step = (sliceElements elements start stop step).map make := by
  cases h <;> rfl

theorem exists_slice (h : IsSequence v elements make)
    (hlength : elements.length ≤ Int64.maxValue.toInt) (start stop : Option Int64)
    (hstep : stride step ≠ 0) :
    ∃ part, v.slice start stop step = .ok (make part) ∧
      IsSlice elements part (firstPlace elements.length (stride step) start)
        (lastPlace elements.length (stride step) stop) (stride step) := by
  obtain ⟨part,hpart,hslice⟩ := sliceElements_isSlice start stop hlength hstep
  exact ⟨part,by rw [h.slice_eq,hpart]; rfl,hslice⟩

theorem slice_append_slice (h : IsSequence v elements make)
    (hlength : elements.length ≤ Int64.maxValue.toInt) (b : Int64) :
    ∃ front back, v.slice Option.none (some b) Option.none = .ok (make front) ∧
      v.slice (some b) Option.none Option.none = .ok (make back) ∧ front ++ back = elements := by
  have hstep : stride Option.none ≠ 0 := by decide
  obtain ⟨front,hfront,hfrontSlice⟩ := h.exists_slice hlength Option.none (some b) hstep
  obtain ⟨back,hback,hbackSlice⟩ := h.exists_slice hlength (some b) Option.none hstep
  obtain ⟨m,hm,hplace⟩ := boundPlace_one elements.length b.toInt
  have hlast : lastPlace elements.length 1 (some b) = m := hplace
  have hfirst : firstPlace elements.length 1 (some b) = m := hplace
  refine ⟨front,back,hfront,hback,?_⟩
  rw [show stride Option.none = 1 from rfl] at hfrontSlice hbackSlice
  rw [hlast] at hfrontSlice
  rw [hfirst] at hbackSlice
  rw [hfrontSlice.unique (isSlice_take hm),hbackSlice.unique (isSlice_drop hm),
    List.take_append_drop]

theorem slice_reverse (h : IsSequence v elements make)
    (hlength : elements.length ≤ Int64.maxValue.toInt) :
    v.slice Option.none Option.none (some (-1)) = .ok (make elements.reverse) := by
  have hstep : stride (some (-1)) ≠ 0 := by decide
  obtain ⟨part,hpart,hslice⟩ := h.exists_slice hlength Option.none Option.none hstep
  rw [hpart,hslice.unique isSlice_reverse]

end IsSequence

/-- A slice of a list or a text, whose length is a 64-bit integer: a step of zero is an error of the
kind of a value. Otherwise the slice has exactly the elements at the first place and from there on
in steps, as long as a place comes before the last one. A sum of places that is no 64-bit integer does
not come before it, and a negative bound has a sum with the length. What is in front of a bound and
what is behind it are the whole, and a step of -1 turns it round. -/
theorem slice_selects {v : Value} {make : List α → Value} (h : IsSequence v elements make)
    (hlength : elements.length ≤ Int64.maxValue.toInt) :
    (∀ start stop, v.slice start stop (some 0) = .error .zeroSliceStep) ∧
    Cause.zeroSliceStep.category = .type ∧
    (∀ start stop step, stride step ≠ 0 → ∃ part, v.slice start stop step = .ok (make part) ∧
      IsSlice elements part (firstPlace elements.length (stride step) start)
        (lastPlace elements.length (stride step) stop) (stride step)) ∧
    (∀ start stop step (k : Nat), Integer.ofInt?
      (firstPlace elements.length (stride step) start + k * stride step) = Option.none →
      ¬Integer.Precedes (stride step)
        (firstPlace elements.length (stride step) start + k * stride step)
        (lastPlace elements.length (stride step) stop)) ∧
    (∀ b : Int64, b < 0 → Integer.checkedAdd b (Int64.ofNat elements.length) ≠ Option.none) ∧
    (∀ b : Int64, ∃ front back, v.slice Option.none (some b) Option.none = .ok (make front) ∧
      v.slice (some b) Option.none Option.none = .ok (make back) ∧ front ++ back = elements) ∧
    v.slice Option.none Option.none (some (-1)) = .ok (make elements.reverse) := by
  refine ⟨fun start stop => ?_,rfl,fun start stop step => h.exists_slice hlength start stop,
    fun start stop step k hsum hprecedes => ?_,fun b hb hsum => ?_,h.slice_append_slice hlength,
    h.slice_reverse hlength⟩
  · rw [h.slice_eq]
    rfl
  · have hinside := inside_of_precedes hprecedes
    have hmin : Int64.minValue.toInt ≤ 0 := by decide
    rw [Integer.ofInt?_eq_none_iff] at hsum
    omega
  · rw [Int64.lt_iff_toInt_lt,Int64.toInt_zero] at hb
    have hsize := Integer.toInt_ofNat hlength
    have hmin := b.minValue_le_toInt
    rw [Integer.checkedAdd,Integer.ofInt?_eq_none_iff,hsize] at hsum
    omega

/-- Bounds and a step at the limits of the 64-bit integers. -/
theorem slice_selects_at_limits :
    let v : Value := .str "héllo"
    "héllo".toList.length ≤ Int64.maxValue.toInt ∧
    (∃ part, v.slice (some Int64.minValue) (some Int64.maxValue) (some Int64.maxValue) =
      .ok (.str (String.ofList part)) ∧ part.length = 1 ∧ part[0]? = some 'h') ∧
    (∃ part, v.slice (some Int64.maxValue) (some Int64.minValue) (some Int64.minValue) =
      .ok (.str (String.ofList part)) ∧ part.length = 1 ∧ part[0]? = some 'o') ∧
    v.slice Option.none Option.none (some (-1)) = .ok (.str "olléh") := by
  intro v
  have hlength : "héllo".toList.length ≤ Int64.maxValue.toInt := by decide
  obtain ⟨_,_,hslice,_,_,_,hreverse⟩ := slice_selects (.str "héllo") hlength
  refine ⟨hlength,?_,?_,hreverse⟩
  · obtain ⟨part,hpart,h⟩ := hslice (some Int64.minValue) (some Int64.maxValue)
      (some Int64.maxValue) (by decide)
    have hfirst : 0 < part.length := (h.length 0).mpr (by decide)
    have hsecond : ¬1 < part.length := mt (h.length 1).mp (by decide)
    exact ⟨part,hpart,by omega,(h.element 0 hfirst).trans (by decide)⟩
  · obtain ⟨part,hpart,h⟩ := hslice (some Int64.maxValue) (some Int64.minValue)
      (some Int64.minValue) (by decide)
    have hfirst : 0 < part.length := (h.length 0).mpr (by decide)
    have hsecond : ¬1 < part.length := mt (h.length 1).mp (by decide)
    exact ⟨part,hpart,by omega,(h.element 0 hfirst).trans (by decide)⟩

end Value

end Stencil
