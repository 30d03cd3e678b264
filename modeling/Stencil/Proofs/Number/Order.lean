import Stencil.Proofs.Number.Round
import Stencil.Value.Number

/-!
The order of numbers. Rounding a whole number to a format keeps the order but may merge neighbours,
so an integer and a float are compared up to rounding, while two integers are compared exactly. Where
these two orders meet, a float in between does not tell two merged integers apart, and that is the
only way in which the comparison fails to be transitive.
-/

set_option autoImplicit false

namespace Stencil

theorem roundHalfEven_le {m n den : Nat} (h : m ≤ n) :
    roundHalfEven m den ≤ roundHalfEven n den := by
  have hm := Nat.div_add_mod m den
  have hn := Nat.div_add_mod n den
  obtain hlt | heq := Nat.lt_or_eq_of_le (Nat.div_le_div_right (c := den) h)
  · have hupper := (roundHalfEven_bounds m den).2
    have hlower := (roundHalfEven_bounds n den).1
    omega
  · have hrest : m % den ≤ n % den := by
      rw [← heq] at hn
      omega
    unfold roundHalfEven
    simp only [heq]
    generalize n / den = q
    repeat' split
    all_goals omega

namespace Format

variable {f : Format} {m n : Nat}

theorem excess_le (h : m ≤ n) : f.excess m ≤ f.excess n := by
  have hlog : m.log2 ≤ n.log2 := by
    by_cases hm : m = 0
    · simp [hm]
    · exact (Nat.le_log2 (by omega)).mpr (Nat.le_trans (Nat.log2_self_le hm) h)
  unfold excess
  omega

theorem round_one (f : Format) (n : Nat) : f.round n 1 =
    min f.infinity (f.excess (n * f.one) * f.binade +
      roundHalfEven (n * f.one) (2 ^ f.excess (n * f.one))) := by
  simp [round]

/-- At one exponent the significands are in order. At different ones the rank at the lower exponent
is at most that of the next power of two, which the other one has reached. -/
theorem round_one_le (h : m ≤ n) : f.round m 1 ≤ f.round n 1 := by
  have hscaled : m * f.one ≤ n * f.one := Nat.mul_le_mul_right _ h
  suffices hrank : f.excess (m * f.one) * f.binade +
      roundHalfEven (m * f.one) (2 ^ f.excess (m * f.one)) ≤
      f.excess (n * f.one) * f.binade +
      roundHalfEven (n * f.one) (2 ^ f.excess (n * f.one)) by
    rw [round_one,round_one]
    omega
  obtain hlt | heq := Nat.lt_or_eq_of_le (excess_le (f := f) hscaled)
  · have hupper := (significand_bounds (f := f) (n := m * f.one)).1
    obtain hzero | hlower := (significand_bounds (f := f) (n := n * f.one)).2
    · omega
    · have hstep := Nat.mul_le_mul_right f.binade (Nat.succ_le_of_lt hlt)
      rw [Nat.succ_mul] at hstep
      omega
  · rw [heq]
    exact Nat.add_le_add_left (roundHalfEven_le hscaled) _

theorem one_pos : 0 < f.one := Nat.two_pow_pos _

theorem exists_units_eq (hunit : f.fraction ≤ f.unit) (h : n ≤ 2 * f.binade) :
    ∃ r ≤ (f.unit + 2) * f.binade, n * f.one = f.units r := by
  by_cases hzero : n = 0
  · exact ⟨0,Nat.zero_le _,by simp [hzero,units]⟩
  let shift := f.fraction - n.log2
  have hfull : f.binade ≤ n * 2 ^ shift := by
    calc f.binade ≤ 2 ^ (n.log2 + shift) := Nat.pow_le_pow_right (by omega) (by omega)
      _ = 2 ^ n.log2 * 2 ^ shift := Nat.pow_add ..
      _ ≤ n * 2 ^ shift := Nat.mul_le_mul_right _ (Nat.log2_self_le hzero)
  have hroom : n * 2 ^ shift ≤ 2 * f.binade := by
    by_cases hlog : n.log2 ≤ f.fraction
    · calc n * 2 ^ shift ≤ 2 ^ (n.log2 + 1) * 2 ^ shift :=
            Nat.mul_le_mul_right _ (Nat.le_of_lt Nat.lt_log2_self)
        _ = 2 ^ (f.fraction + 1) := by
            rw [← Nat.pow_add]
            congr 1
            omega
        _ = 2 * f.binade := Nat.pow_succ'
    · have hshift : shift = 0 := by omega
      simpa [hshift] using h
  refine ⟨(f.unit - shift) * f.binade + n * 2 ^ shift,?_,?_⟩
  · rw [Nat.add_mul]
    exact Nat.add_le_add (Nat.mul_le_mul_right _ (Nat.sub_le ..)) hroom
  · rw [units_rank hroom (.inr hfull),Nat.mul_assoc,← Nat.pow_add,one_eq]
    congr 2
    omega

end Format

namespace Binary64

variable {x y : Binary64} {i j : Int}

theorem units_round_one {n : Nat} (h : n ≤ 2 ^ 53) :
    Format.binary64.units (Format.binary64.round n 1) = n * Format.binary64.one := by
  obtain ⟨r,hr,hunits⟩ := Format.exists_units_eq (f := .binary64) (by decide) h
  rw [Format.round_of_eq_units (by rw [hunits,Nat.one_mul]) Nat.one_pos
    (Nat.lt_of_le_of_lt hr (by decide)),hunits]

/-- The sign and the other bits are all of a number, as the ranks of numbers end with infinity and
those beyond it are payloads. -/
theorem eq_of_rank (hsign : x.isNegative = y.isNegative) (hrank : x.rank = y.rank) : x = y := by
  cases x with
  | nan s p =>
    cases y with
    | nan t q =>
      obtain rfl : s = t := hsign
      rw [Fin.ext (show p.val = q.val by simp only [rank] at hrank; omega)]
    | number t q =>
      simp only [rank] at hrank
      omega
  | number s r =>
    cases y with
    | nan t q =>
      simp only [rank] at hrank
      omega
    | number t q =>
      obtain rfl : s = t := hsign
      rw [Fin.ext (show r.val = q.val from hrank)]

theorem position_injective (h : x.position = y.position) : x = y := by
  unfold position at h
  split at h <;> split at h
  · exact eq_of_rank (by simp [*]) (by omega)
  · omega
  · omega
  · exact eq_of_rank (by simp [*]) (by omega)

theorem position_ofInt (i : Int) : (ofInt i).position =
    if i < 0 then -(Format.binary64.round i.natAbs 1 : Int) - 1
    else Format.binary64.round i.natAbs 1 := by
  by_cases h : i < 0 <;> simp [ofInt,ofRatio,position,rank,isNegative,h]

theorem position_ofInt_le (h : i ≤ j) : (ofInt i).position ≤ (ofInt j).position := by
  rw [position_ofInt,position_ofInt]
  split
  · split
    · have hround := Format.round_one_le (f := .binary64) (show j.natAbs ≤ i.natAbs by omega)
      omega
    · omega
  · rw [if_neg (by omega)]
    have hround := Format.round_one_le (f := .binary64) (show i.natAbs ≤ j.natAbs by omega)
    omega

theorem ofInt_injective_of_le (hi : i.natAbs ≤ 2 ^ 53) (hj : j.natAbs ≤ 2 ^ 53)
    (h : ofInt i = ofInt j) : i = j := by
  have hposition := congrArg position h
  rw [position_ofInt,position_ofInt] at hposition
  have hsize (hround : Format.binary64.round i.natAbs 1 = Format.binary64.round j.natAbs 1) :
      i.natAbs = j.natAbs := by
    have hunits := congrArg Format.binary64.units hround
    rw [units_round_one hi,units_round_one hj] at hunits
    exact Nat.eq_of_mul_eq_mul_right Format.one_pos hunits
  split at hposition
  · split at hposition
    · have := hsize (by omega)
      omega
    · omega
  · split at hposition
    · omega
    · have := hsize (by omega)
      omega

end Binary64

namespace Number

variable {m n k : Number}

def place (n : Number) : Int := n.toFloat.position

theorem compare_swap (m n : Number) : (m.compare n).swap = n.compare m := by
  cases m <;> cases n <;> exact Int.compare_swap _ _

theorem compare_self (n : Number) : n.compare n = .eq := by
  cases n <;> exact Int.compare_eq_eq.mpr rfl

theorem compare_eq_swap_iff (o : Ordering) : m.compare n = o ↔ n.compare m = o.swap := by
  rw [← compare_swap m n,Ordering.swap_inj]

theorem compare_eq_symm (h : m.compare n = .eq) : n.compare m = .eq := by
  rw [← compare_swap m n,h]
  rfl

structure Merged (m n : Number) : Prop where
  ints : ∃ i j : Int64, m = .int i ∧ n = .int j ∧ i ≠ j
  toFloat : m.toFloat = n.toFloat

theorem Merged.symm (h : Merged m n) : Merged n m := by
  obtain ⟨i,j,hi,hj,hne⟩ := h.ints
  exact ⟨⟨j,i,hj,hi,hne.symm⟩,h.toFloat.symm⟩

theorem compare_eq_place (h : ¬Merged m n) :
    m.compare n = Ord.compare m.place n.place := by
  cases m with
  | float x => cases n <;> rfl
  | int i =>
    cases n with
    | float y => rfl
    | int j =>
      show Ord.compare i.toInt j.toInt =
        Ord.compare (Binary64.ofInt i.toInt).position (Binary64.ofInt j.toInt).position
      have hne (hij : i.toInt ≠ j.toInt) :
          (Binary64.ofInt i.toInt).position ≠ (Binary64.ofInt j.toInt).position :=
        fun hplace => h ⟨⟨i,j,rfl,rfl,fun heq => hij (congrArg _ heq)⟩,
          Binary64.position_injective hplace⟩
      obtain hlt | heq | hgt := Int.lt_trichotomy i.toInt j.toInt
      · have hle := Binary64.position_ofInt_le (Int.le_of_lt hlt)
        have hne := hne (by omega)
        rw [Int.compare_eq_lt.mpr hlt,Int.compare_eq_lt.mpr (by omega)]
      · rw [heq,Int.compare_eq_eq.mpr rfl,Int.compare_eq_eq.mpr rfl]
      · have hle := Binary64.position_ofInt_le (Int.le_of_lt hgt)
        have hne := hne (by omega)
        rw [Int.compare_eq_gt.mpr hgt,Int.compare_eq_gt.mpr (by omega)]

/-- The comparison never contradicts the order of the floats. -/
theorem place_le (h : m.compare n ≠ .gt) : m.place ≤ n.place := by
  by_cases hmerged : Merged m n
  · exact Int.le_of_eq (congrArg Binary64.position hmerged.toFloat)
  · rw [compare_eq_place hmerged] at h
    exact Int.compare_ne_gt.mp h

theorem toFloat_eq (h : m.compare n = .eq) : m.toFloat = n.toFloat := by
  have hle := place_le (m := m) (n := n) (by rw [h]; decide)
  have hge := place_le (m := n) (n := m) (by rw [compare_eq_symm h]; decide)
  exact Binary64.position_injective (Int.le_antisymm hle hge)

structure Blurred (m n k : Number) : Prop where
  merged : Merged m k
  float : n = .float m.toFloat

theorem Blurred.symm (h : Blurred m n k) : Blurred k n m :=
  ⟨h.merged.symm,h.merged.toFloat ▸ h.float⟩

theorem Blurred.compare_eq (h : Blurred m n k) : m.compare n = .eq := by
  obtain ⟨i,_,rfl,_⟩ := h.merged.ints
  rw [h.float]
  exact Int.compare_eq_eq.mpr rfl

theorem Merged.compare_ne (h : Merged m n) : m.compare n ≠ .eq := by
  obtain ⟨i,j,rfl,rfl,hne⟩ := h.ints
  exact fun heq => hne (Int64.toInt_inj.mp (Int.compare_eq_eq.mp heq))

theorem Merged.large (h : Merged m n) :
    ∃ i j : Int64, m = .int i ∧ n = .int j ∧ (2 ^ 53 < i.toInt.natAbs ∨ 2 ^ 53 < j.toInt.natAbs) := by
  obtain ⟨i,j,rfl,rfl,hne⟩ := h.ints
  refine ⟨i,j,rfl,rfl,Decidable.byContradiction fun hsmall => hne (Int64.toInt_inj.mp ?_)⟩
  exact Binary64.ofInt_injective_of_le (by omega) (by omega) h.toFloat

/-- What lies between two merged integers is an integer too, or the float that blurs them. -/
theorem Merged.between (h : Merged m k) (hm : m.place ≤ n.place) (hk : n.place ≤ k.place) :
    (∃ i, n = .int i) ∨ Blurred m n k := by
  cases n with
  | int i => exact .inl ⟨i,rfl⟩
  | float x =>
    have hplace : m.place = k.place := congrArg Binary64.position h.toFloat
    rw [← hplace] at hk
    have hx : x = m.toFloat := Binary64.position_injective (Int.le_antisymm hk hm)
    exact .inr ⟨h,congrArg _ hx⟩

theorem compare_le_trans (hmn : m.compare n ≠ .gt) (hnk : n.compare k ≠ .gt) :
    m.compare k ≠ .gt ∨ Blurred m n k := by
  by_cases hmerged : Merged m k
  · obtain ⟨l,rfl⟩ | hblurred := hmerged.between (place_le hmn) (place_le hnk)
    · obtain ⟨i,j,rfl,rfl,_⟩ := hmerged.ints
      have hil : i.toInt ≤ l.toInt := Int.compare_ne_gt.mp hmn
      have hlj : l.toInt ≤ j.toInt := Int.compare_ne_gt.mp hnk
      exact .inl (Int.compare_ne_gt.mpr (Int.le_trans hil hlj))
    · exact .inr hblurred
  · rw [compare_eq_place hmerged]
    exact .inl (Int.compare_ne_gt.mpr (Int.le_trans (place_le hmn) (place_le hnk)))

theorem Merged.compare_congr (hm : Merged m k) (h : m.compare n = .eq) :
    m.compare k = n.compare k ∨ Blurred m n k := by
  have hmn : m.place = n.place := congrArg Binary64.position (toFloat_eq h)
  have hmk : m.place = k.place := congrArg Binary64.position hm.toFloat
  obtain ⟨j,rfl⟩ | hblurred := hm.between (n := n) (by omega) (by omega)
  · obtain ⟨i,_,rfl,_⟩ := hm.ints
    have hij : i = j := Int64.toInt_inj.mp (Int.compare_eq_eq.mp h)
    exact .inl (by rw [hij])
  · exact .inr hblurred

/-- Numbers that are equal compare alike with every third one, unless that is merged with one of
them. -/
theorem compare_congr (h : m.compare n = .eq) (k : Number) :
    m.compare k = n.compare k ∨ Blurred m n k ∨ Blurred n m k := by
  by_cases hm : Merged m k
  · exact (hm.compare_congr h).imp_right .inl
  · by_cases hn : Merged n k
    · exact (hn.compare_congr (compare_eq_symm h)).imp Eq.symm .inr
    · have hplace : m.place = n.place := congrArg Binary64.position (toFloat_eq h)
      rw [compare_eq_place hm,compare_eq_place hn,hplace]
      exact .inl rfl

theorem compare_eq_trans (hmn : m.compare n = .eq) (hnk : n.compare k = .eq) :
    m.compare k = .eq ∨ Blurred m n k := by
  obtain heq | hblurred | hblurred := compare_congr hmn k
  · exact .inl (heq.trans hnk)
  · exact .inr hblurred
  · exact absurd hnk hblurred.merged.compare_ne

end Number

end Stencil
