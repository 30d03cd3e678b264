import Mathlib.Tactic.Ring
import Stencil.Number.Format

set_option autoImplicit false

namespace Stencil

theorem roundHalfEven_mul {den : Nat} (h : 0 < den) (k : Nat) :
    roundHalfEven (den * k) den = k := by
  simp [roundHalfEven,Nat.mul_div_cancel_left k h,h]

theorem roundHalfEven_bounds (num den : Nat) :
    num / den ≤ roundHalfEven num den ∧ roundHalfEven num den ≤ num / den + 1 := by
  unfold roundHalfEven
  simp only
  split
  · omega
  · split <;> omega

theorem log2_mul_two_pow {k : Nat} (hk : k ≠ 0) (e : Nat) : (k * 2 ^ e).log2 = k.log2 + e := by
  induction e with
  | zero => simp
  | succ e ih =>
    have hne : k * 2 ^ e ≠ 0 := Nat.mul_ne_zero hk (Nat.two_pow_pos e).ne'
    rw [Nat.pow_succ',Nat.mul_left_comm,Nat.log2_two_mul hne,ih,Nat.add_assoc]

namespace Format

variable {f : Format} {e k r num den : Nat}

theorem one_eq : f.one = 2 ^ f.unit := rfl

theorem binade_eq : f.binade = 2 ^ f.fraction := rfl

theorem binade_pos : 0 < f.binade := Nat.two_pow_pos _

/-- A significand `k` at the exponent `e`: it has all its bits, unless the exponent is the least. -/
structure Valid (f : Format) (e k : Nat) : Prop where
  lt : k < 2 * f.binade
  full : e = 0 ∨ f.binade ≤ k

theorem exists_valid (f : Format) (r : Nat) : ∃ e k, f.Valid e k ∧ r = e * f.binade + k := by
  have hpos := binade_pos (f := f)
  have hr := Nat.div_add_mod r f.binade
  have hmod := Nat.mod_lt r hpos
  cases hq : r / f.binade with
  | zero =>
    rw [hq] at hr
    exact ⟨0,r,⟨by omega,.inl rfl⟩,by omega⟩
  | succ e =>
    rw [hq,Nat.mul_add,Nat.mul_comm] at hr
    exact ⟨e,f.binade + r % f.binade,⟨by omega,.inr (by omega)⟩,by omega⟩

theorem units_rank (hk : k ≤ 2 * f.binade) (hfull : e = 0 ∨ f.binade ≤ k) :
    f.units (e * f.binade + k) = k * 2 ^ e := by
  have hpos := binade_pos (f := f)
  unfold units
  simp only
  by_cases hlt : k < f.binade
  · obtain rfl : e = 0 := by omega
    simp [Nat.div_eq_of_lt hlt,Nat.mod_eq_of_lt hlt]
  by_cases htop : k = 2 * f.binade
  · subst htop
    have hdiv : (e * f.binade + 2 * f.binade) / f.binade = e + 2 := by
      rw [← Nat.add_mul,Nat.mul_div_cancel _ hpos]
    have hmod : (e * f.binade + 2 * f.binade) % f.binade = 0 := by
      rw [← Nat.add_mul,Nat.mul_mod_left]
    rw [hdiv,hmod]
    simp only [Nat.add_zero,Nat.add_one_sub_one,Nat.reduceEqDiff,if_false]
    show f.binade * 2 ^ (e + 1) = 2 * f.binade * 2 ^ e
    rw [Nat.pow_succ]
    ring
  · obtain ⟨m,rfl⟩ : ∃ m, k = f.binade + m := ⟨k - f.binade,by omega⟩
    have hm : m < f.binade := by omega
    have hsum : e * f.binade + (f.binade + m) = m + f.binade * (e + 1) := by ring
    have hdiv : (e * f.binade + (f.binade + m)) / f.binade = e + 1 := by
      rw [hsum,Nat.add_mul_div_left _ _ hpos,Nat.div_eq_of_lt hm,Nat.zero_add]
    have hmod : (e * f.binade + (f.binade + m)) % f.binade = m := by
      rw [hsum,Nat.add_mul_mod_self_left,Nat.mod_eq_of_lt hm]
    rw [hdiv,hmod]
    simp

theorem excess_valid (h : f.Valid e k) : f.excess (k * 2 ^ e) = e := by
  obtain ⟨hlt,hfull⟩ := h
  unfold excess
  rw [binade_eq] at hlt hfull
  by_cases hk : k = 0
  · subst hk
    have := Nat.two_pow_pos f.fraction
    obtain rfl : e = 0 := by omega
    simp
  · have hlog : (k * 2 ^ e).log2 = k.log2 + e := log2_mul_two_pow hk e
    have hupper : k.log2 < f.fraction + 1 := (Nat.log2_lt hk).mpr (by rw [Nat.pow_succ]; omega)
    obtain rfl | hle := hfull
    · omega
    · have hlower : f.fraction ≤ k.log2 := (Nat.le_log2 hk).mpr hle
      omega

theorem round_of_eq_units (h : num * f.one = den * f.units r) (hden : 0 < den)
    (hr : r < f.infinity) : f.round num den = r := by
  obtain ⟨e,k,hvalid,rfl⟩ := f.exists_valid r
  rw [units_rank (Nat.le_of_lt hvalid.lt) hvalid.full] at h
  have hexcess : f.excess (num * f.one / den) = e := by
    rw [h,Nat.mul_div_cancel_left _ hden,excess_valid hvalid]
  have hround : roundHalfEven (num * f.one) (den * 2 ^ e) = k := by
    rw [h,show den * (k * 2 ^ e) = den * 2 ^ e * k by ring]
    exact roundHalfEven_mul (Nat.mul_pos hden (Nat.two_pow_pos e)) k
  unfold round
  simp only [hexcess,Nat.pow_eq,hround]
  omega

theorem valid_significand (f : Format) (n : Nat) : f.Valid (f.excess n) (n / 2 ^ f.excess n) := by
  constructor
  · rw [binade_eq,Nat.div_lt_iff_lt_mul (Nat.two_pow_pos _),← Nat.pow_succ',← Nat.pow_add]
    refine Nat.lt_of_lt_of_le Nat.lt_log2_self (Nat.pow_le_pow_right (by omega) ?_)
    unfold excess
    omega
  · by_cases he : f.excess n = 0
    · exact .inl he
    · right
      have hn : n ≠ 0 := by
        rintro rfl
        simp [excess] at he
      rw [binade_eq,Nat.le_div_iff_mul_le (Nat.two_pow_pos _),← Nat.pow_add]
      refine Nat.le_trans (Nat.pow_le_pow_right (by omega) ?_) (Nat.log2_self_le hn)
      unfold excess at he ⊢
      omega

theorem significand_bounds {n : Nat} :
    roundHalfEven n (2 ^ f.excess n) ≤ 2 * f.binade ∧
      (f.excess n = 0 ∨ f.binade ≤ roundHalfEven n (2 ^ f.excess n)) := by
  obtain ⟨hlower,hupper⟩ := roundHalfEven_bounds n (2 ^ f.excess n)
  have hvalid := f.valid_significand n
  have hlt := hvalid.lt
  exact ⟨by omega,hvalid.full.imp_right fun hfull => Nat.le_trans hfull hlower⟩

theorem one_dvd_units_round (h : f.round num 1 < f.infinity) : f.one ∣ f.units (f.round num 1) := by
  unfold round at h ⊢
  simp only [Nat.div_one,Nat.one_mul,Nat.pow_eq] at h ⊢
  have hsignificand := significand_bounds (f := f) (n := num * f.one)
  rw [Nat.min_eq_right (by omega)]
  rw [units_rank hsignificand.1 hsignificand.2]
  obtain hle | hle := Nat.le_total f.unit (f.excess (num * f.one))
  · exact Nat.dvd_mul_left_of_dvd (Nat.pow_dvd_pow 2 hle) _
  · have hdvd : 2 ^ f.excess (num * f.one) ∣ num * f.one :=
      Nat.dvd_mul_left_of_dvd (Nat.pow_dvd_pow 2 hle) _
    obtain ⟨k,hk⟩ := hdvd
    have hround : roundHalfEven (num * f.one) (2 ^ f.excess (num * f.one)) = k := by
      conv => lhs; arg 1; rw [hk]
      exact roundHalfEven_mul (Nat.two_pow_pos _) k
    rw [hround,Nat.mul_comm,← hk]
    exact Nat.dvd_mul_left _ _

end Format

end Stencil
