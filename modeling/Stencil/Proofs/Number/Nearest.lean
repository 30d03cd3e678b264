import Mathlib.Algebra.Order.Field.Power
import Mathlib.Data.Rat.Cast.Order
import Mathlib.Tactic.FieldSimp
import Mathlib.Tactic.Linarith
import Mathlib.Tactic.NormNum
import Mathlib.Tactic.Positivity
import Mathlib.Tactic.Ring
import Stencil.Number.Decimal
import Stencil.Proofs.Number.Order

/-!
What rounding means, in exact rational numbers: of all the numbers of a format the one that is
nearest, and of two that are equally near the one of even rank. A number that is nearest to some
quotient is also nearest to everything between the two, and a quotient has one nearest number.
-/

set_option autoImplicit false

namespace Stencil

namespace Format

variable {f : Format} {q p : ℚ} {r s num den : Nat}

/-- The size of the number with rank `r`. The rank of infinity has the size of the power of two
behind the largest number. -/
def size (f : Format) (r : Nat) : ℚ := f.units r / f.one

/-- No number of the format is nearer to `q` than the one with rank `r`, and one that is equally
near leaves the rank to the even one. -/
structure Nearest (f : Format) (q : ℚ) (r : Nat) : Prop where
  le_infinity : r ≤ f.infinity
  le : ∀ s ≤ f.infinity, |q - f.size r| ≤ |q - f.size s|
  even : ∀ s ≤ f.infinity, s ≠ r → |q - f.size r| = |q - f.size s| → Even r

theorem one_cast_pos : (0 : ℚ) < f.one := Nat.cast_pos.mpr one_pos

theorem exists_step (f : Format) (r : Nat) : ∃ e k, f.Valid e k ∧ r = e * f.binade + k ∧
    f.units r = k * 2 ^ e ∧ f.units (r + 1) = (k + 1) * 2 ^ e := by
  obtain ⟨e,k,hvalid,rfl⟩ := f.exists_valid r
  have hlt := hvalid.lt
  refine ⟨e,k,hvalid,rfl,units_rank (by omega) hvalid.full,?_⟩
  rw [Nat.add_assoc]
  exact units_rank (by omega) (hvalid.full.imp_right (by omega))

theorem units_lt_succ (f : Format) (r : Nat) : f.units r < f.units (r + 1) := by
  obtain ⟨e,k,_,_,hunits,hnext⟩ := f.exists_step r
  rw [hunits,hnext]
  exact Nat.mul_lt_mul_of_pos_right (Nat.lt_succ_self k) (Nat.two_pow_pos e)

theorem units_succ_le (f : Format) (r : Nat) :
    f.units (r + 1) ≤ 2 * f.binade * (f.units (r + 1) - f.units r) := by
  obtain ⟨e,k,hvalid,_,hunits,hnext⟩ := f.exists_step r
  have hstep : (k + 1) * 2 ^ e - k * 2 ^ e = 2 ^ e := by
    rw [Nat.succ_mul,Nat.add_sub_cancel_left]
  rw [hunits,hnext,hstep]
  exact Nat.mul_le_mul_right _ hvalid.lt

theorem size_strictMono (f : Format) : StrictMono f.size := by
  refine strictMono_nat_of_lt_succ fun r => ?_
  exact div_lt_div_of_pos_right (Nat.cast_lt.mpr (f.units_lt_succ r)) one_cast_pos

@[simp] theorem size_zero (f : Format) : f.size 0 = 0 := by simp [size,units]

theorem size_succ_le (f : Format) (r : Nat) :
    f.size (r + 1) ≤ 2 * f.binade * (f.size (r + 1) - f.size r) := by
  have hle := f.units_lt_succ r
  have hstep : (f.units (r + 1) : ℚ) ≤
      2 * f.binade * ((f.units (r + 1) : ℚ) - f.units r) := by
    rw [← Nat.cast_sub (Nat.le_of_lt hle)]
    exact_mod_cast f.units_succ_le r
  unfold size
  rw [← sub_div,← mul_div_assoc]
  exact div_le_div_of_nonneg_right hstep (Nat.cast_nonneg _)

section Between

theorem nearest_lower (hr : r ≤ f.infinity) (hlower : f.size r ≤ q)
    (h : q - f.size r < f.size (r + 1) - q ∨
      q - f.size r = f.size (r + 1) - q ∧ Even r) : f.Nearest q r := by
  have hmono : f.size r < f.size (r + 1) := f.size_strictMono (Nat.lt_succ_self r)
  have hself : |q - f.size r| = q - f.size r := abs_of_nonneg (by linarith)
  have hstep : q - f.size r ≤ f.size (r + 1) - q := h.elim le_of_lt (fun h => h.1.le)
  have habove {s : Nat} (hs : r < s) : f.size (r + 1) - q ≤ |q - f.size s| := by
    have hle := f.size_strictMono.monotone (Nat.succ_le_of_lt hs)
    rw [abs_of_neg (by linarith)]
    linarith
  have hbelow {s : Nat} (hs : s < r) : q - f.size r < |q - f.size s| := by
    have hlt := f.size_strictMono hs
    rw [abs_of_pos (by linarith)]
    linarith
  refine ⟨hr,fun s hs => ?_,fun s hs hne heq => ?_⟩
  · rw [hself]
    obtain hlt | rfl | hgt := Nat.lt_trichotomy s r
    · exact (hbelow hlt).le
    · exact hself.ge
    · exact hstep.trans (habove hgt)
  · rw [hself] at heq
    obtain hlt | hgt := Nat.lt_or_gt_of_ne hne
    · exact absurd heq (hbelow hlt).ne
    · obtain hnear | ⟨_,heven⟩ := h
      · have := habove hgt
        linarith
      · exact heven

theorem nearest_upper (hr : r + 1 ≤ f.infinity) (hupper : q < f.size (r + 1))
    (h : f.size (r + 1) - q < q - f.size r ∨
      f.size (r + 1) - q = q - f.size r ∧ Even (r + 1)) : f.Nearest q (r + 1) := by
  have hmono : f.size r < f.size (r + 1) := f.size_strictMono (Nat.lt_succ_self r)
  have hself : |q - f.size (r + 1)| = f.size (r + 1) - q := by
    rw [abs_of_neg (by linarith)]
    ring
  have hstep : f.size (r + 1) - q ≤ q - f.size r := h.elim le_of_lt (fun h => h.1.le)
  have habove {s : Nat} (hs : r + 1 < s) : f.size (r + 1) - q < |q - f.size s| := by
    have hlt := f.size_strictMono hs
    rw [abs_of_neg (by linarith)]
    linarith
  have hbelow {s : Nat} (hs : s < r + 1) : q - f.size r ≤ |q - f.size s| := by
    have hle := f.size_strictMono.monotone (Nat.le_of_lt_succ hs)
    rw [abs_of_nonneg (by linarith)]
    linarith
  refine ⟨hr,fun s hs => ?_,fun s hs hne heq => ?_⟩
  · rw [hself]
    obtain hlt | rfl | hgt := Nat.lt_trichotomy s (r + 1)
    · exact hstep.trans (hbelow hlt)
    · exact hself.ge
    · exact (habove hgt).le
  · rw [hself] at heq
    obtain hlt | hgt := Nat.lt_or_gt_of_ne hne
    · obtain hnear | ⟨_,heven⟩ := h
      · have := hbelow hlt
        linarith
      · exact heven
    · exact absurd heq (habove hgt).ne

theorem nearest_infinity (h : f.size f.infinity ≤ q) : f.Nearest q f.infinity := by
  have hself : |q - f.size f.infinity| = q - f.size f.infinity := abs_of_nonneg (by linarith)
  have hbelow {s : Nat} (hs : s < f.infinity) : q - f.size f.infinity < |q - f.size s| := by
    have hlt := f.size_strictMono hs
    rw [abs_of_pos (by linarith)]
    linarith
  refine ⟨le_rfl,fun s hs => ?_,fun s hs hne heq => ?_⟩
  · rw [hself]
    obtain hlt | rfl := Nat.lt_or_eq_of_le hs
    · exact (hbelow hlt).le
    · exact hself.ge
  · rw [hself] at heq
    exact absurd heq (hbelow (Nat.lt_of_le_of_ne hs hne)).ne

theorem nearest_size (hr : r ≤ f.infinity) : f.Nearest (f.size r) r := by
  refine nearest_lower hr le_rfl (.inl ?_)
  have hmono : f.size r < f.size (r + 1) := f.size_strictMono (Nat.lt_succ_self r)
  linarith

end Between

/-- Two numbers that are nearest lie on both sides and have even ranks, so there is a number
between them, which is nearer. -/
theorem Nearest.not_lt (hr : f.Nearest q r) (hs : f.Nearest q s) : ¬r < s := by
  intro hlt
  have heq : |q - f.size r| = |q - f.size s| :=
    le_antisymm (hr.le s hs.le_infinity) (hs.le r hr.le_infinity)
  have hre := hr.even s hs.le_infinity hlt.ne' heq
  have hse := hs.even r hr.le_infinity hlt.ne heq.symm
  obtain ⟨i,rfl⟩ := hre
  obtain ⟨j,rfl⟩ := hse
  have hfirst : f.size (i + i) < f.size (i + i + 1) := f.size_strictMono (by omega)
  have hsecond : f.size (i + i + 1) < f.size (j + j) := f.size_strictMono (by omega)
  have hmid : q - f.size (i + i) = f.size (j + j) - q := by
    obtain h | h := abs_eq_abs.mp heq
    · linarith
    · linarith
  have hnear := hr.le (i + i + 1) (by have := hs.le_infinity; omega)
  rw [abs_of_pos (by linarith)] at hnear
  obtain h | h := abs_cases (q - f.size (i + i + 1))
  · linarith [h.1]
  · linarith [h.1]

theorem Nearest.unique (hr : f.Nearest q r) (hs : f.Nearest q s) : r = s := by
  have hrs := hr.not_lt hs
  have hsr := hs.not_lt hr
  omega

/-- What lies between a quotient and the number nearest to it has the same nearest number. -/
theorem Nearest.of_between (h : f.Nearest q r) (hbetween : f.size r ≤ p ∧ p ≤ q ∨
    q ≤ p ∧ p ≤ f.size r) : f.Nearest p r := by
  have hsplit : |q - f.size r| = |q - p| + |p - f.size r| := by
    obtain ⟨hlow,hhigh⟩ | ⟨hlow,hhigh⟩ := hbetween
    · rw [abs_of_nonneg (by linarith),abs_of_nonneg (by linarith),abs_of_nonneg (by linarith)]
      ring
    · rw [abs_of_nonpos (by linarith),abs_of_nonpos (by linarith),abs_of_nonpos (by linarith)]
      ring
  have hdetour (s : Nat) : |q - f.size s| ≤ |q - p| + |p - f.size s| := abs_sub_le q p _
  refine ⟨h.le_infinity,fun s hs => ?_,fun s hs hne heq => ?_⟩
  · have hle := h.le s hs
    have := hdetour s
    linarith
  · refine h.even s hs hne (le_antisymm (h.le s hs) ?_)
    have := hdetour s
    linarith

/-- What is nearer to a number than half of the smallest step there has it as its nearest
number. -/
theorem nearest_of_close (hr : 0 < r) (hfinite : r < f.infinity)
    (h : 4 * f.binade * |q - f.size r| < f.size r) : f.Nearest q r := by
  have hbinade : (0 : ℚ) < f.binade := Nat.cast_pos.mpr binade_pos
  obtain ⟨r,rfl⟩ : ∃ k, r = k + 1 := ⟨r - 1,by omega⟩
  have hstep := f.size_succ_le (r + 1)
  have hstep' := f.size_succ_le r
  have hmono : f.size (r + 1) < f.size (r + 2) := f.size_strictMono (by omega)
  obtain hle | hlt := le_or_gt (f.size (r + 1)) q
  · rw [abs_of_nonneg (by linarith)] at h
    have hclose : 4 * f.binade * (q - f.size (r + 1)) <
        2 * f.binade * (f.size (r + 2) - f.size (r + 1)) := by linarith
    have hhalf : 2 * (q - f.size (r + 1)) < f.size (r + 2) - f.size (r + 1) := by
      nlinarith
    exact nearest_lower hfinite.le hle (.inl (by linarith))
  · rw [abs_of_neg (by linarith)] at h
    have hclose : 4 * f.binade * (f.size (r + 1) - q) <
        2 * f.binade * (f.size (r + 1) - f.size r) := by linarith
    have hhalf : 2 * (f.size (r + 1) - q) < f.size (r + 1) - f.size r := by
      nlinarith
    exact nearest_upper hfinite.le hlt (.inl (by linarith))

/-- What rounding adds to a rank when `rest` of the `unit` parts of the step above it are cut
off. -/
def carry (rank rest unit : Nat) : Nat :=
  if 2 * rest < unit then 0 else if unit < 2 * rest then 1 else rank % 2

theorem carry_le (rank rest unit : Nat) : carry rank rest unit ≤ 1 := by
  unfold carry
  split
  · omega
  · split <;> omega

theorem nearest_add_carry {scale : ℚ} {rest unit : Nat} (hscale : 0 < scale) (hr : r < f.infinity)
    (hrest : rest < unit) (hbelow : q - f.size r = rest / scale)
    (habove : f.size (r + 1) - q = (unit - rest) / scale) : f.Nearest q (r + carry r rest unit) := by
  have hlower : f.size r ≤ q := by
    have : (0 : ℚ) ≤ rest / scale := by positivity
    linarith
  have hupper : q < f.size (r + 1) := by
    have hlt : (rest : ℚ) < unit := Nat.cast_lt.mpr hrest
    have : 0 < (unit - rest) / scale := div_pos (by linarith) hscale
    linarith
  unfold carry
  obtain hnear | htie | hfar := Nat.lt_trichotomy (2 * rest) unit
  · have hlt : (2 * rest : ℚ) < unit := by exact_mod_cast hnear
    have hcloser : q - f.size r < f.size (r + 1) - q := by
      rw [hbelow,habove]
      gcongr
      linarith
    rw [if_pos hnear]
    exact nearest_lower hr.le hlower (.inl hcloser)
  · have heq : q - f.size r = f.size (r + 1) - q := by
      rw [hbelow,habove,← htie]
      push_cast
      ring
    rw [if_neg htie.not_lt,if_neg htie.not_gt]
    obtain heven | hodd := Nat.even_or_odd r
    · rw [Nat.even_iff.mp heven]
      exact nearest_lower hr.le hlower (.inr ⟨heq,heven⟩)
    · rw [Nat.odd_iff.mp hodd]
      exact nearest_upper hr hupper (.inr ⟨heq.symm,hodd.add_one⟩)
  · have hlt : (unit : ℚ) < 2 * rest := by exact_mod_cast hfar
    have hcloser : f.size (r + 1) - q < q - f.size r := by
      rw [hbelow,habove]
      gcongr
      linarith
    rw [if_neg (by omega),if_pos hfar]
    exact nearest_upper hr hupper (.inl hcloser)

/-- Rounding cuts a quotient off to a rank and adds the carry. A rank is even exactly with its
significand, because the binade is. -/
theorem exists_cut (hfraction : 0 < f.fraction) (hden : 0 < den) (num : Nat) :
    ∃ r rest unit : Nat, rest < unit ∧
      f.round num den = min f.infinity (r + carry r rest unit) ∧
      (num / den : ℚ) - f.size r = rest / (den * f.one) ∧
      f.size (r + 1) - num / den = (unit - rest) / (den * f.one) := by
  let e := f.excess (num * f.one / den)
  let unit := den * 2 ^ e
  let k := num * f.one / unit
  let rest := num * f.one % unit
  have hvalid : f.Valid e k := by
    have := f.valid_significand (num * f.one / den)
    rwa [Nat.div_div_eq_div_mul] at this
  have hlt := hvalid.lt
  have hrest : rest < unit := Nat.mod_lt _ (Nat.mul_pos hden (Nat.two_pow_pos e))
  have hparity : (e * f.binade + k) % 2 = k % 2 := by
    have hbinade : 2 ∣ f.binade := dvd_pow_self 2 hfraction.ne'
    obtain ⟨half,hhalf⟩ := hbinade.mul_left e
    omega
  -- everything is counted in parts of the common denominator
  have hone := f.one_cast_pos
  have hquotient : (num / den : ℚ) = (k * unit + rest : Nat) / (den * f.one) := by
    rw [Nat.div_add_mod',Nat.cast_mul,mul_div_mul_right _ _ hone.ne']
  have hsize {i : Nat} (hi : f.units (e * f.binade + i) = i * 2 ^ e) :
      f.size (e * f.binade + i) = (i * unit : Nat) / (den * f.one) := by
    have hdenq : (0 : ℚ) < den := Nat.cast_pos.mpr hden
    rw [size,hi]
    simp only [unit,Nat.cast_mul]
    field_simp
  refine ⟨e * f.binade + k,rest,unit,hrest,?_,?_,?_⟩
  · have hround : f.round num den = min f.infinity (e * f.binade +
        if 2 * rest < unit then k else if unit < 2 * rest then k + 1 else k + k % 2) := rfl
    rw [hround]
    unfold carry
    congr 1
    repeat' split
    all_goals omega
  · rw [hquotient,hsize (units_rank (by omega) hvalid.full)]
    push_cast
    ring
  · rw [hquotient,Nat.add_assoc,
      hsize (units_rank (by omega) (hvalid.full.imp_right Nat.le_succ_of_le))]
    push_cast
    ring

/-- Rounding takes a quotient to the nearest number. -/
theorem nearest_round (hfraction : 0 < f.fraction) (hden : 0 < den) :
    f.Nearest (num / den) (f.round num den) := by
  obtain ⟨r,rest,unit,hrest,hround,hbelow,habove⟩ := exists_cut hfraction hden num
  have hscale : (0 : ℚ) < den * f.one := mul_pos (Nat.cast_pos.mpr hden) one_cast_pos
  have hcarry := carry_le r rest unit
  rw [hround]
  obtain hlarge | hsmall := le_or_gt f.infinity r
  · have hcut : (0 : ℚ) ≤ rest / (den * f.one) := by positivity
    have hmono := f.size_strictMono.monotone hlarge
    rw [Nat.min_eq_left (by omega)]
    exact nearest_infinity (by linarith)
  · rw [Nat.min_eq_right (by omega)]
    exact nearest_add_carry hscale hsmall hrest hbelow habove

theorem size_binade (f : Format) (e : Nat) :
    f.size (e * f.binade + f.binade) = 2 ^ (f.fraction + e) / 2 ^ f.unit := by
  rw [size,units_rank (by omega) (.inr le_rfl),one_eq,binade_eq,pow_add]
  push_cast
  rfl

theorem size_infinity_le : binary64.size binary64.infinity ≤ 10 ^ 400 := by
  have hsize : binary64.size binary64.infinity = 2 ^ (52 + 2046) / 2 ^ 1074 :=
    binary64.size_binade 2046
  rw [hsize,div_le_iff₀ (by positivity)]
  calc (2 : ℚ) ^ (52 + 2046) ≤ 2 ^ (3 * 400 + 1074) := pow_le_pow_right₀ (by norm_num) (by decide)
    _ = 8 ^ 400 * 2 ^ 1074 := by rw [pow_add,pow_mul]; norm_num
    _ ≤ 10 ^ 400 * 2 ^ 1074 := by gcongr; norm_num

theorem le_size_one : 2 * (10 ^ 400)⁻¹ ≤ binary64.size 1 := by
  have hunits : binary64.units 1 = 1 := by decide
  have hunit : binary64.unit = 1074 := rfl
  have hsize : binary64.size 1 = 1 / 2 ^ 1074 := by
    rw [size,one_eq,hunits,hunit,Nat.cast_one,Nat.cast_pow,Nat.cast_ofNat]
  rw [hsize,← div_eq_mul_inv,div_le_div_iff₀ (by positivity) (by positivity)]
  calc (2 : ℚ) * 2 ^ 1074 = 2 ^ 1075 := (pow_succ' 2 1074).symm
    _ ≤ 2 ^ (3 * 400) := pow_le_pow_right₀ (by norm_num) (by decide)
    _ = 8 ^ 400 := by rw [pow_mul]; norm_num
    _ ≤ 1 * 10 ^ 400 := by rw [one_mul]; gcongr; norm_num

theorem nearest_of_large (h : 10 ^ 400 ≤ q) : binary64.Nearest q binary64.infinity :=
  nearest_infinity (size_infinity_le.trans h)

theorem nearest_of_small (hq : 0 ≤ q) (h : q < (10 ^ 400)⁻¹) : binary64.Nearest q 0 := by
  have hone := le_size_one
  refine nearest_lower (Nat.zero_le _) (by simpa using hq) (.inl ?_)
  rw [size_zero,Nat.zero_add]
  generalize ((10 : ℚ) ^ 400)⁻¹ = bound at h hone
  linarith

end Format

namespace Decimal

variable {m : Nat} {e : Int}

theorem powerOfTen_cast (n : Nat) : (powerOfTen n : ℚ) = 10 ^ n := by simp [powerOfTen]

theorem lt_powerOfTen (m : Nat) : m < 10 ^ (m.log2 / 3 + 1) := by
  calc m < 2 ^ (m.log2 + 1) := Nat.lt_log2_self
    _ ≤ 2 ^ (3 * (m.log2 / 3 + 1)) := Nat.pow_le_pow_right (by decide) (by omega)
    _ = 8 ^ (m.log2 / 3 + 1) := by rw [Nat.pow_mul]
    _ ≤ 10 ^ (m.log2 / 3 + 1) := Nat.pow_le_pow_left (by decide) _

theorem ratio_cases (m : Nat) (e : Int) : 0 < (ratio m e).2 ∧
    (((ratio m e).1 / (ratio m e).2 : ℚ) = m * 10 ^ e ∨
      (10 ^ 400 ≤ ((ratio m e).1 / (ratio m e).2 : ℚ) ∧ 10 ^ 400 ≤ (m * 10 ^ e : ℚ)) ∨
      ((ratio m e).1 / (ratio m e).2 : ℚ) = 0 ∧ (m * 10 ^ e : ℚ) < (10 ^ 400)⁻¹) := by
  have hpow (n : Nat) : 0 < powerOfTen n := Nat.pow_pos (by decide)
  unfold ratio
  simp only
  split
  · rename_i hm
    exact ⟨Nat.one_pos,.inl (by simp [hm])⟩
  split
  · rename_i hm he
    have hone : (1 : ℚ) ≤ m := Nat.one_le_cast.mpr (Nat.pos_of_ne_zero hm)
    have hlarge : (10 : ℚ) ^ (400 : ℤ) ≤ 10 ^ e := zpow_le_zpow_right₀ (by norm_num) he.le
    refine ⟨Nat.one_pos,.inr (.inl ⟨?_,?_⟩)⟩
    · simp [powerOfTen_cast]
    · calc (10 : ℚ) ^ 400 ≤ 1 * 10 ^ e := by simpa using hlarge
        _ ≤ m * 10 ^ e := by gcongr
  split
  · rename_i hm _ he
    refine ⟨Nat.one_pos,.inr (.inr ⟨by simp,?_⟩)⟩
    have hlt : (m : ℚ) < 10 ^ ((m.log2 / 3 + 1 : Nat) : ℤ) := by
      rw [zpow_natCast]
      exact_mod_cast lt_powerOfTen m
    calc (m * 10 ^ e : ℚ) < 10 ^ ((m.log2 / 3 + 1 : Nat) : ℤ) * 10 ^ e := by gcongr
      _ = 10 ^ (((m.log2 / 3 + 1 : Nat) : ℤ) + e) := (zpow_add₀ (by norm_num) _ _).symm
      _ ≤ 10 ^ (-400 : ℤ) := zpow_le_zpow_right₀ (by norm_num) (by push_cast; omega)
      _ = (10 ^ 400)⁻¹ := by rw [zpow_neg]; rfl
  split
  · rename_i he
    refine ⟨Nat.one_pos,.inl ?_⟩
    rw [Nat.cast_mul,powerOfTen_cast,← zpow_natCast,Int.toNat_of_nonneg he]
    simp
  · rename_i he
    refine ⟨hpow _,.inl ?_⟩
    rw [powerOfTen_cast,← zpow_natCast,Int.toNat_of_nonneg (by omega),zpow_neg,div_inv_eq_mul]

end Decimal

namespace Binary64
open Decimal

variable {negative : Bool} {q : ℚ} {x y : Binary64} {m num den : Nat} {e : Int}

/-- The number with this sign whose size is nearest to `q`. -/
def IsNearest (negative : Bool) (q : ℚ) (x : Binary64) : Prop :=
  ∃ r, x = .number negative r ∧ Format.binary64.Nearest q r

theorem IsNearest.unique (hx : x.IsNearest negative q) (hy : y.IsNearest negative q) : x = y := by
  obtain ⟨r,rfl,hr⟩ := hx
  obtain ⟨s,rfl,hs⟩ := hy
  rw [Fin.ext (hr.unique hs)]

theorem isNearest_ofRatio (h : Format.binary64.Nearest q (Format.binary64.round num den)) :
    (ofRatio negative num den).IsNearest negative q := ⟨_,rfl,h⟩

theorem isNearest_ofDecimal (negative : Bool) (m : Nat) (e : Int) :
    (ofDecimal negative m e).IsNearest negative (m * 10 ^ e) := by
  obtain ⟨hden,hratio⟩ := ratio_cases m e
  have hround : Format.binary64.Nearest ((ratio m e).1 / (ratio m e).2)
      (Format.binary64.round (ratio m e).1 (ratio m e).2) :=
    Format.nearest_round (by decide) hden
  refine isNearest_ofRatio ?_
  obtain hexact | ⟨hlarge,hlarge'⟩ | ⟨hzero,hsmall⟩ := hratio
  · rwa [hexact] at hround
  · rw [hround.unique (Format.nearest_of_large hlarge)]
    exact Format.nearest_of_large hlarge'
  · rw [hround.unique (Format.nearest_of_small hzero.ge (by rw [hzero]; positivity))]
    exact Format.nearest_of_small (by positivity) hsmall

theorem ofDecimal_eq_iff : ofDecimal negative m e = x ↔ x.IsNearest negative (m * 10 ^ e) :=
  ⟨fun h => h ▸ isNearest_ofDecimal negative m e,
    fun h => (isNearest_ofDecimal negative m e).unique h⟩

end Binary64

end Stencil
