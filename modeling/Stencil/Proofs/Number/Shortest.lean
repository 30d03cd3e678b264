import Stencil.Proofs.Number.Digits
import Stencil.Proofs.Number.Nearest

/-!
The fewest digits. A grid of decimals has two points beside a number, and where any point of the
grid reads back as the number, one of these two does. So the search over finer and finer grids ends
at the first one that has such a point, and on a grid of seventeen digits there always is one.
-/

set_option autoImplicit false

namespace Stencil

namespace Decimal

variable {num den n m : Nat} {k e : Int}

theorem zpow_pos_ten (e : Int) : (0 : ℚ) < 10 ^ e := zpow_pos (by norm_num) e

theorem zeros_mul_zpow (c j : Nat) (e : Int) :
    ((c * 10 ^ j : Nat) * 10 ^ e : ℚ) = c * 10 ^ (j + e) := by
  rw [Nat.cast_mul,Nat.cast_pow,Nat.cast_ofNat,mul_assoc,← zpow_natCast,
    ← zpow_add₀ (by norm_num)]

theorem length_toDigits_bounds (hn : 0 < n) :
    10 ^ ((toDigits n).length - 1) ≤ n ∧ n < 10 ^ (toDigits n).length := by
  have hpos : 0 < (toDigits n).length := List.length_pos_of_ne_nil Nat.toDigits_ne_nil
  have hlength {k : Nat} (hk : 0 < k) : (toDigits n).length ≤ k ↔ n < 10 ^ k :=
    Nat.length_toDigits_le_iff (by decide) hk
  refine ⟨?_,(hlength hpos).mp le_rfl⟩
  by_contra hlt
  by_cases hone : (toDigits n).length = 1
  · rw [hone] at hlt
    omega
  · have := (hlength (k := (toDigits n).length - 1) (by omega)).mpr (by omega)
    omega

theorem exists_ceil (hnum : 0 < num) (hlt : num < den) :
    ∃ c, (den + num - 1) / num = c + 1 ∧ 0 < c ∧ num * c < den ∧ den ≤ num * (c + 1) := by
  have hceil := Nat.div_add_mod (den + num - 1) num
  have hmod := Nat.mod_lt (den + num - 1) hnum
  generalize (den + num - 1) / num = c at *
  have hc : 1 < c := by
    by_contra hsmall
    have hmul : num * c ≤ num * 1 := Nat.mul_le_mul_left num (by omega)
    omega
  obtain ⟨c,rfl⟩ : ∃ i, c = i + 1 := ⟨c - 1,by omega⟩
  rw [Nat.mul_succ] at hceil
  refine ⟨c,rfl,by omega,by omega,?_⟩
  rw [Nat.mul_succ]
  omega

theorem magnitude_bounds (hnum : 0 < num) (hden : 0 < den) :
    (10 : ℚ) ^ (magnitude num den - 1) ≤ num / den ∧
      (num / den : ℚ) < 10 ^ magnitude num den := by
  have hdenq : (0 : ℚ) < den := Nat.cast_pos.mpr hden
  unfold magnitude
  split
  · rename_i hle
    obtain ⟨hlow,hhigh⟩ := length_toDigits_bounds (Nat.div_pos hle hden)
    have hlength : 0 < (toDigits (num / den)).length := List.length_pos_of_ne_nil Nat.toDigits_ne_nil
    constructor
    · rw [← Nat.cast_pred hlength,zpow_natCast,le_div_iff₀ hdenq]
      exact_mod_cast Nat.le_trans (Nat.mul_le_mul_right _ hlow) (Nat.div_mul_le_self num den)
    · rw [zpow_natCast,div_lt_iff₀ hdenq]
      exact_mod_cast (Nat.div_lt_iff_lt_mul hden).mp hhigh
  · rename_i hlt
    -- the quotient lies between the inverses of two whole numbers
    obtain ⟨c,hceil,hc,hbelow,habove⟩ := exists_ceil hnum (Nat.lt_of_not_le hlt)
    simp only [hceil,Nat.add_sub_cancel]
    obtain ⟨hlow,hhigh⟩ := length_toDigits_bounds hc
    have hlength : 0 < (toDigits c).length := List.length_pos_of_ne_nil Nat.toDigits_ne_nil
    have hupper : num * 10 ^ ((toDigits c).length - 1) < den :=
      Nat.lt_of_le_of_lt (Nat.mul_le_mul_left num hlow) hbelow
    have hlower : den ≤ num * 10 ^ (toDigits c).length :=
      habove.trans (Nat.mul_le_mul_left num (Nat.succ_le_of_lt hhigh))
    have hpow (i : Nat) : (0 : ℚ) < 10 ^ i := by positivity
    constructor
    · rw [sub_sub_cancel_left,zpow_neg,zpow_natCast,← one_div,
        div_le_div_iff₀ (hpow _) hdenq,one_mul]
      exact_mod_cast hlower
    · rw [show (1 : ℤ) - (toDigits c).length = -(((toDigits c).length - 1 : Nat) : ℤ) by omega,
        zpow_neg,zpow_natCast,← one_div,div_lt_div_iff₀ hdenq (hpow _),one_mul]
      exact_mod_cast hupper

theorem scaleDown_eq (hden : 0 < den) (num : Nat) (e : Int) : 0 < (scaleDown num den e).2 ∧
    ((scaleDown num den e).1 / (scaleDown num den e).2 : ℚ) = num / den / 10 ^ e := by
  unfold scaleDown
  split
  · rename_i he
    refine ⟨Nat.mul_pos hden (Nat.pow_pos (by decide)),?_⟩
    rw [Nat.cast_mul,powerOfTen_cast,← zpow_natCast,Int.toNat_of_nonneg he,div_div]
  · rename_i he
    refine ⟨hden,?_⟩
    rw [Nat.cast_mul,powerOfTen_cast,← zpow_natCast,Int.toNat_of_nonneg (by omega),zpow_neg]
    field_simp

theorem exists_beside (hden : 0 < den) (num : Nat) (e : Int) (test : Nat → Bool) :
    ∃ i : Nat, (i * 10 ^ e : ℚ) ≤ num / den ∧ (num / den : ℚ) < (i + 1) * 10 ^ e ∧
      (beside? num den e test = none ∧ test i = false ∧ test (i + 1) = false ∨
        ∃ m, beside? num den e test = some m ∧ test m = true ∧ m ≤ i + 1) := by
  obtain ⟨hpos,hvalue⟩ := scaleDown_eq hden num e
  have hposq : (0 : ℚ) < (scaleDown num den e).2 := Nat.cast_pos.mpr hpos
  have hten := zpow_pos_ten e
  refine ⟨(scaleDown num den e).1 / (scaleDown num den e).2,?_,?_,?_⟩
  · rw [← le_div_iff₀ hten,← hvalue,le_div_iff₀ hposq]
    exact_mod_cast Nat.div_mul_le_self _ _
  · rw [← div_lt_iff₀ hten,← hvalue,div_lt_iff₀ hposq]
    exact_mod_cast (Nat.div_lt_iff_lt_mul hpos).mp (Nat.lt_succ_self _)
  · unfold beside?
    simp only
    split
    · rename_i hlow hhigh
      right
      split
      · exact ⟨_,rfl,hlow,Nat.le_succ _⟩
      · exact ⟨_,rfl,hhigh,le_rfl⟩
    · rename_i hlow _
      exact .inr ⟨_,rfl,hlow,Nat.le_succ _⟩
    · rename_i _ hhigh
      exact .inr ⟨_,rfl,hhigh,le_rfl⟩
    · rename_i hlow hhigh
      exact .inl ⟨rfl,hlow,hhigh⟩

/-- The search ends at the first grid that has a point, if there is one. -/
theorem search_cases (num den : Nat) (k : Int) (test : Nat → Int → Bool) (fuel n : Nat) :
    (∀ i, n ≤ i → i < n + fuel → beside? num den (k - i) (test · (k - i)) = none) ∨
      ∃ l m, n ≤ l ∧ search num den k test fuel n = some (m,k - l) ∧
        beside? num den (k - l) (test · (k - l)) = some m ∧
        ∀ i, n ≤ i → i < l → beside? num den (k - i) (test · (k - i)) = none := by
  induction fuel generalizing n with
  | zero => exact .inl fun i hle hlt => by omega
  | succ fuel ih =>
    unfold search
    simp only
    cases hbeside : beside? num den (k - n) (test · (k - n)) with
    | some m => exact .inr ⟨n,m,le_rfl,rfl,hbeside,fun i hle hlt => by omega⟩
    | none =>
      have hstep {l : Nat} (h : ∀ i, n + 1 ≤ i → i < l →
          beside? num den (k - i) (test · (k - i)) = none) (i : Nat) (hle : n ≤ i) (hlt : i < l) :
          beside? num den (k - i) (test · (k - i)) = none := by
        obtain rfl | hgt := Nat.eq_or_lt_of_le hle
        · exact hbeside
        · exact h i hgt hlt
      obtain hnone | ⟨l,m,hle,hsearch,hfound,hbefore⟩ := ih (n + 1)
      · exact .inl (hstep (by simpa [Nat.add_comm,Nat.add_left_comm] using hnone))
      · exact .inr ⟨l,m,by omega,hsearch,hfound,hstep hbefore⟩

end Decimal

namespace Binary64
open Decimal Format

variable {num den r n : Nat} {e k : Int} {test : Nat → Bool} {x : Binary64}

section Grid

variable (hden : 0 < den) (hsize : binary64.size r = num / den)
  (htest : ∀ i, test i = true ↔ binary64.Nearest (i * 10 ^ e) r)
include hden hsize htest

theorem exists_beside?_of_point {i : Nat} (h : binary64.Nearest (i * 10 ^ e) r) :
    ∃ m, beside? num den e test = some m := by
  obtain ⟨j,hlow,hhigh,⟨_,hlower,hupper⟩ | ⟨m,hm,_⟩⟩ := exists_beside hden num e test
  · rw [← Bool.not_eq_true,htest] at hlower hupper
    rw [← hsize] at hlow hhigh
    have hten := zpow_pos_ten e
    obtain hle | hlt := le_or_gt i j
    · have hgrid : (i * 10 ^ e : ℚ) ≤ j * 10 ^ e := by gcongr
      exact absurd (h.of_between (.inr ⟨hgrid,hlow⟩)) hlower
    · have hgrid : ((j + 1 : Nat) * 10 ^ e : ℚ) ≤ i * 10 ^ e := by
        gcongr
        exact hlt
      exact absurd (h.of_between (.inl ⟨by push_cast; exact hhigh.le,hgrid⟩)) hupper
  · exact ⟨m,hm⟩

theorem exists_beside?_of_fine (hr : 0 < r) (hfinite : r < binary64.infinity)
    (hfine : 10 ^ (e + 16) ≤ binary64.size r) : ∃ m, beside? num den e test = some m := by
  obtain ⟨j,hlow,hhigh,⟨_,hlower,hupper⟩ | ⟨m,hm,_⟩⟩ := exists_beside hden num e test
  · exfalso
    rw [← Bool.not_eq_true,htest] at hlower hupper
    rw [← hsize] at hlow hhigh
    have hten := zpow_pos_ten e
    rw [zpow_add₀ (by norm_num)] at hfine
    have hbinade : (binary64.binade : ℚ) = 4503599627370496 := by norm_num [binade,binary64]
    obtain hnear | hfar := le_total (2 * (binary64.size r - j * 10 ^ e)) (10 ^ e)
    · refine hlower (nearest_of_close hr hfinite ?_)
      rw [abs_of_nonpos (by linarith),hbinade]
      linarith
    · refine hupper (nearest_of_close hr hfinite ?_)
      push_cast
      rw [abs_of_nonneg (by linarith),hbinade]
      linarith
  · exact ⟨m,hm⟩

end Grid

def size (x : Binary64) : ℚ := x.units / one

theorem reads_iff (s : Bool) (r : Fin (binary64.infinity + 1)) (m : Nat) (e : Int) :
    (ofDecimal s m e == .number s r) = true ↔ binary64.Nearest (m * 10 ^ e) r := by
  rw [beq_iff_eq,ofDecimal_eq_iff]
  constructor
  · rintro ⟨r',heq,hr'⟩
    cases heq
    exact hr'
  · exact fun h => ⟨r,rfl,h⟩

/-- What the search finds reads back, and no coarser grid has a point that does. -/
theorem exists_shortest {s : Bool} {r : Fin (binary64.infinity + 1)} (hr : 0 < r.val)
    (hfinite : r < binary64.infinity) :
    ∃ (k : Int) (l m : Nat), (10 : ℚ) ^ (k - 1) ≤ binary64.size r ∧ m ≤ 10 ^ l ∧
      (number s r).shortest = (m,k - l) ∧ binary64.Nearest (m * 10 ^ (k - l)) r ∧
      ∀ i < l, ∀ c : Nat, ¬binary64.Nearest (c * 10 ^ (k - i)) r := by
  let readsBack (m : Nat) (e : Int) : Bool := ofDecimal s m e == number s r
  let k := magnitude (binary64.units r) one
  have hunits : 0 < binary64.units r := by
    have hlt := binary64.size_strictMono hr
    rw [size_zero,Format.size] at hlt
    exact_mod_cast (div_pos_iff_of_pos_right binary64.one_cast_pos).mp hlt
  have hone : 0 < one := Format.one_pos
  obtain ⟨hlow,hhigh⟩ := magnitude_bounds hunits hone
  have hread (e : Int) (i : Nat) : readsBack i e = true ↔ binary64.Nearest (i * 10 ^ e) r :=
    reads_iff s r i e
  obtain hnone | ⟨l,m,-,hsearch,hfound,hbefore⟩ :=
    search_cases (binary64.units r) one k readsBack 18 0
  · have hexponent : k - (17 : Nat) + 16 = k - 1 := by
      push_cast
      ring
    obtain ⟨m,hm⟩ := exists_beside?_of_fine hone rfl (hread (k - (17 : Nat))) hr hfinite
      (by rw [hexponent]; exact hlow)
    rw [hnone 17 (by omega) (by omega)] at hm
    cases hm
  · obtain ⟨j,hbelow,_,⟨hnone,_⟩ | ⟨m',hm',htest,hle⟩⟩ :=
      exists_beside hone (binary64.units r) (k - l) (readsBack · (k - l))
    · rw [hfound] at hnone
      cases hnone
    obtain rfl : m = m' := Option.some.inj (hfound.symm.trans hm')
    refine ⟨k,l,m,hlow,?_,?_,(hread _ m).mp htest,?_⟩
    · have hlt : (j * 10 ^ (k - l) : ℚ) < 10 ^ (l : ℤ) * 10 ^ (k - l) := by
        rw [← zpow_add₀ (by norm_num),add_sub_cancel]
        exact hbelow.trans_lt hhigh
      have hj : j < 10 ^ l := by
        have := lt_of_mul_lt_mul_right hlt (zpow_pos_ten _).le
        rw [zpow_natCast] at this
        exact_mod_cast this
      omega
    · unfold shortest
      simp only
      split
      · rename_i d hd
        exact Option.some.inj (hd.symm.trans hsearch)
      · rename_i hnone
        cases hnone.symm.trans hsearch
    · intro i hi c hc
      obtain ⟨m',hm'⟩ := exists_beside?_of_point hone rfl (hread (k - i)) hc
      rw [hbefore i (Nat.zero_le i) hi] at hm'
      cases hm'

/-- A decimal that reads back has no fewer digits: it lies on the grid of its digits, or below the
power of ten that lies on all of them. -/
theorem withinDigits_shortest {s : Bool} {r : Fin (binary64.infinity + 1)} {m : Nat}
    (hr : 0 < r.val) (hfinite : r < binary64.infinity)
    (hreads : binary64.Nearest (m * 10 ^ e) r) (hm : WithinDigits m n) :
    WithinDigits (number s r).shortest.1 n := by
  obtain ⟨k,l,d,hlow,hd,hshortest,_,hbefore⟩ := exists_shortest (s := s) hr hfinite
  obtain ⟨c,j,hc,rfl⟩ := hm
  rw [hshortest]
  have hcpos : 0 < c := by
    by_contra hzero
    obtain rfl : c = 0 := by omega
    have hnearest : binary64.Nearest (0 : ℚ) 0 := nearest_of_small le_rfl (by positivity)
    rw [Nat.zero_mul,Nat.cast_zero,zero_mul] at hreads
    exact absurd (hreads.unique hnearest) hr.ne'
  have hn : 0 < n := by
    by_contra hzero
    obtain rfl : n = 0 := by omega
    omega
  obtain hle | hlt := le_or_gt l n
  · exact withinDigits_of_le hn (hd.trans (Nat.pow_le_pow_right (by decide) hle))
  exfalso
  rw [zeros_mul_zpow] at hreads
  obtain hbelow | habove := le_total (c * 10 ^ (j + e) : ℚ) (10 ^ (k - 1))
  · refine hbefore n hlt (1 * 10 ^ (n - 1)) ?_
    have hexponent : ((n - 1 : Nat) : ℤ) + (k - n) = k - 1 := by omega
    rw [zeros_mul_zpow,hexponent,Nat.cast_one,one_mul]
    exact hreads.of_between (.inr ⟨hbelow,hlow⟩)
  · have hexponent : k - 1 < n + (j + e) := by
      have hlt : (10 : ℚ) ^ (k - 1) < 10 ^ ((n : ℤ) + (j + e)) := by
        rw [zpow_add₀ (by norm_num)]
        refine habove.trans_lt ?_
        gcongr
        rw [zpow_natCast]
        exact_mod_cast hc
      exact (zpow_lt_zpow_iff_right₀ (by norm_num)).mp hlt
    refine hbefore n hlt (c * 10 ^ (j + e - (k - n)).toNat) ?_
    rw [zeros_mul_zpow,Int.toNat_of_nonneg (by omega),sub_add_cancel]
    exact hreads

theorem near_of_whole {q : ℚ} {i : Nat} (hsize : binary64.size r = i) (hi : i < 2 ^ 53)
    (h : binary64.Nearest q r) : q ≤ i + 1 / 2 ∧ (0 < i → i - 1 / 2 ≤ q) := by
  have hle {s : Nat} (hs : s ≤ 2 ^ 53) : |q - i| ≤ |q - s| := by
    have hround : binary64.size (binary64.round s 1) = s := by
      rw [Format.size,units_round_one hs,Nat.cast_mul,mul_div_cancel_right₀ _ one_cast_pos.ne']
    have hle := h.le (binary64.round s 1) (Nat.min_le_left _ _)
    rwa [hsize,hround] at hle
  constructor
  · by_contra hlt
    have habove := hle (s := i + 1) (by omega)
    push_cast at habove
    obtain hcase | hcase := abs_cases (q - (i + 1))
    · rw [hcase.1,abs_of_pos (by linarith)] at habove
      linarith
    · rw [hcase.1,abs_of_pos (by linarith)] at habove
      linarith
  · intro hpos
    by_contra hlt
    have hbelow := hle (s := i - 1) (by omega)
    rw [Nat.cast_pred hpos] at hbelow
    obtain hcase | hcase := abs_cases (q - (i - 1))
    · rw [hcase.1,abs_of_neg (by linarith)] at hbelow
      linarith
    · rw [hcase.1,abs_of_neg (by linarith)] at hbelow
      linarith

/-- A decimal that reads back as a whole number below `2 ^ 53` is that number, or it has places
behind the point and so a digit more. -/
theorem withinDigits_of_whole {i m : Nat} (hsize : binary64.size r = i) (hi : i < 2 ^ 53)
    (hreads : binary64.Nearest (m * 10 ^ e) r) (hm : WithinDigits m n) : WithinDigits i n := by
  obtain ⟨c,j,hc,rfl⟩ := hm
  rw [zeros_mul_zpow] at hreads
  obtain ⟨hupper,hlower⟩ := near_of_whole hsize hi hreads
  obtain rfl | hpos := Nat.eq_zero_or_pos i
  · exact withinDigits_of_lt (Nat.pow_pos (by decide))
  have hlower := hlower hpos
  obtain hwhole | hplaces := le_or_gt 0 (j + e)
  · obtain ⟨t,ht⟩ := Int.eq_ofNat_of_zero_le hwhole
    rw [ht,zpow_natCast] at hupper hlower
    have hle : 2 * (c * 10 ^ t) ≤ 2 * i + 1 := by
      have : (2 * (c * 10 ^ t) : ℚ) ≤ 2 * i + 1 := by linarith
      exact_mod_cast this
    have hge : 2 * i ≤ 2 * (c * 10 ^ t) + 1 := by
      have : (2 * i : ℚ) ≤ 2 * (c * 10 ^ t) + 1 := by linarith
      exact_mod_cast this
    exact ⟨c,t,hc,by omega⟩
  · have htenth : (10 : ℚ) ^ (j + e) ≤ 1 / 10 := by
      calc (10 : ℚ) ^ (j + e) ≤ 10 ^ (-1 : ℤ) := zpow_le_zpow_right₀ (by norm_num) (by omega)
        _ = 1 / 10 := by norm_num
    have hdigit : (c * 10 ^ (j + e) : ℚ) ≤ c * (1 / 10) := by gcongr
    have hone : (1 : ℚ) ≤ i := Nat.one_le_cast.mpr hpos
    have hle : (i : ℚ) ≤ c := by linarith
    exact withinDigits_of_lt (Nat.lt_of_le_of_lt (Nat.cast_le.mp hle) hc)

/-- The text of a finite number: digits in front of a point and digits behind it, which write a
decimal to which the number is nearest. -/
structure Written (x : Binary64) (front back : List Char) : Prop where
  text : x.toText = (if x.isNegative then "-" else "") ++ String.ofList (front ++ '.' :: back)
  front_ne_nil : front ≠ []
  back_ne_nil : back ≠ []
  digits_front : Digits front
  digits_back : Digits back
  nearest : x.IsNearest x.isNegative (ofDigits (front ++ back) / 10 ^ back.length)

/-- No decimal that reads back as the number has fewer significant digits. -/
def Fewest (x : Binary64) (digits : List Char) : Prop :=
  ∀ (ds : List Char) (e : ℤ), Digits ds → x.IsNearest x.isNegative (ofDigits ds * 10 ^ e) →
    (significant digits).length ≤ (significant ds).length

theorem toText_of_isFinite (hfinite : x.isFinite = true) :
    x.toText = (if x.isNegative then "-" else "") ++ String.ofList x.digits := by
  cases x with
  | nan => cases hfinite
  | number s r =>
    simp only [toText,hfinite,isNaN,isNegative]
    cases s <;> simp

section Texts

variable {s : Bool} {r : Fin (binary64.infinity + 1)} {i : Nat}

theorem units_eq_of_size (hsize : binary64.size r = i) : binary64.units r = i * one := by
  rw [Format.size,div_eq_iff one_cast_pos.ne'] at hsize
  exact_mod_cast hsize

theorem isIntegral_iff (hfinite : r < binary64.infinity) :
    (number s r).isIntegral = true ↔ ∃ i : Nat, binary64.size r = i := by
  have hone : 0 < one := Format.one_pos
  simp only [isIntegral,isFinite,hfinite,decide_true,Bool.true_and,beq_iff_eq,units_number]
  constructor
  · intro h
    obtain ⟨i,hi⟩ := Nat.dvd_of_mod_eq_zero h
    refine ⟨i,?_⟩
    rw [Format.size,hi,Nat.cast_mul]
    exact mul_div_cancel_left₀ _ one_cast_pos.ne'
  · rintro ⟨i,hi⟩
    rw [units_eq_of_size hi]
    exact Nat.mul_mod_left i one

theorem written_of_whole (hfinite : r < binary64.infinity) (hsize : binary64.size r = i) :
    (number s r).Written (toDigits i) ['0'] := by
  have hone : 0 < one := Format.one_pos
  have hdigits : (number s r).digits = toDigits i ++ '.' :: ['0'] := by
    rw [digits,if_pos ((isIntegral_iff hfinite).mpr ⟨i,hsize⟩),units_number,units_eq_of_size hsize,
      Nat.mul_div_cancel _ hone]
  have hvalue : (ofDigits (toDigits i ++ ['0']) / 10 ^ ['0'].length : ℚ) = binary64.size r := by
    rw [ofDigits_concat,ofDigits_toDigits,hsize]
    simp [digitValue]
  refine ⟨?_,Nat.toDigits_ne_nil,by simp,.toDigits i,.replicate 1,?_⟩
  · rw [← hdigits]
    exact toText_of_isFinite (by simpa [isFinite] using hfinite)
  · rw [hvalue]
    exact ⟨r,rfl,nearest_size hfinite.le⟩

theorem rank_pos_of_whole (hsize : binary64.size r = i) (hi : 0 < i) : 0 < r.val := by
  by_contra hzero
  rw [show r.val = 0 by omega,size_zero] at hsize
  exact hi.ne (Nat.cast_injective (R := ℚ) (by simpa using hsize))

theorem rank_pos_of_fraction (hfraction : ∀ i : Nat, binary64.size r ≠ i) : 0 < r.val := by
  by_contra hzero
  exact hfraction 0 (by simp [show r.val = 0 by omega])

theorem exists_written_of_fraction (hfinite : r < binary64.infinity)
    (hfraction : ∀ i : Nat, binary64.size r ≠ i) :
    ∃ front back, (number s r).Written front back ∧
      ofDigits (front ++ back) = (number s r).shortest.1 := by
  have hr := rank_pos_of_fraction hfraction
  have hnot : ¬(number s r).isIntegral = true := by
    rw [isIntegral_iff hfinite]
    exact fun ⟨i,hi⟩ => hfraction i hi
  have hisFinite : (number s r).isFinite = true := by simpa [isFinite] using hfinite
  obtain ⟨k,l,m,_,_,hshortest,hreads,_⟩ := exists_shortest (s := s) hr hfinite
  have hnearest : (number s r).IsNearest s (m * 10 ^ (k - l)) := ⟨r,rfl,hreads⟩
  have hplaces : k - l < 0 := by
    by_contra hle
    exact hnot (isIntegral_ofDecimal (by omega) (ofDecimal_eq_iff.mpr hnearest) hisFinite)
  obtain ⟨front,back,heq,hfront,hback,hdfront,hdback,hvalue,hlength⟩ :=
    (pointed_positional (m := m) hplaces).exists_parts
  refine ⟨front,back,⟨?_,hfront,hback,hdfront,hdback,?_⟩,by rw [hshortest,hvalue]⟩
  · rw [toText_of_isFinite hisFinite,digits,if_neg hnot,hshortest,heq]
  · have hdecimal : (m / 10 ^ (-(k - l)).toNat : ℚ) = m * 10 ^ (k - l) := by
      rw [← zpow_natCast,Int.toNat_of_nonneg (by omega),zpow_neg,div_inv_eq_mul]
    rw [hvalue,hlength,hdecimal]
    exact hnearest

theorem fewest_iff (hfinite : (number s r).isFinite = true) (hpos : 0 < r.val) {digits : List Char} :
    (number s r).Fewest digits ↔
      (significant digits).length ≤ (significant (toDigits (number s r).shortest.1)).length := by
  have hr : r < binary64.infinity := by simpa [isFinite] using hfinite
  constructor
  · intro hfewest
    obtain ⟨k,l,m,_,_,hshortest,hreads,_⟩ := exists_shortest (s := s) hpos hr
    rw [hshortest]
    refine hfewest (toDigits m) (k - l) (.toDigits m) ⟨r,rfl,?_⟩
    rw [ofDigits_toDigits]
    exact hreads
  · rintro hle ds e hds ⟨r',heq,hreads⟩
    cases heq
    have hwithin := (length_significant_le_iff hds).mp le_rfl
    refine hle.trans ((length_significant_le_iff (.toDigits _)).mpr ?_)
    rw [ofDigits_toDigits]
    exact withinDigits_shortest hpos hr hreads hwithin

theorem fewest_of_whole (hsize : binary64.size r = i) (hi : i < 2 ^ 53) :
    (number s r).Fewest (toDigits i ++ ['0']) := by
  rintro ds e hds ⟨r',heq,hreads⟩
  cases heq
  have hwithin := withinDigits_of_whole hsize hi hreads ((length_significant_le_iff hds).mp le_rfl)
  have hdigits : Digits (toDigits i ++ ['0']) := (Digits.toDigits i).append (.replicate 1)
  rw [length_significant_le_iff hdigits,ofDigits_concat,ofDigits_toDigits]
  exact hwithin.ten_mul

end Texts

/-- A finite number is written with digits on both sides of a point, a whole one with all its digits
and one zero. The text reads back as the number, and no decimal with fewer significant digits does if
the text has no more of them than the search finds. It has not, unless it is that of a whole number
from `2 ^ 53` on. -/
theorem written_with_fewest_digits (hfinite : x.isFinite = true) :
    ∃ front back, x.Written front back ∧
      (∀ i : Nat, x.size = i → ofDigits front = i ∧ back = ['0']) ∧
      (x.Fewest (front ++ back) ↔
        (significant (front ++ back)).length ≤ (significant (toDigits x.shortest.1)).length) ∧
      ((∀ i : Nat, x.size = i → i < 2 ^ 53) → x.Fewest (front ++ back)) := by
  cases x with
  | nan => cases hfinite
  | number s r =>
    have hr : r < binary64.infinity := by simpa [isFinite] using hfinite
    by_cases hwhole : ∃ i : Nat, binary64.size r = i
    · obtain ⟨i,hi⟩ := hwhole
      refine ⟨_,_,written_of_whole hr hi,?_,?_,fun hsmall => fewest_of_whole hi (hsmall i hi)⟩
      · intro j hj
        obtain rfl : i = j := Nat.cast_injective (hi.symm.trans hj)
        exact ⟨ofDigits_toDigits i,rfl⟩
      · obtain rfl | hpos := Nat.eq_zero_or_pos i
        · exact iff_of_true (fewest_of_whole hi (by decide)) (Nat.zero_le _)
        · exact fewest_iff hfinite (rank_pos_of_whole hi hpos)
    · rw [not_exists] at hwhole
      obtain ⟨front,back,hwritten,hvalue⟩ := exists_written_of_fraction (s := s) hr hwhole
      have hpos := rank_pos_of_fraction hwhole
      refine ⟨front,back,hwritten,fun i hi => absurd hi (hwhole i),fewest_iff hfinite hpos,
        fun _ => (fewest_iff hfinite hpos).mpr ?_⟩
      have hdigits := hwritten.digits_front.append hwritten.digits_back
      rw [length_significant_le_iff hdigits,hvalue]
      have hwithin := (length_significant_le_iff (.toDigits (number s r).shortest.1)).mp le_rfl
      rwa [ofDigits_toDigits] at hwithin

theorem written_with_fewest_digits_of_tenths :
    let x := ofDecimal true 3 (-1)
    x.isFinite = true ∧ x.toText = "-0.3" ∧ ∃ front back, x.Written front back ∧
      x.Fewest (front ++ back) := by
  intro x
  have hfinite : x.isFinite = true := by decide +kernel
  have hunits : x.units < 2 ^ 53 * one := by decide +kernel
  have hsmall (i : Nat) (hi : x.size = i) : i < 2 ^ 53 := by
    have hone : (0 : ℚ) < one := one_cast_pos
    rw [size,div_eq_iff hone.ne'] at hi
    have heq : x.units = i * one := by exact_mod_cast hi
    rw [heq] at hunits
    exact Nat.lt_of_mul_lt_mul_right hunits
  obtain ⟨front,back,hwritten,_,_,hfewest⟩ := written_with_fewest_digits hfinite
  exact ⟨hfinite,by decide +kernel,front,back,hwritten,hfewest hsmall⟩

/-- A whole number may be written with all its digits where fewer would read back as it. -/
theorem whole_with_more_digits :
    let x := ofDecimal false 1 23
    x.toText = "99999999999999991611392.0" ∧ x.shortest = (1,23) ∧
      ¬x.Fewest "999999999999999916113920".toList := by
  intro x
  have hpositive : x.isNegative = false := by decide +kernel
  have hnearest : x.IsNearest x.isNegative (ofDigits ['1'] * 10 ^ (23 : ℤ)) := by
    rw [hpositive]
    exact isNearest_ofDecimal false 1 23
  refine ⟨by decide +kernel,by decide +kernel,fun hfewest => ?_⟩
  exact absurd (hfewest ['1'] 23 (.toDigits 1) hnearest) (by decide)

end Binary64

end Stencil
