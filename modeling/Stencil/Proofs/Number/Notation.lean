import Mathlib.Data.List.TakeWhile
import Stencil.Number.Integer
import Stencil.Number.Shortest
import Stencil.Proofs.Number.Round

set_option autoImplicit false

namespace Stencil

namespace Decimal

def Digits (ds : List Char) : Prop := ∀ c ∈ ds, isDigit c = true

namespace Digits

variable {ds es : List Char} {c : Char}

theorem append (hd : Digits ds) (he : Digits es) : Digits (ds ++ es) := by
  intro c hc
  obtain hc | hc := List.mem_append.mp hc
  · exact hd c hc
  · exact he c hc

theorem takeWhile_append (h : Digits ds) (hc : isDigit c = false) :
    (ds ++ c :: es).takeWhile isDigit = ds := by
  rw [List.takeWhile_append_of_pos h]
  simp [hc]

theorem dropWhile_append (h : Digits ds) (hc : isDigit c = false) :
    (ds ++ c :: es).dropWhile isDigit = c :: es := by
  rw [List.dropWhile_append_of_pos h]
  simp [hc]

theorem takeWhile_self (h : Digits ds) : ds.takeWhile isDigit = ds :=
  List.takeWhile_eq_self_iff.mpr h

theorem dropWhile_self (h : Digits ds) : ds.dropWhile isDigit = [] :=
  List.dropWhile_eq_nil_iff.mpr h

theorem toDigits (n : Nat) : Digits (toDigits n) :=
  fun _ hc => Nat.isDigit_of_mem_toDigits (by decide) (by decide) hc

theorem replicate (n : Nat) : Digits (List.replicate n '0') := by
  intro c hc
  rw [List.eq_of_mem_replicate hc]
  rfl

theorem splitSign_append (h : Digits ds) (hne : ds ≠ []) :
    splitSign (ds ++ es) = (false,ds ++ es) := by
  cases ds with
  | nil => exact absurd rfl hne
  | cons c ds =>
    have hc := h c (by simp)
    unfold splitSign
    split
    · rename_i heq
      obtain ⟨rfl,_⟩ := List.cons.inj heq
      exact absurd hc (by decide)
    · rename_i heq
      obtain ⟨rfl,_⟩ := List.cons.inj heq
      exact absurd hc (by decide)
    · rfl

end Digits

@[simp] theorem ofDigits_toDigits (n : Nat) : ofDigits (toDigits n) = n :=
  Nat.ofDigitChars_ten_toDigits

theorem ofDigits_append (ds es : List Char) :
    ofDigits (ds ++ es) = Nat.ofDigitChars 10 es (ofDigits ds) :=
  Nat.ofDigitChars_append 0

theorem ofDigits_replicate_append (n : Nat) (ds : List Char) :
    ofDigits (List.replicate n '0' ++ ds) = ofDigits ds := by
  have hzero : ofDigits (List.replicate n '0') = 0 := by
    show Nat.ofDigitChars 10 (List.replicate n '0') 0 = 0
    rw [Nat.ofDigitChars_replicate_zero,Nat.mul_zero]
  rw [ofDigits_append,hzero]
  rfl

/-- A text with digits on both sides of a point, which denotes `m * 10 ^ -places`. -/
structure Pointed (cs : List Char) (m places : Nat) : Prop where
  exists_parts : ∃ whole frac, cs = whole ++ '.' :: frac ∧ whole ≠ [] ∧ frac ≠ [] ∧
    Digits whole ∧ Digits frac ∧ ofDigits (whole ++ frac) = m ∧ frac.length = places

theorem pointed_whole (n : Nat) : Pointed (toDigits n ++ ['.','0']) (10 * n) 1 := by
  refine ⟨toDigits n,['0'],rfl,Nat.toDigits_ne_nil,by simp,.toDigits n,.replicate 1,?_,rfl⟩
  rw [ofDigits_append,ofDigits_toDigits]
  simp [Nat.ofDigitChars_cons]

theorem pointed_positional {m : Nat} {e : Int} (he : e < 0) :
    Pointed (positional m e) m (-e).toNat := by
  obtain ⟨n,rfl⟩ : ∃ n : Nat, e = -(n + 1 : Nat) := ⟨(-e).toNat - 1,by omega⟩
  unfold positional
  rw [if_neg (by omega)]
  have hplaces : (- -((n + 1 : Nat) : Int)).toNat = n + 1 := by omega
  simp only [hplaces]
  generalize hpadded : List.replicate (n + 1 + 1 - (toDigits m).length) '0' ++ toDigits m = padded
  have hdigits : Digits padded := hpadded ▸ (Digits.replicate _).append (.toDigits m)
  have hlength : n + 1 < padded.length := by
    rw [← hpadded,List.length_append,List.length_replicate]
    omega
  have hvalue : ofDigits padded = m := by
    rw [← hpadded,ofDigits_replicate_append,ofDigits_toDigits]
  refine ⟨padded.take (padded.length - (n + 1)),padded.drop (padded.length - (n + 1)),rfl,
    ?_,?_,?_,?_,?_,?_⟩
  · intro h
    have := congrArg List.length h
    simp only [List.length_take,List.length_nil] at this
    omega
  · intro h
    have := congrArg List.length h
    simp only [List.length_drop,List.length_nil] at this
    omega
  · exact fun c hc => hdigits c (List.mem_of_mem_take hc)
  · exact fun c hc => hdigits c (List.mem_of_mem_drop hc)
  · rw [List.take_append_drop,hvalue]
  · rw [List.length_drop]
    omega

theorem Pointed.parts? {cs : List Char} {m places : Nat} (h : Pointed cs m places) :
    parts? cs = some (m,-(places : Int)) := by
  obtain ⟨whole,frac,rfl,hne,_,hwhole,hfrac,rfl,rfl⟩ := h.exists_parts
  unfold Decimal.parts?
  simp [hwhole.takeWhile_append,hwhole.dropWhile_append,hfrac.takeWhile_self,
    hfrac.dropWhile_self,hne,exponent?,show isDigit '.' = false from rfl]

theorem Pointed.splitSign {cs : List Char} {m places : Nat} (h : Pointed cs m places) :
    splitSign cs = (false,cs) := by
  obtain ⟨whole,frac,rfl,hne,_,hwhole,_⟩ := h.exists_parts
  exact hwhole.splitSign_append hne

theorem beside?_eq_some {num den : Nat} {e : Int} {test : Nat → Bool} {m : Nat}
    (h : beside? num den e test = some m) : test m = true := by
  unfold beside? at h
  simp only at h
  split at h
  · rename_i hlow hhigh
    cases h
    split
    · exact hlow
    · exact hhigh
  · rename_i hlow _
    cases h
    exact hlow
  · rename_i _ hhigh
    cases h
    exact hhigh
  · cases h

theorem search_eq_some {num den : Nat} {k : Int} {test : Nat → Int → Bool} {fuel n : Nat}
    {m : Nat} {e : Int} (h : search num den k test fuel n = some (m,e)) : test m e = true := by
  induction fuel generalizing n with
  | zero => simp [search] at h
  | succ fuel ih =>
    unfold search at h
    simp only at h
    split at h
    · rename_i hbeside
      cases h
      exact beside?_eq_some hbeside
    · exact ih h

end Decimal

namespace Binary64
open Decimal

variable {x : Binary64} {m n places : Nat} {e : Int}

theorem units_number (s : Bool) (r : Fin (Format.binary64.infinity + 1)) :
    (number s r).units = Format.binary64.units r := rfl

theorem one_eq : one = Format.binary64.one := rfl

theorem ofText?_of_pointed {cs : List Char} (h : Pointed cs m places) :
    ofText? (String.ofList cs) = some (ofDecimal false m (-(places : Int))) := by
  unfold ofText? readText?
  simp [h.splitSign,h.parts?]

theorem ofDecimal_of_eq {r : Fin (Format.binary64.infinity + 1)} (hr : r < Format.binary64.infinity)
    (hplaces : 0 < places) (hsize : places ≤ m.log2 / 3 + 401)
    (h : m * Format.binary64.one = 10 ^ places * Format.binary64.units r) :
    ofDecimal false m (-(places : Int)) = .number false r := by
  have hpow : 0 < 10 ^ places := Nat.pow_pos (by decide)
  suffices hround : Format.binary64.round (ratio m (-(places : Int))).1
      (ratio m (-(places : Int))).2 = r by
    unfold ofDecimal ofRatio
    simp only [hround]
  unfold ratio
  simp only
  split
  · subst m
    have hunits : Format.binary64.units r = 0 := by
      rw [Nat.zero_mul] at h
      obtain h | h := Nat.mul_eq_zero.mp h.symm
      · omega
      · exact h
    exact Format.round_of_eq_units (by simp [hunits]) Nat.one_pos hr
  · rw [if_neg (by omega),if_neg (by omega),if_neg (by omega)]
    have hneg : (- -(places : Int)).toNat = places := by omega
    rw [hneg]
    exact Format.round_of_eq_units h hpow hr

theorem den_ratio_of_nonneg (he : 0 ≤ e) : (ratio m e).2 = 1 := by
  unfold ratio
  simp only [he,if_true]
  split
  · rfl
  · split
    · rfl
    · split <;> rfl

theorem isIntegral_ofDecimal {negative : Bool} (he : 0 ≤ e) (h : ofDecimal negative m e = x)
    (hfinite : x.isFinite = true) : x.isIntegral = true := by
  subst h
  unfold ofDecimal ofRatio at hfinite ⊢
  rw [den_ratio_of_nonneg he] at hfinite ⊢
  have hlt : Format.binary64.round (ratio m e).1 1 < Format.binary64.infinity := by
    simpa [isFinite] using hfinite
  have hdvd := Format.one_dvd_units_round hlt
  simp only [isIntegral,hfinite,Bool.true_and,beq_iff_eq]
  exact Nat.mod_eq_zero_of_dvd hdvd

/-- The exact expansion of a double: its units are each a power of five. -/
theorem ofDecimal_expansion (hpos : x.isNegative = false) (hfinite : x.isFinite = true)
    (hzero : x.units ≠ 0) :
    ofDecimal false (x.units * 5 ^ Format.binary64.unit) (-(Format.binary64.unit : Int)) = x := by
  cases x with
  | nan => simp [isFinite] at hfinite
  | number negative r =>
    obtain rfl : negative = false := hpos
    have hr : r < Format.binary64.infinity := by simpa [isFinite] using hfinite
    rw [units_number] at hzero ⊢
    -- at least two bits for each power of five
    have hbits : 2 * Format.binary64.unit ≤
        (Format.binary64.units r * 5 ^ Format.binary64.unit).log2 := by
      rw [Nat.le_log2 (Nat.mul_ne_zero hzero (Nat.pow_pos (by decide)).ne'),Nat.pow_mul]
      generalize Format.binary64.unit = e
      have hfour : (2 ^ 2) ^ e ≤ 5 ^ e := Nat.pow_le_pow_left (by decide) e
      exact hfour.trans (Nat.le_mul_of_pos_left _ (Nat.pos_of_ne_zero hzero))
    have hunit : Format.binary64.unit = 1074 := rfl
    refine ofDecimal_of_eq hr (by omega) (by omega) ?_
    rw [Format.one_eq,show (10 : Nat) = 5 * 2 from rfl,Nat.mul_pow]
    generalize 5 ^ Format.binary64.unit = a
    generalize 2 ^ Format.binary64.unit = b
    ring

theorem ofDecimal_shortest (hpos : x.isNegative = false) (hfinite : x.isFinite = true)
    (hzero : x.units ≠ 0) : ofDecimal false x.shortest.1 x.shortest.2 = x := by
  unfold shortest
  simp only
  split
  · rename_i d hd
    have htest := search_eq_some hd
    rw [hpos] at htest
    simpa using htest
  · have hexpansion := ofDecimal_expansion hpos hfinite hzero
    generalize x.units * 5 ^ Format.binary64.unit = m at hexpansion ⊢
    exact hexpansion

theorem pointed_digits (hpos : x.isNegative = false) (hfinite : x.isFinite = true) :
    ∃ m places, Pointed x.digits m places ∧ ofDecimal false m (-(places : Int)) = x := by
  unfold digits
  split
  · rename_i hintegral
    refine ⟨10 * (x.units / one),1,pointed_whole _,?_⟩
    cases x with
    | nan => simp [isFinite] at hfinite
    | number negative r =>
      obtain rfl : negative = false := hpos
      have hr : r < Format.binary64.infinity := by simpa [isFinite] using hfinite
      have hdvd : one ∣ Format.binary64.units r := by
        simp only [isIntegral,Bool.and_eq_true,beq_iff_eq] at hintegral
        exact Nat.dvd_of_mod_eq_zero hintegral.2
      refine ofDecimal_of_eq hr Nat.one_pos (by omega) ?_
      rw [units_number,← one_eq,Nat.mul_assoc,Nat.div_mul_cancel hdvd,Nat.pow_one]
  · rename_i hintegral
    have hzero : x.units ≠ 0 := by
      intro h
      simp [isIntegral,hfinite,h] at hintegral
    have hread := ofDecimal_shortest hpos hfinite hzero
    have hneg : x.shortest.2 < 0 := by
      by_contra hle
      exact hintegral (isIntegral_ofDecimal (by omega) hread hfinite)
    refine ⟨x.shortest.1,(-x.shortest.2).toNat,pointed_positional hneg,?_⟩
    rwa [Int.toNat_of_nonneg (by omega),Int.neg_neg]

theorem toText_eq_digits (hpos : x.isNegative = false) (hfinite : x.isFinite = true) :
    x.toText = String.ofList x.digits := by
  cases x with
  | nan => simp [isFinite] at hfinite
  | number negative r => simp [toText,isNaN,hpos,hfinite]

/-- The text of a finite number that is not negative reads back as it. -/
theorem ofText?_toText (hpos : x.isNegative = false) (hfinite : x.isFinite = true) :
    ofText? x.toText = some x := by
  obtain ⟨m,places,hpointed,hread⟩ := pointed_digits hpos hfinite
  rw [toText_eq_digits hpos hfinite,ofText?_of_pointed hpointed,hread]

theorem neg_neg (x : Binary64) : x.neg.neg = x := by
  cases x <;> simp [neg]

theorem isFinite_neg (x : Binary64) : x.neg.isFinite = x.isFinite := by
  cases x <;> rfl

theorem isNegative_neg (h : x.isNegative = true) : x.neg.isNegative = false := by
  cases x with
  | nan negative _ | number negative _ =>
    obtain rfl : negative = true := h
    rfl

theorem digits_neg (hfinite : x.isFinite = true) : x.neg.digits = x.digits := by
  cases x with
  | nan => cases hfinite
  | number negative r =>
    have hread : (fun m e => ofDecimal (!negative) m e == number (!negative) r) =
        fun m e => ofDecimal negative m e == number negative r := by
      funext m e
      unfold ofDecimal ofRatio
      rw [Bool.eq_iff_iff]
      simp
    have hshortest : (number (!negative) r).shortest = (number negative r).shortest := by
      unfold shortest
      rw [show (number (!negative) r).isNegative = !negative from rfl,
        show (number negative r).isNegative = negative from rfl,hread,units_number,units_number]
    unfold digits
    rw [show (number negative r).neg = number (!negative) r from rfl,hshortest]
    rfl

theorem toText_of_isNegative (hneg : x.isNegative = true) (hfinite : x.isFinite = true) :
    x.toText = "-" ++ x.neg.toText := by
  cases x with
  | nan => cases hfinite
  | number negative r =>
    obtain rfl : negative = true := hneg
    have htext : (number true r).neg.toText = String.ofList (number true r).neg.digits :=
      toText_eq_digits rfl hfinite
    rw [htext,digits_neg hfinite]
    simp [toText,isNaN,isNegative,hfinite]

end Binary64

namespace Integer
open Decimal

variable {m n : Int64}

theorem toText_eq_toDigits (h : 0 ≤ n.toInt) :
    toText n = String.ofList (toDigits n.toInt.natAbs) := by
  simp [toText,textOfInt,Int.not_lt.mpr h]

/-- The text of an integer that is not negative reads back as it. -/
theorem ofText?_toText (h : 0 ≤ n.toInt) : ofText? (toText n) = some n := by
  have hdigits := Digits.toDigits n.toInt.natAbs
  have hne : toDigits n.toInt.natAbs ≠ [] := Nat.toDigits_ne_nil
  have hsplit : splitSign (toDigits n.toInt.natAbs) = (false,toDigits n.toInt.natAbs) := by
    simpa using (hdigits.splitSign_append hne : splitSign (_ ++ []) = _)
  have hvalue : (n.toInt.natAbs : Int) = n.toInt := Int.natAbs_of_nonneg h
  rw [toText_eq_toDigits h]
  have hall : (toDigits n.toInt.natAbs).all isDigit = true := List.all_eq_true.mpr hdigits
  unfold ofText?
  simp only [String.toList_ofList,hsplit]
  rw [if_pos ⟨hne,hall⟩]
  simp [ofInt?,hvalue]

theorem exists_neg (h : n ≠ Int64.minValue) : ∃ m : Int64, m.toInt = -n.toInt := by
  have hne : n.toInt ≠ Int64.minValue.toInt := fun heq => h (Int64.toInt_inj.mp heq)
  have hmin : Int64.minValue.toInt = -2 ^ 63 := rfl
  have hle := n.le_toInt
  have hlt := n.toInt_lt
  exact ⟨Int64.ofInt (-n.toInt),Int64.toInt_ofInt_of_le (by omega) (by omega)⟩

theorem toText_of_neg (h : n.toInt < 0) (hm : m.toInt = -n.toInt) :
    toText n = "-" ++ toText m := by
  have hle : ¬m.toInt < 0 := by omega
  have habs : n.toInt.natAbs = m.toInt.natAbs := by omega
  simp only [toText,textOfInt]
  rw [if_pos h,if_neg hle,habs]

end Integer

end Stencil
