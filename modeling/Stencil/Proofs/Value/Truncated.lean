import Mathlib.Data.Rat.Floor
import Stencil.Function.Builtin
import Stencil.Proofs.Function.Args
import Stencil.Proofs.Number.Digits
import Stencil.Proofs.Number.Nearest
import Stencil.Proofs.Outcome
import Stencil.Proofs.Value.Arithmetic
import Stencil.Term.Eval

/-!
Values taken as integers. The number that a value stands for loses its fractional part, and what is
left is the integer wherever it has a place among the 64-bit ones. Arguments, ranges and the bounds of
slices all go through this one conversion.
-/

set_option autoImplicit false

namespace Stencil

def truncated (q : ℚ) : ℤ := if q < 0 then ⌈q⌉ else ⌊q⌋

theorem truncated_intCast (i : Int) : truncated i = i := by simp [truncated]

theorem truncated_div (n d : Nat) : truncated (n / d) = (n / d : Nat) := by
  have hnonneg : ¬(n / d : ℚ) < 0 := not_lt.mpr (by positivity)
  rw [truncated,if_neg hnonneg,Rat.floor_natCast_div_natCast]
  rfl

theorem truncated_neg (q : ℚ) : truncated (-q) = -truncated q := by
  unfold truncated
  obtain hneg | rfl | hpos := lt_trichotomy q 0
  · rw [if_neg (by linarith),if_pos hneg,Int.floor_neg]
  · simp
  · rw [if_pos (by linarith),if_neg (by linarith),Int.ceil_neg]

namespace Binary64

def value? (x : Binary64) : Option ℚ :=
  if x.isFinite then some (x.signedUnits / one) else none

variable {x : Binary64} {q : ℚ}

theorem truncate_of_value? (h : x.value? = some q) : x.truncate = truncated q := by
  unfold value? at h
  split at h
  · rename_i hfinite
    obtain rfl := Option.some.inj h
    unfold truncate signedUnits
    rw [if_pos hfinite]
    split
    · rw [Int.cast_neg,Int.cast_natCast,neg_div,truncated_neg,truncated_div]
    · rw [Int.cast_natCast,truncated_div]
  · cases h

theorem exists_value? (h : x.isFinite = true) : ∃ q, x.value? = some q := ⟨_,if_pos h⟩

theorem isFinite_of_value? (h : x.value? = some q) : x.isFinite = true := by
  unfold value? at h
  split at h
  · assumption
  · cases h

theorem value?_infinity (negative : Bool) : (infinity negative).value? = none := by
  simp [infinity,value?,isFinite]

theorem ofText?_iff_of_value? {s : String} (h : x.value? = some q) : ofText? s = some x ↔
    ∃ negative body m e, Decimal.splitSign s.toList = (negative,body) ∧
      Decimal.parts? body = some (m,e) ∧ x.IsNearest negative (m * 10 ^ e) := by
  unfold ofText? readText?
  cases hparts : Decimal.parts? (Decimal.splitSign s.toList).2 with
  | some p =>
    simp only [hparts,Option.some.injEq,ofDecimal_eq_iff]
    constructor
    · intro hnearest
      exact ⟨_,_,p.1,p.2,rfl,hparts,hnearest⟩
    · rintro ⟨negative,body,m,e,hsplit,hparts',hnearest⟩
      simp only [hsplit] at hparts ⊢
      obtain rfl : p = (m,e) := Option.some.inj (hparts.symm.trans hparts')
      exact hnearest
  | none =>
    simp only [hparts]
    constructor
    · intro hname
      exfalso
      split at hname
      · obtain rfl := Option.some.inj hname
        rw [value?_infinity] at h
        cases h
      · split at hname
        · obtain rfl := Option.some.inj hname
          cases h
        · cases hname
    · rintro ⟨negative,body,m,e,hsplit,hparts',_⟩
      rw [hsplit,hparts'] at hparts
      cases hparts

end Binary64

namespace Integer

variable {i : Int} {n : Int64}

def written (negative : Bool) (ds : List Char) : Int :=
  if negative then -(Decimal.ofDigits ds : Int) else Decimal.ofDigits ds

theorem ofText?_eq_some_iff {s : String} : ofText? s = some n ↔
    ∃ negative ds, Decimal.splitSign s.toList = (negative,ds) ∧ ds ≠ [] ∧ Decimal.Digits ds ∧
      n.toInt = written negative ds := by
  unfold ofText?
  simp only
  constructor
  · intro h
    split at h
    · rename_i hdigits
      exact ⟨_,_,rfl,hdigits.1,List.all_eq_true.mp hdigits.2,ofInt?_eq_some_iff.mp h⟩
    · cases h
  · rintro ⟨negative,ds,hsplit,hne,hdigits,hvalue⟩
    rw [hsplit,if_pos ⟨hne,List.all_eq_true.mpr hdigits⟩]
    exact ofInt?_eq_some_iff.mpr hvalue

theorem toInt_clamp (h : InRange i) : (clamp i).toInt = i := by
  unfold clamp
  rw [if_neg (by have := h.1; omega),if_neg (by have := h.2; omega)]
  exact toInt_ofInt h.1 h.2

end Integer

namespace Number

variable {n : Number} {q : ℚ}

def value? : Number → Option ℚ
  | .int n => some n.toInt
  | .float x => x.value?

theorem toInt_toInt64 (h : n.value? = some q) (hrange : Integer.InRange (truncated q)) :
    n.toInt64.toInt = truncated q := by
  cases n with
  | int i =>
    obtain rfl : (i.toInt : ℚ) = q := Option.some.inj h
    exact (truncated_intCast i.toInt).symm
  | float x =>
    have hfinite := Binary64.isFinite_of_value? h
    have htruncate := Binary64.truncate_of_value? h
    cases x with
    | nan => cases hfinite
    | number s r =>
      simp only [toInt64,hfinite,if_true,htruncate]
      exact Integer.toInt_clamp hrange

end Number

namespace Value
open Decimal

variable {v : Value} {q : ℚ} {n : Number} {i : Int64}

/-- The rational number that a value stands for. A text without a point writes an integer, and one
with a point stands for the double nearest to the decimal that it writes. -/
inductive Denotes : Value → ℚ → Prop
  | int (n : Int64) : Denotes (.int n) n.toInt
  | float {x : Binary64} {q : ℚ} : x.value? = some q → Denotes (.float x) q
  | integerText {v : Value} {s : String} {negative : Bool} {ds : List Char} :
      v.asText? = some s → '.' ∉ s.toList → splitSign s.toList = (negative,ds) → ds ≠ [] →
      Digits ds → Denotes v (Integer.written negative ds)
  | decimalText {v : Value} {s : String} {negative : Bool} {body : List Char} {m : Nat} {e : Int}
      {x : Binary64} {q : ℚ} : v.asText? = some s → '.' ∈ s.toList →
      splitSign s.toList = (negative,body) → parts? body = some (m,e) →
      x.IsNearest negative (m * 10 ^ e) → x.value? = some q → Denotes v q

theorem toNumber_of_asText? {s : String} (h : v.asText? = some s) :
    v.toNumber = .ok n ↔ Number.ofText? s = some n := by
  cases v with
  | str t | safe t =>
    obtain rfl := Option.some.inj h
    simp only [toNumber]
    cases Number.ofText? t <;> simp
  | none | bool | int | float | list | map => cases h

theorem denotes_of_ofText? {s : String} (hv : v.asText? = some s)
    (h : Number.ofText? s = some n) (hq : n.value? = some q) : v.Denotes q := by
  unfold Number.ofText? at h
  split at h
  · rename_i hpoint
    obtain ⟨x,hx,rfl⟩ := Option.map_eq_some_iff.mp h
    obtain ⟨negative,body,m,e,hsplit,hparts,hnearest⟩ := (Binary64.ofText?_iff_of_value? hq).mp hx
    exact .decimalText hv (List.contains_iff_mem.mp hpoint) hsplit hparts hnearest hq
  · rename_i hpoint
    obtain ⟨i,hi,rfl⟩ := Option.map_eq_some_iff.mp h
    obtain ⟨negative,ds,hsplit,hne,hdigits,hvalue⟩ := Integer.ofText?_eq_some_iff.mp hi
    obtain rfl : (i.toInt : ℚ) = q := Option.some.inj hq
    rw [hvalue]
    exact .integerText hv (mt List.contains_iff_mem.mpr hpoint) hsplit hne hdigits

theorem denotes_of_toNumber (h : v.toNumber = .ok n) (hq : n.value? = some q) : v.Denotes q := by
  cases v with
  | int k =>
    obtain rfl : .int k = n := Except.ok.inj h
    obtain rfl : (k.toInt : ℚ) = q := Option.some.inj hq
    exact .int k
  | float x =>
    obtain rfl : .float x = n := Except.ok.inj h
    exact .float hq
  | str s | safe s => exact denotes_of_ofText? rfl ((toNumber_of_asText? rfl).mp h) hq
  | none | bool | list | map => cases h

/-- What a value stands for it converts to, unless a text writes an integer that is out of range. -/
theorem toNumber_of_denotes (h : v.Denotes q) (hrange : Integer.InRange (truncated q)) :
    ∃ n, v.toNumber = .ok n ∧ n.value? = some q := by
  cases h with
  | int n => exact ⟨.int n,rfl,rfl⟩
  | float hq => exact ⟨.float _,rfl,hq⟩
  | @integerText _ s negative ds hv hpoint hsplit hne hdigits =>
    rw [truncated_intCast] at hrange
    have hvalue := Integer.toInt_ofInt hrange.1 hrange.2
    have htext := Integer.ofText?_eq_some_iff.mpr ⟨negative,ds,hsplit,hne,hdigits,hvalue⟩
    refine ⟨.int (Int64.ofInt (Integer.written negative ds)),(toNumber_of_asText? hv).mpr ?_,?_⟩
    · rw [Number.ofText?,if_neg (mt List.contains_iff_mem.mp hpoint),htext]
      rfl
    · rw [Number.value?,hvalue]
  | @decimalText _ s negative body m e x q hv hpoint hsplit hparts hnearest hq =>
    have htext := (Binary64.ofText?_iff_of_value? hq).mpr
      ⟨negative,body,m,e,hsplit,hparts,hnearest⟩
    refine ⟨.float x,(toNumber_of_asText? hv).mpr ?_,hq⟩
    rw [Number.ofText?,if_pos (List.contains_iff_mem.mpr hpoint),htext]
    rfl

/-- The integer is the number that the value stands for, truncated. -/
def Truncates (v : Value) (i : Int64) : Prop := ∃ q, v.Denotes q ∧ i.toInt = truncated q

/-- The value converts to a double that has no truncation among the 64-bit integers. -/
def Exceeds (v : Value) : Prop :=
  ∃ x, v.toNumber = .ok (.float x) ∧ ∀ q, x.value? = some q → ¬Integer.InRange (truncated q)

theorem toInteger_eq_ok_iff : v.toInteger = .ok i ↔ ∃ n, v.toNumber = .ok n ∧ n.toInt64 = i :=
  map_eq_ok_iff

theorem toInteger_of_truncates (h : v.Truncates i) : v.toInteger = .ok i := by
  obtain ⟨q,hq,hi⟩ := h
  have hrange : Integer.InRange (truncated q) := hi ▸ Integer.inRange_toInt i
  obtain ⟨n,hn,hvalue⟩ := toNumber_of_denotes hq hrange
  refine toInteger_eq_ok_iff.mpr ⟨n,hn,Int64.toInt_inj.mp ?_⟩
  rw [Number.toInt_toInt64 hvalue hrange,hi]

theorem truncates_of_toInteger (hv : ¬v.Exceeds) (h : v.toInteger = .ok i) : v.Truncates i := by
  obtain ⟨n,hn,rfl⟩ := toInteger_eq_ok_iff.mp h
  have hvalue : ∃ q, n.value? = some q ∧ Integer.InRange (truncated q) := by
    cases n with
    | int k =>
      refine ⟨k.toInt,rfl,?_⟩
      rw [truncated_intCast]
      exact Integer.inRange_toInt k
    | float x =>
      by_contra hnone
      exact hv ⟨x,hn,fun q hq hrange => hnone ⟨q,hq,hrange⟩⟩
  obtain ⟨q,hq,hrange⟩ := hvalue
  exact ⟨q,denotes_of_toNumber hn hq,Number.toInt_toInt64 hq hrange⟩

theorem toInteger_iff_truncates (hv : ¬v.Exceeds) : v.toInteger = .ok i ↔ v.Truncates i :=
  ⟨truncates_of_toInteger hv,toInteger_of_truncates⟩

end Value

namespace Builtin

variable {args : Args} {w : Value}

theorem toInteger_of_int (h : int args = .ok w) : ∃ v, args.values = [v] ∧
    ((∃ b : Bool, v = .bool b ∧ w = .int (if b then 1 else 0)) ∨
      ∃ i, v.toInteger = .ok i ∧ w = .int i) := by
  unfold int at h
  obtain ⟨_,hexpect,h⟩ := bind_eq_ok_iff.mp h
  obtain ⟨v,hv,h⟩ := bind_eq_ok_iff.mp h
  rw [Args.get_eq_ok_iff] at hv
  obtain ⟨u,hu⟩ := List.length_eq_one_iff.mp (Args.expect_eq_ok_iff.mp hexpect)
  obtain rfl : u = v := by simpa [hu] using hv
  refine ⟨u,hu,?_⟩
  split at h
  · rename_i b
    exact .inl ⟨b,rfl,(Except.ok.inj h).symm⟩
  · obtain ⟨i,hi,h⟩ := bind_eq_ok_iff.mp h
    exact .inr ⟨i,Args.toInteger_of_integer hv hi,(Except.ok.inj h).symm⟩

inductive Bounds (R : Value → Int64 → Prop) : List Value → Int64 → Int64 → Int64 → Prop
  | stop {v : Value} {stop : Int64} : R v stop → Bounds R [v] 0 stop 1
  | start {u v : Value} {start stop : Int64} : R u start → R v stop →
      Bounds R [u,v] start stop 1
  | step {u v w : Value} {start stop step : Int64} : R u start → R v stop → R w step →
      Bounds R [u,v,w] start stop step

def rangeOf (start stop step : Int64) : Except String Value :=
  if step = 0 then .error "range step cannot be zero"
  else .ok (.list ((Integer.progression stop step start).map .int))

theorem range_eq : range args = match args.values with
    | [_] => do rangeOf 0 (← args.integer 0) 1
    | [_,_] => do rangeOf (← args.integer 0) (← args.integer 1) 1
    | [_,_,_] => do rangeOf (← args.integer 0) (← args.integer 1) (← args.integer 2)
    | vs => .error ("expected 1 to 3 arguments, found " ++ Args.nat vs.length) := by
  unfold range rangeOf
  rcases hvalues : args.values with _ | ⟨u,_ | ⟨v,_ | ⟨w,_ | ⟨x,rest⟩⟩⟩⟩
  · rfl
  · cases args.integer 0 <;> rfl
  · cases args.integer 0
    · rfl
    · cases args.integer 1 <;> rfl
  · cases args.integer 0
    · rfl
    · cases args.integer 1
      · rfl
      · cases args.integer 2 <;> rfl
  · rfl

theorem rangeOf_eq_ok {start stop step : Int64} (h : rangeOf start stop step = .ok w) :
    w = .list ((Integer.progression stop step start).map .int) := by
  unfold rangeOf at h
  split at h
  · cases h
  · exact (Except.ok.inj h).symm

theorem bounds_of_range (h : range args = .ok w) : ∃ start stop step,
    Bounds (fun v i => v.toInteger = .ok i) args.values start stop step ∧
      w = .list ((Integer.progression stop step start).map .int) := by
  rw [range_eq] at h
  split at h
  · rename_i v hvalues
    obtain ⟨stop,hstop,h⟩ := bind_eq_ok_iff.mp h
    refine ⟨_,_,_,?_,rangeOf_eq_ok h⟩
    rw [hvalues]
    exact .stop (Args.toInteger_of_integer (by simp [hvalues]) hstop)
  · rename_i u v hvalues
    obtain ⟨start,hstart,h⟩ := bind_eq_ok_iff.mp h
    obtain ⟨stop,hstop,h⟩ := bind_eq_ok_iff.mp h
    refine ⟨_,_,_,?_,rangeOf_eq_ok h⟩
    rw [hvalues]
    exact .start (Args.toInteger_of_integer (by simp [hvalues]) hstart)
      (Args.toInteger_of_integer (by simp [hvalues]) hstop)
  · rename_i u v w hvalues
    obtain ⟨start,hstart,h⟩ := bind_eq_ok_iff.mp h
    obtain ⟨stop,hstop,h⟩ := bind_eq_ok_iff.mp h
    obtain ⟨step,hstep,h⟩ := bind_eq_ok_iff.mp h
    refine ⟨_,_,_,?_,rangeOf_eq_ok h⟩
    rw [hvalues]
    exact .step (Args.toInteger_of_integer (by simp [hvalues]) hstart)
      (Args.toInteger_of_integer (by simp [hvalues]) hstop)
      (Args.toInteger_of_integer (by simp [hvalues]) hstep)
  · cases h

theorem Bounds.imp {R S : Value → Int64 → Prop} (hR : ∀ v i, R v i → S v i) {values : List Value}
    {start stop step : Int64} (h : Bounds R values start stop step) :
    Bounds S values start stop step := by
  cases h with
  | stop h => exact .stop (hR _ _ h)
  | start hu hv => exact .start (hR _ _ hu) (hR _ _ hv)
  | step hu hv hw => exact .step (hR _ _ hu) (hR _ _ hv) (hR _ _ hw)

end Builtin

namespace Term

variable {env : Env} {t : Term} {i : Int64}

theorem toInteger_of_bound (h : evalBound env (some t) = .ok (some i)) :
    ∃ v, t.eval env = .ok v ∧ v.toInteger = .ok i := by
  unfold evalBound at h
  obtain ⟨v,hv,h⟩ := bind_eq_ok_iff.mp h
  refine ⟨v,hv,?_⟩
  unfold boundOf at h
  split at h
  · cases h
  · cases hinteger : v.toInteger with
    | ok j =>
      rw [hinteger] at h
      obtain rfl : j = i := Option.some.inj (Except.ok.inj h)
      rfl
    | error c =>
      rw [hinteger] at h
      cases h

end Term

namespace Value

/-- A value that does not exceed the 64-bit integers is taken as the integer that is its truncation,
and as none without one. So it is where it is accepted as an argument, as the argument of `int` or of
`range`, or as the bound of a slice. -/
theorem accepted_integers_truncate (v : Value) (hv : ¬v.Exceeds) :
    (∀ i : Int64, v.toInteger = .ok i ↔ v.Truncates i) ∧
    (∀ (args : Args) (k : Nat) (i : Int64), args.values[k]? = some v → args.integer k = .ok i →
      v.Truncates i) ∧
    (∀ (args : Args) (w : Value), args.values = [v] → Builtin.int args = .ok w →
      (∃ b : Bool, v = .bool b ∧ w = .int (if b then 1 else 0)) ∨
        ∃ i, v.Truncates i ∧ w = .int i) ∧
    (∀ (args : Args) (w : Value), Builtin.range args = .ok w → ∃ start stop step,
      Builtin.Bounds (fun u i => u = v → v.Truncates i) args.values start stop step ∧
        w = .list ((Integer.progression stop step start).map .int)) ∧
    (∀ (env : Env) (t : Term) (i : Int64), t.eval env = .ok v →
      Term.evalBound env (some t) = .ok (some i) → v.Truncates i) := by
  have htruncates {i : Int64} (h : v.toInteger = .ok i) : v.Truncates i :=
    truncates_of_toInteger hv h
  refine ⟨fun i => toInteger_iff_truncates hv,?_,?_,?_,?_⟩
  · intro args k i hargs h
    exact htruncates (Args.toInteger_of_integer hargs h)
  · intro args w hargs h
    obtain ⟨u,hu,hcases⟩ := Builtin.toInteger_of_int h
    obtain rfl : u = v := by simpa [hu] using hargs
    exact hcases.imp_right fun ⟨i,hi,hw⟩ => ⟨i,htruncates hi,hw⟩
  · intro args w h
    obtain ⟨start,stop,step,hbounds,hw⟩ := Builtin.bounds_of_range h
    refine ⟨start,stop,step,hbounds.imp ?_,hw⟩
    rintro u i hi rfl
    exact htruncates hi
  · intro env t i heval h
    obtain ⟨u,hu,hi⟩ := Term.toInteger_of_bound h
    obtain rfl : v = u := Except.ok.inj (heval.symm.trans hu)
    exact htruncates hi

theorem accepted_integers_truncate_of_text :
    let v := Value.str "-3.99"
    ¬v.Exceeds ∧ v.toInteger = .ok (-3) ∧ v.Truncates (-3) := by
  intro v
  have hnumber : v.toNumber = .ok (.float (Binary64.ofDecimal true 399 (-2))) := by decide +kernel
  have htruncate : (Binary64.ofDecimal true 399 (-2)).truncate = -3 := by decide +kernel
  have hfinite : (Binary64.ofDecimal true 399 (-2)).isFinite = true := by decide +kernel
  have hv : ¬v.Exceeds := by
    rintro ⟨x,hx,hnone⟩
    obtain rfl := Number.float.inj (Except.ok.inj (hnumber.symm.trans hx))
    obtain ⟨q,hq⟩ := Binary64.exists_value? hfinite
    refine hnone q hq ?_
    rw [← Binary64.truncate_of_value? hq,htruncate]
    decide
  have hinteger : v.toInteger = .ok (-3) := by decide +kernel
  exact ⟨hv,hinteger,((accepted_integers_truncate v hv).1 (-3)).mp hinteger⟩

/-- A double beyond the 64-bit integers is taken as the last one of them and what is no number as
zero, while the same number written without a point is refused. -/
theorem exceeding_values_are_accepted :
    (Value.str "9223372036854775808.0").Exceeds ∧
    (Value.str "9223372036854775808.0").toInteger = .ok Int64.maxValue ∧
    (Value.str "9223372036854775808").toInteger = .error (.notNumeric "9223372036854775808") ∧
    (Value.float .invalid).Exceeds ∧ (Value.float .invalid).toInteger = .ok 0 := by
  have hnumber : (Value.str "9223372036854775808.0").toNumber =
      .ok (.float (Binary64.ofDecimal false 92233720368547758080 (-1))) := by decide +kernel
  have hlarge : ¬Integer.InRange (Binary64.ofDecimal false 92233720368547758080 (-1)).truncate := by
    decide +kernel
  refine ⟨⟨_,hnumber,fun q hq => ?_⟩,by decide +kernel,by decide +kernel,
    ⟨_,rfl,fun q hq => nomatch hq⟩,rfl⟩
  rwa [← Binary64.truncate_of_value? hq]

end Value

end Stencil
