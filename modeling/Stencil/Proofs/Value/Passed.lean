import Stencil.Proofs.Function.Extremum
import Stencil.Proofs.Number.Notation
import Stencil.Proofs.Value.Truncated

set_option autoImplicit false

namespace Stencil

theorem Decimal.Pointed.point_mem {cs : List Char} {m places : Nat} (h : Pointed cs m places) :
    '.' ∈ cs := by
  obtain ⟨whole,frac,rfl,_⟩ := h.exists_parts
  simp

theorem Decimal.Digits.point_notMem {ds : List Char} (h : Digits ds) : '.' ∉ ds := by
  intro hpoint
  exact absurd (h '.' hpoint) (by decide)

namespace Integer
open Decimal

theorem toList_toText (n : Int64) : (toText n).toList =
    if n.toInt < 0 then '-' :: toDigits n.toInt.natAbs else toDigits n.toInt.natAbs := by
  unfold toText textOfInt
  split <;> simp

theorem point_notMem_toText (n : Int64) : '.' ∉ (toText n).toList := by
  have hdigits := (Digits.toDigits n.toInt.natAbs).point_notMem
  rw [toList_toText]
  split <;> simp [hdigits]

theorem reads_toText (n : Int64) : ofText? (toText n) = some n := by
  obtain h | h := Int.lt_or_le n.toInt 0
  · have hwritten : n.toInt = written true (toDigits n.toInt.natAbs) := by
      simp only [written,ofDigits_toDigits,if_true]
      omega
    refine ofText?_eq_some_iff.mpr ⟨true,_,?_,Nat.toDigits_ne_nil,.toDigits _,hwritten⟩
    rw [toList_toText,if_pos h]
    rfl
  · exact ofText?_toText h

end Integer

namespace Binary64
open Decimal

variable {x : Binary64}

theorem neg_ofDecimal (m : Nat) (e : Int) : (ofDecimal false m e).neg = ofDecimal true m e := rfl

theorem exists_pointed (hfinite : x.isFinite = true) : ∃ cs m places, Pointed cs m places ∧
    x.toText.toList = (if x.isNegative then '-' :: cs else cs) ∧
    ofDecimal x.isNegative m (-(places : Int)) = x := by
  cases hneg : x.isNegative with
  | false =>
    obtain ⟨m,places,hpointed,hread⟩ := pointed_digits hneg hfinite
    exact ⟨_,m,places,hpointed,by simp [toText_eq_digits hneg hfinite],hread⟩
  | true =>
    have hfinite' : x.neg.isFinite = true := by rw [isFinite_neg,hfinite]
    obtain ⟨m,places,hpointed,hread⟩ := pointed_digits (isNegative_neg hneg) hfinite'
    refine ⟨_,m,places,hpointed,?_,?_⟩
    · simp [toText_of_isNegative hneg hfinite,toText_eq_digits (isNegative_neg hneg) hfinite']
    · rw [← neg_ofDecimal,hread,neg_neg]

theorem point_mem_toText (hfinite : x.isFinite = true) : '.' ∈ x.toText.toList := by
  obtain ⟨cs,m,places,hpointed,htext,_⟩ := exists_pointed hfinite
  have hpoint := hpointed.point_mem
  rw [htext]
  split <;> simp [hpoint]

theorem reads_toText (hfinite : x.isFinite = true) : ofText? x.toText = some x := by
  obtain ⟨cs,m,places,hpointed,htext,hread⟩ := exists_pointed hfinite
  have hsplit : splitSign x.toText.toList = (x.isNegative,cs) := by
    rw [htext]
    cases x.isNegative with
    | false => exact hpointed.splitSign
    | true => rfl
  unfold ofText? readText?
  simp only [hsplit,hpointed.parts?,hread]

end Binary64

namespace Number

def isFinite : Number → Bool
  | .int _ => true
  | .float x => x.isFinite

theorem reads_toText {n : Number} (h : n.isFinite = true) : ofText? n.toValue.toText = some n := by
  cases n with
  | int n =>
    have hpoint := Integer.point_notMem_toText n
    simp [ofText?,toValue,Value.toText,Value.nestedText,hpoint,Integer.reads_toText]
  | float x =>
    have hpoint := Binary64.point_mem_toText h
    simp [ofText?,toValue,Value.toText,Value.nestedText,hpoint,Binary64.reads_toText h]

end Number

namespace Value

/-- The second value is passed for the first one: it is the same, or the text of a finite number. -/
inductive PassedFor : Value → Value → Prop
  | same (v : Value) : PassedFor v v
  | text {n : Number} : n.isFinite = true → PassedFor n.toValue (.str n.toValue.toText)

variable {a a' b b' v w : Value}

theorem toNumber_text {n : Number} (h : n.isFinite = true) :
    (Value.str n.toValue.toText).toNumber = .ok n := by
  simp [toNumber,Number.reads_toText h]

theorem PassedFor.toNumber_eq (h : PassedFor v w) : w.toNumber = v.toNumber := by
  cases h with
  | same => rfl
  | text h => rw [toNumber_text h,toNumber_toValue]

structure TakenAlike (v w : Value) : Prop where
  toNumber : w.toNumber = v.toNumber
  toInteger : w.toInteger = v.toInteger
  negate : w.negate = v.negate

theorem takenAlike_of_toNumber (h : w.toNumber = v.toNumber) : TakenAlike v w where
  toNumber := h
  toInteger := by rw [toInteger,h,toInteger]
  negate := by rw [negate,h,negate]

structure CombinedAlike (a b a' b' : Value) : Prop where
  add : a'.add b' = a.add b
  sub : a'.sub b' = a.sub b
  mul : a'.mul b' = a.mul b
  div : a'.div b' = a.div b
  rem : a'.rem b' = a.rem b
  compareNumbers : a'.compareNumbers b' = a.compareNumbers b

theorem combinedAlike_of_toNumber (ha : a'.toNumber = a.toNumber) (hb : b'.toNumber = b.toNumber) :
    CombinedAlike a b a' b' := by
  have harithmetic (onInts : Int64 → Int64 → Except Cause Int64)
      (onFloats : Binary64 → Binary64 → Binary64) {c c' : Value} (hc : c'.toNumber = c.toNumber) :
      arithmetic onInts onFloats a' c' = arithmetic onInts onFloats a c := by
    rw [arithmetic,ha,hc,arithmetic]
  refine ⟨harithmetic _ _ hb,?_,harithmetic _ _ hb,harithmetic _ _ hb,harithmetic _ _ hb,?_⟩
  · rw [sub,(takenAlike_of_toNumber hb).negate,sub]
    exact congrArg _ (funext fun c => harithmetic _ _ rfl)
  · rw [compareNumbers,ha,hb,compareNumbers]

end Value

namespace Args

variable {vs ws : List Value} {scope : Scope}

theorem expect_congr (h : vs.length = ws.length) (k : Nat) :
    expect ⟨ws,scope⟩ k = expect ⟨vs,scope⟩ k := by
  simp only [expect,h]

theorem integer_congr (h : ws.map Value.toNumber = vs.map Value.toNumber) (k : Nat) :
    integer ⟨ws,scope⟩ k = integer ⟨vs,scope⟩ k := by
  have hk := congrArg (·[k]?) h
  simp only [List.getElem?_map] at hk
  unfold integer get
  cases hv : vs[k]? <;> cases hw : ws[k]? <;> simp_all [bind,Except.bind,Value.toInteger]

theorem float_congr (h : ws.map Value.toNumber = vs.map Value.toNumber) (k : Nat) :
    float ⟨ws,scope⟩ k = float ⟨vs,scope⟩ k := by
  have hk := congrArg (·[k]?) h
  simp only [List.getElem?_map] at hk
  unfold float get
  cases hv : vs[k]? <;> cases hw : ws[k]? <;> simp_all [bind,Except.bind]

end Args

namespace Builtin
open Value

variable {vs ws : List Value} {v w : Value} {wanted : Ordering} {x y : Except String Value}

structure CalledAlike (vs ws : List Value) : Prop where
  int (scope : Scope) : int ⟨ws,scope⟩ = int ⟨vs,scope⟩
  float (scope : Scope) : float ⟨ws,scope⟩ = float ⟨vs,scope⟩
  range (scope : Scope) : range ⟨ws,scope⟩ = range ⟨vs,scope⟩

inductive PickedAlike (pairs : List (Value × Value)) :
    Except String Value → Except String Value → Prop
  | fail (message : String) : PickedAlike pairs (.error message) (.error message)
  | pick {v w : Value} : (v,w) ∈ pairs → PickedAlike pairs (.ok v) (.ok w)

theorem map_toNumber (h : List.Forall₂ PassedFor vs ws) :
    ws.map toNumber = vs.map toNumber := by
  induction h with
  | nil => rfl
  | cons hvw _ ih => rw [List.map_cons,List.map_cons,hvw.toNumber_eq,ih]

theorem exists_singleton (h : List.Forall₂ PassedFor vs ws) {scope : Scope}
    (hlength : Args.expect ⟨vs,scope⟩ 1 = .ok ()) :
    ∃ v w, vs = [v] ∧ ws = [w] ∧ PassedFor v w := by
  obtain ⟨v,rfl⟩ := List.length_eq_one_iff.mp (Args.expect_eq_ok_iff.mp hlength)
  obtain ⟨w,_,hvw,hnil,rfl⟩ := List.forall₂_cons_left_iff.mp h
  obtain rfl := List.forall₂_nil_left_iff.mp hnil
  exact ⟨v,w,rfl,rfl,hvw⟩

theorem calledAlike (h : List.Forall₂ PassedFor vs ws) : CalledAlike vs ws where
  int scope := by
    unfold int
    rw [Args.expect_congr h.length_eq,Args.integer_congr (map_toNumber h)]
    refine bind_congr_of_ok fun _ hlength => ?_
    obtain ⟨v,w,rfl,rfl,hvw⟩ := exists_singleton h hlength
    cases hvw with
    | same => rfl
    | @text n => cases n <;> rfl
  float scope := by
    unfold float
    rw [Args.expect_congr h.length_eq,Args.float_congr (map_toNumber h)]
    refine bind_congr_of_ok fun _ hlength => ?_
    obtain ⟨v,w,rfl,rfl,hvw⟩ := exists_singleton h hlength
    cases hvw with
    | same => rfl
    | @text n => cases n <;> rfl
  range scope := by
    unfold range
    simp only [Args.integer_congr (map_toNumber h),h.length_eq]

theorem PickedAlike.mono {pairs more : List (Value × Value)} (hx : PickedAlike pairs x y)
    (hsub : pairs ⊆ more) : PickedAlike more x y := by
  cases hx with
  | fail message => exact .fail message
  | pick hmem => exact .pick (hsub hmem)

/-- By induction along the scans, whose leaders are passed for each other at every step. -/
theorem pickedAlike_best (h : List.Forall₂ PassedFor vs ws) (hleader : PassedFor v w) :
    PickedAlike ((v,w) :: vs.zip ws) (best wanted v vs) (best wanted w ws) := by
  induction h generalizing v w with
  | nil => exact .pick (by simp)
  | @cons u u' vs ws hu _ ih =>
    have hcompare := (combinedAlike_of_toNumber hu.toNumber_eq hleader.toNumber_eq).compareNumbers
    rw [best,best,hcompare]
    cases u.compareNumbers v with
    | error c => exact .fail c.message
    | ok order =>
      by_cases hbeats : order = wanted
      · have hnext := ih hu
        simpa [Args.withMessage,bind,Except.bind,hbeats] using hnext.mono (by simp)
      · have hnext := ih hleader
        have hsub : (v,w) :: vs.zip ws ⊆ (v,w) :: (u :: vs).zip (u' :: ws) := by simp
        simpa [Args.withMessage,bind,Except.bind,hbeats] using hnext.mono hsub

theorem pickedAlike_extremum {args args' : Args}
    (h : List.Forall₂ PassedFor (candidates args.values) (candidates args'.values)) :
    PickedAlike ((candidates args.values).zip (candidates args'.values)) (extremum wanted args)
      (extremum wanted args') := by
  rw [extremum_eq,extremum_eq]
  generalize candidates args.values = vs at h ⊢
  generalize candidates args'.values = ws at h ⊢
  cases h with
  | nil => exact .fail _
  | cons hleader hrest => exact pickedAlike_best hrest hleader

/-- An integer and a finite float read back from their text as the same number of the same kind. So
every operation on numbers gives the same where the text of a number is passed for it, and so do the
functions that take numbers. `min` and `max` pick the same place, and give the text if it is a text
that is passed there. -/
theorem numbers_survive_text :
    (∀ n : Number, n.isFinite = true → ∀ scope,
      str ⟨[n.toValue],scope⟩ = .ok (.str n.toValue.toText) ∧
        (Value.str n.toValue.toText).toNumber = .ok n) ∧
    (∀ v w, PassedFor v w → TakenAlike v w) ∧
    (∀ a a' b b', PassedFor a a' → PassedFor b b' → CombinedAlike a b a' b') ∧
    (∀ vs ws, List.Forall₂ PassedFor vs ws → CalledAlike vs ws) ∧
    ∀ args args' : Args, List.Forall₂ PassedFor (candidates args.values) (candidates args'.values) →
      let pairs := (candidates args.values).zip (candidates args'.values)
      PickedAlike pairs (min args) (min args') ∧ PickedAlike pairs (max args) (max args') := by
  refine ⟨fun n hn scope => ⟨rfl,toNumber_text hn⟩,fun v w h => takenAlike_of_toNumber h.toNumber_eq,
    fun a a' b b' ha hb => combinedAlike_of_toNumber ha.toNumber_eq hb.toNumber_eq,
    fun vs ws h => calledAlike h,fun args args' h => ?_⟩
  exact ⟨pickedAlike_extremum h,pickedAlike_extremum h⟩

/-- The least integer and minus zero, both passed as texts and one of them alone. -/
theorem numbers_survive_text_at_limits :
    let least : Value := .int Int64.minValue
    let leastText : Value := .str "-9223372036854775808"
    let zero : Value := .float (.zero true)
    let zeroText : Value := .str "-0.0"
    leastText.toNumber = .ok (.int Int64.minValue) ∧ zeroText.toNumber = .ok (.float (.zero true)) ∧
    TakenAlike zero zeroText ∧ CombinedAlike least zero leastText zeroText ∧
    CalledAlike [zero,.int 3] [zeroText,.int 3] ∧
    PickedAlike [(zero,zeroText),(least,least)] (min ⟨[zero,least],Scope.root []⟩)
      (min ⟨[.list [zeroText,least]],Scope.root []⟩) := by
  intro least leastText zero zeroText
  have hleast : PassedFor least leastText := by
    have htext : (Number.int Int64.minValue).toValue.toText = "-9223372036854775808" := by
      decide +kernel
    have h := PassedFor.text (n := .int Int64.minValue) rfl
    rwa [htext] at h
  have hzero : PassedFor zero zeroText := by
    have htext : (Number.float (.zero true)).toValue.toText = "-0.0" := by decide +kernel
    have h := PassedFor.text (n := .float (.zero true)) rfl
    rwa [htext] at h
  obtain ⟨_,htaken,hcombined,hcalled,hpicked⟩ := numbers_survive_text
  have hcandidates : List.Forall₂ PassedFor (candidates [zero,least])
      (candidates [.list [zeroText,least]]) := .cons hzero (.cons (.same least) .nil)
  exact ⟨(htaken _ _ hleast).toNumber,(htaken _ _ hzero).toNumber,htaken _ _ hzero,
    hcombined _ _ _ _ hleast hzero,hcalled _ _ (.cons hzero (.cons (.same _) .nil)),
    (hpicked ⟨[zero,least],Scope.root []⟩ ⟨[.list [zeroText,least]],Scope.root []⟩ hcandidates).1⟩

end Builtin

end Stencil
