import Stencil.Function.Builtin
import Stencil.Proofs.Function.Args
import Stencil.Proofs.Value.Order

/-!
The least and the greatest of several values: one scan, in which each value is compared only with the
one that leads. Those that were passed over do not beat the last leader either, although the comparison
of numbers is not transitive.
-/

set_option autoImplicit false

namespace Stencil

namespace Number

variable {m n k : Number} {wanted : Ordering}

/-- What beats the leader is not beaten by those that do not beat the leader. The comparison is not
transitive where a float is equal to two integers, and the leader is not equal to what beats it. -/
theorem not_beats_of_beats (hwanted : wanted ≠ .eq) (hbeats : k.compare n = wanted)
    (hseen : m.compare n ≠ wanted) : m.compare k ≠ wanted := by
  cases wanted with
  | eq => exact absurd rfl hwanted
  | lt =>
    rw [ne_eq,compare_eq_swap_iff] at hseen ⊢
    refine (compare_le_trans (by simp [hbeats]) hseen).resolve_right fun h => ?_
    simp [h.compare_eq] at hbeats
  | gt =>
    rw [compare_eq_swap_iff] at hbeats
    refine (compare_le_trans hseen (by simp [hbeats])).resolve_right fun h => ?_
    rw [compare_eq_swap_iff,h.symm.compare_eq] at hbeats
    cases hbeats

inductive Alike : Number → Number → Prop
  | ints (i j : Int64) : Alike (.int i) (.int j)
  | floats (x y : Binary64) : Alike (.float x) (.float y)

theorem compare_of_places {a b c : Int} (hwanted : wanted ≠ .eq) (hbeats : Ord.compare c b = wanted)
    (hseen : Ord.compare a b ≠ wanted) : Ord.compare c a = wanted := by
  cases wanted with
  | eq => exact absurd rfl hwanted
  | lt =>
    rw [ne_eq,Int.compare_eq_lt] at *
    omega
  | gt =>
    rw [ne_eq,Int.compare_eq_gt] at *
    omega

/-- Numbers of one kind are compared by their places in one order, so what beats the leader also beats
those that do not. -/
theorem beats_of_beats (hmn : Alike m n) (hnk : Alike n k) (hwanted : wanted ≠ .eq)
    (hbeats : k.compare n = wanted) (hseen : m.compare n ≠ wanted) : k.compare m = wanted := by
  cases hmn with
  | ints i j =>
    cases hnk with
    | ints _ l => exact compare_of_places hwanted hbeats hseen
  | floats x y =>
    cases hnk with
    | floats _ z => exact compare_of_places hwanted hbeats hseen

end Number

namespace Value

variable {u v w : Value} {wanted : Ordering} {K : Number → Prop} {vs : List Value}

def Counts (v : Value) : Prop := ∃ n, v.toNumber = .ok n

theorem not_counts_iff : ¬v.Counts ↔ ∃ c, v.toNumber = .error c := exists_error_iff.symm

theorem exists_compareNumbers_iff : (∃ o, v.compareNumbers w = .ok o) ↔ v.Counts ∧ w.Counts := by
  simp only [compareNumbers_eq_ok_iff]
  constructor
  · rintro ⟨_,m,n,hm,hn,_⟩
    exact ⟨⟨m,hm⟩,⟨n,hn⟩⟩
  · rintro ⟨⟨m,hm⟩,⟨n,hn⟩⟩
    exact ⟨_,m,n,hm,hn,rfl⟩

theorem not_beats_of_beats (hwanted : wanted ≠ .eq) (hbeats : w.compareNumbers v = .ok wanted)
    (hseen : u.compareNumbers v ≠ .ok wanted) : u.compareNumbers w ≠ .ok wanted := by
  intro hbeaten
  obtain ⟨k,n,hk,hn,hkn⟩ := compareNumbers_eq_ok_iff.mp hbeats
  obtain ⟨m,_,hm,_⟩ := compareNumbers_eq_ok_iff.mp hbeaten
  rw [compareNumbers_eq_iff hm hk] at hbeaten
  rw [ne_eq,compareNumbers_eq_iff hm hn] at hseen
  exact Number.not_beats_of_beats hwanted hkn hseen hbeaten

def CountAlike (vs : List Value) : Prop :=
  (∀ v ∈ vs, ∃ i, v.toNumber = .ok (.int i)) ∨ ∀ v ∈ vs, ∃ x, v.toNumber = .ok (.float x)

def IsKind (K : Number → Prop) : Prop := ∀ m n, K m → K n → Number.Alike m n

def CountsAs (K : Number → Prop) (v : Value) : Prop := ∃ n, v.toNumber = .ok n ∧ K n

theorem CountsAs.counts (h : v.CountsAs K) : v.Counts := by
  obtain ⟨n,hn,_⟩ := h
  exact ⟨n,hn⟩

theorem CountAlike.exists_kind (h : CountAlike vs) : ∃ K, IsKind K ∧ ∀ v ∈ vs, v.CountsAs K := by
  obtain hints | hfloats := h
  · refine ⟨fun n => ∃ i, n = .int i,?_,fun v hv => ?_⟩
    · rintro _ _ ⟨i,rfl⟩ ⟨j,rfl⟩
      exact .ints i j
    · obtain ⟨i,hi⟩ := hints v hv
      exact ⟨.int i,hi,i,rfl⟩
  · refine ⟨fun n => ∃ x, n = .float x,?_,fun v hv => ?_⟩
    · rintro _ _ ⟨x,rfl⟩ ⟨y,rfl⟩
      exact .floats x y
    · obtain ⟨x,hx⟩ := hfloats v hv
      exact ⟨.float x,hx,x,rfl⟩

theorem beats_of_beats (hK : IsKind K) (hu : u.CountsAs K) (hv : v.CountsAs K) (hw : w.CountsAs K)
    (hwanted : wanted ≠ .eq) (hbeats : w.compareNumbers v = .ok wanted)
    (hseen : u.compareNumbers v ≠ .ok wanted) : w.compareNumbers u = .ok wanted := by
  obtain ⟨m,hm,hKm⟩ := hu
  obtain ⟨n,hn,hKn⟩ := hv
  obtain ⟨k,hk,hKk⟩ := hw
  rw [compareNumbers_eq_iff hk hn] at hbeats
  rw [ne_eq,compareNumbers_eq_iff hm hn] at hseen
  rw [compareNumbers_eq_iff hk hm]
  exact Number.beats_of_beats (hK m n hKm hKn) (hK n k hKn hKk) hwanted hbeats hseen

end Value

namespace Builtin
open Value

variable {wanted order : Ordering} {seen vs : List Value} {leader r v : Value}

/-- No value of the list beats this one of them. -/
structure Extremal (wanted : Ordering) (vs : List Value) (r : Value) : Prop where
  mem : r ∈ vs
  unbeaten : ∀ v ∈ vs, v.compareNumbers r ≠ .ok wanted

def BeatsEarlier (wanted : Ordering) (vs : List Value) (r : Value) : Prop :=
  ∃ before after, vs = before ++ r :: after ∧ ∀ v ∈ before, r.compareNumbers v = .ok wanted

theorem best_cons_eq_ok_iff : best wanted leader (v :: vs) = .ok r ↔
    ∃ order, v.compareNumbers leader = .ok order ∧
      best wanted (if order = wanted then v else leader) vs = .ok r := by
  rw [best,bind_eq_ok_iff]
  simp only [Args.withMessage_eq_ok_iff]

theorem exists_best_iff : (∃ r, best wanted leader vs = .ok r) ↔
    vs = [] ∨ ∀ v ∈ leader :: vs, v.Counts := by
  induction vs generalizing leader with
  | nil => simp [best]
  | cons v vs ih =>
    simp only [best_cons_eq_ok_iff,reduceCtorEq,false_or,List.forall_mem_cons]
    constructor
    · rintro ⟨r,order,horder,hr⟩
      obtain ⟨hv,hleader⟩ := exists_compareNumbers_iff.mp ⟨order,horder⟩
      obtain rfl | hvs := ih.mp ⟨r,hr⟩
      · exact ⟨hleader,hv,nofun⟩
      · exact ⟨hleader,hv,(List.forall_mem_cons.mp hvs).2⟩
    · rintro ⟨hleader,hv,hvs⟩
      obtain ⟨order,horder⟩ := exists_compareNumbers_iff.mpr ⟨hv,hleader⟩
      have hnext : (if order = wanted then v else leader).Counts := by
        split
        · exact hv
        · exact hleader
      obtain ⟨r,hr⟩ := ih.mpr (.inr (List.forall_mem_cons.mpr ⟨hnext,hvs⟩))
      exact ⟨r,order,horder,hr⟩

/-- What each comparison of a scan keeps of the values that were seen and their leader, holds of all
values and the last leader. -/
theorem best_induction {P : List Value → Value → Prop} (hbest : best wanted leader vs = .ok r)
    (hstart : P seen leader)
    (hstep : ∀ seen leader v order, v ∈ vs → P seen leader → v.compareNumbers leader = .ok order →
      P (seen ++ [v]) (if order = wanted then v else leader)) : P (seen ++ vs) r := by
  induction vs generalizing seen leader with
  | nil =>
    obtain rfl := Except.ok.inj hbest
    simpa using hstart
  | cons v vs ih =>
    obtain ⟨order,horder,hbest⟩ := best_cons_eq_ok_iff.mp hbest
    have hnext := hstep seen leader v order List.mem_cons_self hstart horder
    rw [List.append_cons]
    exact ih hbest hnext fun seen leader u order hu =>
      hstep seen leader u order (List.mem_cons_of_mem _ hu)

section Scan

variable (hwanted : wanted ≠ .eq)
include hwanted

theorem extremal_singleton (v : Value) : Extremal wanted [v] v := by
  refine ⟨List.mem_singleton_self v,fun u hu => ?_⟩
  obtain rfl := List.mem_singleton.mp hu
  exact compareNumbers_self_ne hwanted u

theorem Extremal.step (h : Extremal wanted seen leader)
    (horder : v.compareNumbers leader = .ok order) :
    Extremal wanted (seen ++ [v]) (if order = wanted then v else leader) := by
  split
  · rename_i hbeats
    subst hbeats
    refine ⟨by simp,fun u hu => ?_⟩
    rw [List.mem_append,List.mem_singleton] at hu
    obtain hu | rfl := hu
    · exact not_beats_of_beats hwanted horder (h.unbeaten u hu)
    · exact compareNumbers_self_ne hwanted u
  · rename_i hbeats
    refine ⟨List.mem_append_left _ h.mem,fun u hu => ?_⟩
    rw [List.mem_append,List.mem_singleton] at hu
    obtain hu | rfl := hu
    · exact h.unbeaten u hu
    · simpa [horder] using hbeats

theorem BeatsEarlier.step {K : Number → Prop} (hK : IsKind K) (hseen : ∀ u ∈ seen, u.CountsAs K)
    (hv : v.CountsAs K) (hextremal : Extremal wanted seen leader)
    (h : BeatsEarlier wanted seen leader) (horder : v.compareNumbers leader = .ok order) :
    BeatsEarlier wanted (seen ++ [v]) (if order = wanted then v else leader) := by
  split
  · rename_i hbeats
    subst hbeats
    exact ⟨seen,[],rfl,fun u hu => beats_of_beats hK (hseen u hu) (hseen leader hextremal.mem) hv
      hwanted horder (hextremal.unbeaten u hu)⟩
  · obtain ⟨before,after,rfl,hbefore⟩ := h
    exact ⟨before,after ++ [v],by simp,hbefore⟩

theorem extremal_best (h : best wanted leader vs = .ok r) : Extremal wanted (leader :: vs) r :=
  best_induction (P := Extremal wanted) h (extremal_singleton hwanted leader)
    fun _ _ _ _ _ hextremal => hextremal.step hwanted

theorem beatsEarlier_best (hvs : CountAlike (leader :: vs)) (h : best wanted leader vs = .ok r) :
    BeatsEarlier wanted (leader :: vs) r := by
  obtain ⟨K,hK,hcounts⟩ := hvs.exists_kind
  obtain ⟨hleader,hcounts⟩ := List.forall_mem_cons.mp hcounts
  let P (seen : List Value) (leader : Value) : Prop :=
    (∀ u ∈ seen, u.CountsAs K) ∧ Extremal wanted seen leader ∧ BeatsEarlier wanted seen leader
  have hstart : P [leader] leader :=
    ⟨by simpa using hleader,extremal_singleton hwanted leader,[],[],rfl,nofun⟩
  refine (best_induction (P := P) h hstart ?_).2.2
  rintro seen leader v order hv ⟨hseen,hextremal,hearlier⟩ horder
  refine ⟨?_,hextremal.step hwanted horder,
    hearlier.step hwanted hK hseen (hcounts v hv) hextremal horder⟩
  simpa [or_imp,forall_and] using ⟨hseen,hcounts v hv⟩

end Scan

/-- The values that are looked through: the arguments, or the items of an only argument that is a
list. -/
def candidates : List Value → List Value
  | [.list items] => items
  | vs => vs

theorem extremum_eq (wanted : Ordering) (args : Args) :
    extremum wanted args = match candidates args.values with
      | [] => .error "expected at least one value"
      | v :: vs => best wanted v vs := by
  unfold extremum candidates
  rfl

/-- How a function picks one of several values. -/
structure Picks (wanted : Ordering) (f : Function) (args : Args) (vs : List Value) : Prop where
  extremal : (∀ v ∈ vs, v.Counts) → ∃ r, f args = .ok r ∧ Extremal wanted vs r
  first : CountAlike vs → ∃ r, f args = .ok r ∧ Extremal wanted vs r ∧ BeatsEarlier wanted vs r
  fails : 2 ≤ vs.length →
    ((∃ message, f args = .error message) ↔ ∃ v ∈ vs, ∃ c, v.toNumber = .error c)

theorem picks_extremum (hwanted : wanted ≠ .eq) {args : Args} (h : candidates args.values = vs)
    (hvs : vs ≠ []) : Picks wanted (extremum wanted) args vs := by
  obtain ⟨leader,rest,rfl⟩ := List.exists_cons_of_ne_nil hvs
  have heq : extremum wanted args = best wanted leader rest := by rw [extremum_eq,h]
  have hpicks (hcounts : ∀ v ∈ leader :: rest, v.Counts) :
      ∃ r, extremum wanted args = .ok r ∧ best wanted leader rest = .ok r := by
    obtain ⟨r,hr⟩ := exists_best_iff.mpr (.inr hcounts)
    exact ⟨r,heq.trans hr,hr⟩
  refine ⟨fun hcounts => ?_,fun halike => ?_,fun hlength => ?_⟩
  · obtain ⟨r,hextremum,hr⟩ := hpicks hcounts
    exact ⟨r,hextremum,extremal_best hwanted hr⟩
  · obtain ⟨K,_,hcounts⟩ := halike.exists_kind
    obtain ⟨r,hextremum,hr⟩ := hpicks fun v hv => (hcounts v hv).counts
    exact ⟨r,hextremum,extremal_best hwanted hr,beatsEarlier_best hwanted halike hr⟩
  · have hrest : rest ≠ [] := by
      rintro rfl
      simp at hlength
    rw [exists_error_iff,heq,exists_best_iff,or_iff_right hrest]
    simp only [not_forall,not_counts_iff,exists_prop]

/-- For at least one value, given as arguments or as the items of an only argument that is a list: if all
count as numbers, `min` gives one of them, unconverted, that none is less than, and `max` one that none is
greater than. If all count as integers, or all as floats, it is the first such value: it beats those that
stand before it. With two values or more, the functions fail exactly where one of them does not count as
a number. -/
theorem min_max_extremal {args : Args} {vs : List Value} (h : candidates args.values = vs)
    (hvs : vs ≠ []) : Picks .lt min args vs ∧ Picks .gt max args vs :=
  ⟨picks_extremum (by decide) h hvs,picks_extremum (by decide) h hvs⟩

/-- A float between two integers to which it is equal: the integers are not equal to each other. Among
floats, what is no number stands at one of the ends, by its sign. -/
theorem min_max_extremal_of_mixed :
    let scope := Scope.root []
    let vs : List Value := [.str "9007199254740993",.float (Binary64.ofInt 9007199254740992),
      .safe "9007199254740992"]
    let ws : List Value := [.int 2,.str "1",.int 1]
    let us : List Value := [.int 1,.none]
    let xs : List Value :=
      [.float (.infinity true),.float Binary64.invalid,.float (.infinity false)]
    candidates vs = vs ∧ candidates [.list ws] = ws ∧ candidates us = us ∧ candidates xs = xs ∧
    (∀ v ∈ vs, v.Counts) ∧ CountAlike ws ∧ CountAlike xs ∧
    (∃ r, min ⟨vs,scope⟩ = .ok r ∧ Extremal .lt vs r) ∧
    (∃ r, min ⟨[.list ws],scope⟩ = .ok r ∧ Extremal .lt ws r ∧ BeatsEarlier .lt ws r) ∧
    (∃ r, min ⟨xs,scope⟩ = .ok r ∧ Extremal .lt xs r ∧ BeatsEarlier .lt xs r) ∧
    min ⟨xs,scope⟩ = .ok (.float Binary64.invalid) ∧
    ∃ message, max ⟨us,scope⟩ = .error message := by
  intro scope vs ws us xs
  have hmixed : ∀ v ∈ vs, v.Counts := by
    simp only [vs,List.forall_mem_cons]
    exact ⟨⟨.int 9007199254740993,by decide +kernel⟩,⟨_,rfl⟩,
      ⟨.int 9007199254740992,by decide +kernel⟩,nofun⟩
  have halike : CountAlike ws := by
    refine .inl ?_
    simp only [ws,List.forall_mem_cons]
    exact ⟨⟨2,rfl⟩,⟨1,by decide +kernel⟩,⟨1,rfl⟩,nofun⟩
  have hfloats : CountAlike xs := by
    refine .inr ?_
    simp only [xs,List.forall_mem_cons]
    exact ⟨⟨_,rfl⟩,⟨_,rfl⟩,⟨_,rfl⟩,nofun⟩
  have hvs : candidates vs = vs := rfl
  have hws : candidates [.list ws] = ws := rfl
  have hus : candidates us = us := rfl
  have hxs : candidates xs = xs := rfl
  obtain ⟨hmin,_⟩ := @min_max_extremal ⟨vs,scope⟩ _ hvs (by simp [vs])
  obtain ⟨hfirst,_⟩ := @min_max_extremal ⟨[.list ws],scope⟩ _ hws (by simp [ws])
  obtain ⟨_,hfails⟩ := @min_max_extremal ⟨us,scope⟩ _ hus (by simp [us])
  obtain ⟨hleast,_⟩ := @min_max_extremal ⟨xs,scope⟩ _ hxs (by simp [xs])
  exact ⟨hvs,hws,hus,hxs,hmixed,halike,hfloats,hmin.extremal hmixed,hfirst.first halike,
    hleast.first hfloats,rfl,
    (hfails.fails (by simp [us])).mpr ⟨.none,by simp [us],_,rfl⟩⟩

end Builtin

end Stencil
