import Mathlib.Data.Rat.Floor
import Stencil.Proofs.Number.Progression
import Stencil.Proofs.Value.Truncated

/-!
Ranges of integers: the progression from a start that stops in front of a bound, with as many places as
the distance has steps. A sum that is no 64-bit integer would lie behind the bound, so that the loop
that ends there leaves nothing out.
-/

set_option autoImplicit false

namespace Stencil

namespace Integer

variable {i step stop : Int64}

/-- How many places come before a bound: the distance in steps, rounded up. -/
def placesBefore (start stop step : Int) : Nat := ⌈((stop - start : Int) : ℚ) / step⌉.toNat

theorem lt_placesBefore_iff {start stop step : Int} (hstep : step ≠ 0) (k : Nat) :
    k < placesBefore start stop step ↔ Precedes step (start + k * step) stop := by
  rw [placesBefore,Int.lt_toNat,Int.lt_ceil,Precedes]
  -- dividing by a negative step turns the inequality round
  split
  · rename_i hneg
    rw [lt_div_iff_of_neg (by exact_mod_cast hneg)]
    norm_cast
    omega
  · rename_i hneg
    rw [lt_div_iff₀ (by exact_mod_cast show 0 < step by omega)]
    norm_cast
    omega

theorem length_progression (hstep : step ≠ 0) :
    (progression stop step i).length = placesBefore i.toInt stop.toInt step.toInt := by
  refine eq_of_forall_lt_iff fun k => ?_
  rw [lt_length_progression_iff hstep,lt_placesBefore_iff (toInt_ne_zero hstep)]

/-- In whole numbers, the loop with checked sums visits the places in front of the bound. -/
theorem map_toInt_progression (hstep : step ≠ 0) :
    (progression stop step i).map Int64.toInt =
      (List.range (placesBefore i.toInt stop.toInt step.toInt)).map
        fun k : Nat => i.toInt + k * step.toInt := by
  rw [← length_progression hstep]
  refine List.ext_getElem (by simp) fun k hk _ => ?_
  rw [List.length_map] at hk
  rw [List.getElem_map,List.getElem_map,List.getElem_range]
  exact toInt_of_mem_progression (List.getElem?_eq_getElem hk)

theorem mem_map_toInt_progression (hstep : step ≠ 0) (j : Int) :
    j ∈ (progression stop step i).map Int64.toInt ↔
      ∃ k : Nat, j = i.toInt + k * step.toInt ∧ Precedes step.toInt j stop.toInt := by
  have hne := toInt_ne_zero hstep
  simp only [map_toInt_progression hstep,List.mem_map,List.mem_range,lt_placesBefore_iff hne]
  constructor
  · rintro ⟨k,hk,rfl⟩
    exact ⟨k,rfl,hk⟩
  · rintro ⟨k,rfl,hk⟩
    exact ⟨k,hk,rfl⟩

theorem precedes_of_lt {start step : Int} (hstep : step ≠ 0) {k l : Nat} (h : k < l) :
    Precedes step (start + k * step) (start + l * step) := by
  have hcast : (k : Int) < l := by exact_mod_cast h
  unfold Precedes
  split
  · rename_i hneg
    have hmul := Int.mul_lt_mul_of_neg_right hcast hneg
    omega
  · have hmul := Int.mul_lt_mul_of_pos_right hcast (show 0 < step by omega)
    omega

theorem pairwise_progression (hstep : step ≠ 0) :
    (progression stop step i).Pairwise fun j k => Precedes step.toInt j.toInt k.toInt := by
  have hne := toInt_ne_zero hstep
  rw [← List.pairwise_map,map_toInt_progression hstep,List.pairwise_map]
  exact List.pairwise_lt_range.imp fun h => precedes_of_lt hne h

theorem nodup_progression (hstep : step ≠ 0) : (progression stop step i).Nodup := by
  refine (pairwise_progression hstep).imp ?_
  rintro j _ h rfl
  unfold Precedes at h
  split at h <;> omega

end Integer

namespace Builtin
open Integer

variable {u v w : Value} {start stop step : Int64} {scope : Scope}

theorem range_step (hu : u.toInteger = .ok start) (hv : v.toInteger = .ok stop)
    (hw : w.toInteger = .ok step) (hstep : step ≠ 0) :
    range ⟨[u,v,w],scope⟩ = .ok (.list ((progression stop step start).map .int)) := by
  have hargs (k : Nat) {i : Int64} {x : Value} (hx : [u,v,w][k]? = some x) (hi : x.toInteger = .ok i) :
      Args.integer ⟨[u,v,w],scope⟩ k = .ok i := Args.integer_eq_ok_iff.mpr ⟨x,hx,hi⟩
  rw [range_eq]
  simp only [hargs 0 rfl hu,hargs 1 rfl hv,hargs 2 rfl hw]
  exact if_neg hstep

theorem range_stop (v : Value) (scope : Scope) :
    range ⟨[v],scope⟩ = range ⟨[.int 0,v,.int 1],scope⟩ := by
  rw [range_eq,range_eq]
  simp only [Args.integer,Args.get]
  cases v.toInteger <;> rfl

theorem range_start (u v : Value) (scope : Scope) :
    range ⟨[u,v],scope⟩ = range ⟨[u,v,.int 1],scope⟩ := by
  rw [range_eq,range_eq]
  simp only [Args.integer,Args.get]
  cases u.toInteger <;> cases v.toInteger <;> rfl

/-- A range between values that are taken as 64-bit integers ends and is the list of the integers
`start + k * step`, for `k` from zero on, that come before the stop: in this order, each once, and as many
as the distance has steps, rounded up. None is missing or wrong at the limits of the 64-bit integers. A
start that is not given is zero, and a step that is not given is one. -/
theorem range_is_progression (hu : u.toInteger = .ok start) (hv : v.toInteger = .ok stop)
    (hw : w.toInteger = .ok step) (hstep : step ≠ 0) (scope : Scope) :
    ∃ js : List Int64, range ⟨[u,v,w],scope⟩ = .ok (.list (js.map .int)) ∧
      js.map Int64.toInt = (List.range (placesBefore start.toInt stop.toInt step.toInt)).map
        (fun k : Nat => start.toInt + k * step.toInt) ∧
      (∀ j : Int, j ∈ js.map Int64.toInt ↔
        ∃ k : Nat, j = start.toInt + k * step.toInt ∧ Precedes step.toInt j stop.toInt) ∧
      js.Nodup ∧
      range ⟨[v],scope⟩ = range ⟨[.int 0,v,.int 1],scope⟩ ∧
      range ⟨[u,v],scope⟩ = range ⟨[u,v,.int 1],scope⟩ :=
  ⟨progression stop step start,range_step hu hv hw hstep,map_toInt_progression hstep,
    mem_map_toInt_progression hstep,nodup_progression hstep,range_stop v scope,range_start u v scope⟩

/-- Towards the smallest integer in the greatest steps, and past the greatest one. -/
theorem range_is_progression_at_limits :
    let scope := Scope.root []
    (∃ js : List Int64,
      range ⟨[.int Int64.maxValue,.int Int64.minValue,.int Int64.minValue],scope⟩ =
        .ok (.list (js.map .int)) ∧ js.map Int64.toInt = [9223372036854775807,-1]) ∧
    ∃ js : List Int64,
      range ⟨[.str "9223372036854775805",.int Int64.maxValue,.int 3],scope⟩ =
        .ok (.list (js.map .int)) ∧ js.map Int64.toInt = [9223372036854775805] := by
  intro scope
  obtain ⟨js,hjs,hlist,_⟩ := @range_is_progression (.int Int64.maxValue) (.int Int64.minValue)
    (.int Int64.minValue) _ _ _ rfl rfl rfl (by decide) scope
  obtain ⟨ks,hks,hshort,_⟩ := @range_is_progression (.str "9223372036854775805")
    (.int Int64.maxValue) (.int 3) 9223372036854775805 _ _ (by decide +kernel) rfl rfl (by decide) scope
  exact ⟨⟨js,hjs,hlist.trans (by decide +kernel)⟩,ks,hks,hshort.trans (by decide +kernel)⟩

end Builtin

end Stencil
