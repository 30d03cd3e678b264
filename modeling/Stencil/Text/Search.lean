set_option autoImplicit false

namespace Stencil.Text

def cut? (sep : List Char) : List Char → Option (List Char × List Char)
  | [] => if sep = [] then some ([],[]) else none
  | c :: r =>
    if sep.isPrefixOf (c :: r) then some ([],(c :: r).drop sep.length)
    else (cut? sep r).map fun (before,after) => (c :: before,after)

theorem length_of_cut?_eq_some {sep s before after : List Char}
    (h : cut? sep s = some (before,after)) :
    before.length + sep.length + after.length = s.length := by
  induction s generalizing before after with
  | nil =>
    by_cases hs : sep = []
    · simp_all [cut?]
    · simp [cut?,hs] at h
  | cons c r ih =>
    rw [cut?] at h
    split at h
    · rename_i hp
      obtain ⟨t,ht⟩ := List.isPrefixOf_iff_prefix.1 hp
      simp only [Option.some.injEq,Prod.mk.injEq] at h
      obtain ⟨rfl,rfl⟩ := h
      rw [← ht]; simp
    · obtain ⟨⟨b,a⟩,hba,heq⟩ := Option.map_eq_some_iff.1 h
      simp only [Prod.mk.injEq] at heq
      obtain ⟨rfl,rfl⟩ := heq
      have := ih hba
      simp only [List.length_cons]; omega

def occursIn (needle s : List Char) : Bool := (cut? needle s).isSome

/-- The pieces between the occurrences of `sep`, found from the left and not overlapping. An empty
separator does not cut. -/
def splitAt (sep s : List Char) : List (List Char) :=
  if _hs : sep = [] then [s]
  else
    match _h : cut? sep s with
    | none => [s]
    | some (before,after) => before :: splitAt sep after
termination_by s.length
decreasing_by
  have := length_of_cut?_eq_some _h
  have : 0 < sep.length := List.length_pos_iff.2 _hs
  omega

def joinWith (sep : List Char) (parts : List (List Char)) : List Char :=
  (parts.intersperse sep).flatten

/-- The text with every occurrence of `old` replaced. An empty text occurs around every character.
-/
def replaceAll (old new s : List Char) : List Char :=
  if old = [] then new ++ s.flatMap fun c => c :: new
  else joinWith new (splitAt old s)

end Stencil.Text
