import Stencil.Function.Builtin
import Stencil.Proofs.Function.Args
import Stencil.Proofs.Text.Search

set_option autoImplicit false

namespace Stencil.Builtin

variable {u v : Value} {s sep : String} {scope : Scope}

theorem split_eq (hu : u.asText? = some s) (hv : v.asText? = some sep) (hsep : sep ≠ "") :
    split ⟨[u,v],scope⟩ = .ok (.list ((Text.splitAt sep.toList s.toList).map
      fun cs => .str (String.ofList cs))) := by
  have hs : Args.string ⟨[u,v],scope⟩ 0 = .ok s := Args.string_of_asText? rfl hu
  have hseparator : Args.string ⟨[u,v],scope⟩ 1 = .ok sep := Args.string_of_asText? rfl hv
  have hempty : sep.isEmpty = false := by simpa using hsep
  simp only [split,hs,List.length_cons,List.length_nil,bind,Except.bind,hseparator,hempty]
  rfl

theorem join_eq {items : List Value} (hv : v.asText? = some sep) :
    join ⟨[.list items,v],scope⟩ = .ok (.str (String.ofList
      (Text.joinWith sep.toList (items.map fun u => u.toText.toList)))) := by
  have hseparator : Args.string ⟨[.list items,v],scope⟩ 1 = .ok sep := Args.string_of_asText? rfl hv
  simp only [join,List.length_cons,List.length_nil,hseparator]
  rfl

/-- The pieces of a text between the occurrences of a separator that is not empty: there is one at least,
the separator occurs in none of them, and joined with it they are the text again, wherever the
occurrences stand and however they overlap. -/
theorem join_split (hu : u.asText? = some s) (hv : v.asText? = some sep) (hsep : sep ≠ "")
    (scope : Scope) :
    ∃ pieces : List String, split ⟨[u,v],scope⟩ = .ok (.list (pieces.map .str)) ∧ pieces ≠ [] ∧
      (∀ piece ∈ pieces, ¬sep.toList <:+: piece.toList) ∧
      join ⟨[.list (pieces.map .str),v],scope⟩ = .ok (.str s) := by
  have hne : sep.toList ≠ [] := by simpa using hsep
  let pieces := Text.splitAt sep.toList s.toList
  refine ⟨pieces.map String.ofList,?_,?_,?_,?_⟩
  · rw [split_eq hu hv hsep,List.map_map]
    rfl
  · simpa using Text.splitAt_ne_nil sep.toList s.toList
  · intro piece hpiece
    obtain ⟨cs,hcs,rfl⟩ := List.mem_map.mp hpiece
    simpa using Text.not_infix_of_mem_splitAt hne hcs
  · have htexts : ((pieces.map String.ofList).map Value.str).map (fun u => u.toText.toList) =
        pieces := by
      rw [List.map_map,List.map_map]
      exact List.map_id'' (fun cs => String.toList_ofList) pieces
    rw [join_eq hv,htexts,Text.joinWith_splitAt,String.ofList_toList]

/-- A separator that overlaps with itself, at the start and the end of the text and next to itself. -/
theorem join_split_of_overlaps :
    let scope := Scope.root []
    ("aba" : String) ≠ "" ∧ ∃ pieces : List String,
      split ⟨[.str "ababaéabaaba",.safe "aba"],scope⟩ = .ok (.list (pieces.map .str)) ∧ pieces ≠ [] ∧
      (∀ piece ∈ pieces, ¬"aba".toList <:+: piece.toList) ∧
      join ⟨[.list (pieces.map .str),.safe "aba"],scope⟩ = .ok (.str "ababaéabaaba") := by
  intro scope
  have hsep : ("aba" : String) ≠ "" := by decide
  exact ⟨hsep,join_split rfl rfl hsep scope⟩

end Stencil.Builtin
