import Stencil.Text.Search

/-!
Searching texts: a text occurs in another where that one has it as a block of its characters. The first
occurrence cuts a text in two, and cutting on and on gives pieces without an occurrence, which the
separators join again.
-/

set_option autoImplicit false

namespace Stencil.Text

theorem occursIn_iff {needle s : List Char} : occursIn needle s = true ↔ needle <:+: s := by
  unfold occursIn
  induction s with
  | nil =>
    rw [cut?,List.infix_nil]
    split <;> simp_all
  | cons c r ih =>
    rw [cut?,List.infix_cons_iff,← List.isPrefixOf_iff_prefix]
    split
    · rename_i hstart
      simp [hstart]
    · rename_i hstart
      simpa [hstart] using ih

theorem occursIn_singleton {c : Char} {s : List Char} (h : c ∈ s) : occursIn [c] s = true := by
  obtain ⟨before,after,rfl⟩ := List.append_of_mem h
  exact occursIn_iff.mpr ⟨before,after,by simp⟩

theorem append_of_cut? {sep cs before after : List Char}
    (h : cut? sep cs = some (before,after)) : cs = before ++ (sep ++ after) := by
  induction cs generalizing before with
  | nil =>
    rw [cut?] at h
    split at h
    · cases h
      simp_all
    · cases h
  | cons c r ih =>
    rw [cut?] at h
    split at h
    · rename_i hsep
      cases h
      exact (List.prefix_iff_eq_append.mp (List.isPrefixOf_iff_prefix.mp hsep)).symm
    · obtain ⟨⟨b,a⟩,hcut,heq⟩ := Option.map_eq_some_iff.mp h
      cases heq
      rw [List.cons_append,← ih hcut]

theorem cut?_eq_none_iff {sep s : List Char} : cut? sep s = none ↔ ¬sep <:+: s := by
  rw [← occursIn_iff,occursIn,Bool.not_eq_true,Option.isSome_eq_false_iff,Option.isNone_iff_eq_none]

theorem length_before_le {sep s before after b a : List Char} (h : cut? sep s = some (before,after))
    (hs : s = b ++ (sep ++ a)) : before.length ≤ b.length := by
  induction s generalizing before b with
  | nil =>
    have hlength := congrArg List.length (append_of_cut? h)
    simp only [List.length_append,List.length_nil] at hlength
    omega
  | cons c r ih =>
    rw [cut?] at h
    split at h
    · cases h
      exact Nat.zero_le _
    · rename_i hprefix
      obtain ⟨⟨before,after⟩,hcut,heq⟩ := Option.map_eq_some_iff.mp h
      cases heq
      cases b with
      | nil => exact absurd (List.isPrefixOf_iff_prefix.mpr ⟨a,hs.symm⟩) hprefix
      | cons d b => exact Nat.succ_le_succ (ih hcut (List.cons.inj hs).2)

theorem not_infix_append_of_cut? {c d : Char} {s before after : List Char}
    (h : cut? [c,d] s = some (before,after)) : ¬[c,d] <:+: before ++ [c] := by
  rintro ⟨b,a,hba⟩
  have hs : s = b ++ ([c,d] ++ (a ++ d :: after)) := by
    rw [append_of_cut? h,← List.append_assoc [c,d],← List.append_assoc b,← List.append_assoc b,hba]
    simp
  have hle := length_before_le h hs
  have hlength := congrArg List.length hba
  simp only [List.length_append,List.length_cons,List.length_nil] at hlength
  omega

theorem not_infix_before {sep s before after : List Char} (hsep : sep ≠ [])
    (h : cut? sep s = some (before,after)) : ¬sep <:+: before := by
  rintro ⟨b,a,rfl⟩
  have hle := length_before_le (b := b) (a := a ++ (sep ++ after)) h (by simp [append_of_cut? h])
  have hpos := List.length_pos_iff.mpr hsep
  simp only [List.length_append] at hle
  omega

theorem splitAt_ne_nil (sep s : List Char) : splitAt sep s ≠ [] := by
  unfold splitAt
  repeat' split
  all_goals simp

theorem joinWith_cons {sep piece : List Char} {pieces : List (List Char)} (h : pieces ≠ []) :
    joinWith sep (piece :: pieces) = piece ++ (sep ++ joinWith sep pieces) := by
  obtain ⟨next,rest,rfl⟩ := List.exists_cons_of_ne_nil h
  simp [joinWith]

/-- Joining the pieces gives the text back. -/
theorem joinWith_splitAt (sep s : List Char) : joinWith sep (splitAt sep s) = s := by
  fun_induction splitAt sep s with
  | case1 s hsep => simp [joinWith]
  | case2 s hsep hcut => simp [joinWith]
  | case3 s hsep before after hcut ih =>
    rw [joinWith_cons (splitAt_ne_nil sep after),ih,← append_of_cut? hcut]

theorem not_infix_of_mem_splitAt {sep s piece : List Char} (hsep : sep ≠ [])
    (h : piece ∈ splitAt sep s) : ¬sep <:+: piece := by
  fun_induction splitAt sep s with
  | case1 s hempty => exact absurd hempty hsep
  | case2 s _ hcut =>
    obtain rfl := List.mem_singleton.mp h
    exact cut?_eq_none_iff.mp hcut
  | case3 s _ before after hcut ih =>
    obtain rfl | h := List.mem_cons.mp h
    · exact not_infix_before hsep hcut
    · exact ih h

end Stencil.Text
