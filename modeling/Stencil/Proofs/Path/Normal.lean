import Stencil.Path

set_option autoImplicit false

namespace Stencil.Path

/-- A segment of a normal form: a name between two slashes, other than the names of directories. -/
structure IsProper (segment : List Char) : Prop where
  ne_nil : segment ≠ []
  ne_dot : segment ≠ ['.']
  ne_dots : segment ≠ ['.','.']
  no_slash : '/' ∉ segment

theorem split_ne_nil (path : List Char) : split path ≠ [] := by
  cases path with
  | nil => simp [split]
  | cons c r =>
    unfold split
    split
    · simp
    · split <;> simp

theorem no_slash_of_mem_split {path segment : List Char} (h : segment ∈ split path) :
    '/' ∉ segment := by
  induction path generalizing segment with
  | nil =>
    obtain rfl := List.mem_singleton.mp h
    simp
  | cons c r ih =>
    unfold split at h
    split at h
    · rcases List.mem_cons.mp h with rfl | h
      · simp
      · exact ih h
    · rename_i hc
      cases hr : split r with
      | nil => exact absurd hr (split_ne_nil r)
      | cons s ss =>
        rw [hr] at h ih
        rcases List.mem_cons.mp h with rfl | h
        · have hs := ih List.mem_cons_self
          simp [Ne.symm hc,hs]
        · exact ih (List.mem_cons_of_mem _ h)

theorem split_of_no_slash {segment : List Char} (h : '/' ∉ segment) : split segment = [segment] := by
  induction segment with
  | nil => rfl
  | cons c r ih =>
    simp only [List.mem_cons,not_or] at h
    rw [split,if_neg (Ne.symm h.1),ih h.2]

theorem split_append_slash {segment : List Char} (h : '/' ∉ segment) (rest : List Char) :
    split (segment ++ '/' :: rest) = segment :: split rest := by
  induction segment with
  | nil => simp [split]
  | cons c r ih =>
    simp only [List.mem_cons,not_or] at h
    rw [List.cons_append,split,if_neg (Ne.symm h.1),ih h.2]

theorem join_cons_cons (s t : List Char) (ss : List (List Char)) :
    join (s :: t :: ss) = s ++ '/' :: join (t :: ss) := by
  simp [join]

/-- Segments are found again in the path that they make. -/
theorem split_join {ss : List (List Char)} (hne : ss ≠ []) (h : ∀ s ∈ ss, '/' ∉ s) :
    split (join ss) = ss := by
  induction ss with
  | nil => exact absurd rfl hne
  | cons s ss ih =>
    obtain ⟨hs,hss⟩ := List.forall_mem_cons.mp h
    cases ss with
    | nil =>
      have hjoin : join [s] = s := by simp [join]
      rw [hjoin,split_of_no_slash hs]
    | cons t ss => rw [join_cons_cons,split_append_slash hs,ih (by simp) hss]

theorem IsProper.walk {directory : List (List Char)} (hd : ∀ s ∈ directory, IsProper s)
    {segment : List Char} (hs : '/' ∉ segment) : ∀ s ∈ Path.walk directory segment, IsProper s := by
  unfold Path.walk
  split
  · exact hd
  · rename_i hname
    split
    · exact fun s h => hd s (List.mem_of_mem_tail h)
    · rename_i hdots
      obtain ⟨hnil,hdot⟩ := not_or.mp hname
      exact List.forall_mem_cons.mpr ⟨⟨hnil,hdot,hdots,hs⟩,hd⟩

theorem walk_of_isProper (directory : List (List Char)) {segment : List Char}
    (h : IsProper segment) : walk directory segment = segment :: directory := by
  unfold walk
  rw [if_neg (not_or.mpr ⟨h.ne_nil,h.ne_dot⟩),if_neg h.ne_dots]

theorem isProper_foldl_walk {ss directory : List (List Char)} (hss : ∀ s ∈ ss, '/' ∉ s)
    (hd : ∀ s ∈ directory, IsProper s) : ∀ s ∈ ss.foldl walk directory, IsProper s := by
  induction ss generalizing directory with
  | nil => exact hd
  | cons s ss ih =>
    obtain ⟨hs,hss⟩ := List.forall_mem_cons.mp hss
    exact ih hss (.walk hd hs)

theorem foldl_walk_of_isProper {ss : List (List Char)} (h : ∀ s ∈ ss, IsProper s)
    (directory : List (List Char)) : ss.foldl walk directory = ss.reverse ++ directory := by
  induction ss generalizing directory with
  | nil => rfl
  | cons s ss ih =>
    obtain ⟨hs,hss⟩ := List.forall_mem_cons.mp h
    rw [List.foldl_cons,walk_of_isProper directory hs,ih hss]
    simp

theorem isProper_of_mem_segments {path s : List Char} (h : s ∈ segments path) : IsProper s :=
  isProper_foldl_walk (fun _ => no_slash_of_mem_split) (by simp) s (List.mem_reverse.mp h)

theorem segments_join {ss : List (List Char)} (h : ∀ s ∈ ss, IsProper s) :
    segments (join ss) = ss := by
  cases ss with
  | nil => rfl
  | cons s ss =>
    unfold segments
    rw [split_join (by simp) fun t ht => (h t ht).no_slash,foldl_walk_of_isProper h]
    simp

theorem toList_normalize (path : String) :
    (normalize path).toList = join (segments path.toList) := by
  simp [normalize]

theorem segments_normalize (path : String) :
    segments (normalize path).toList = segments path.toList := by
  rw [toList_normalize]
  exact segments_join fun _ => isProper_of_mem_segments

theorem normalize_normalize (path : String) : normalize (normalize path) = normalize path := by
  rw [normalize,segments_normalize,normalize]

theorem normalize_resolve (current : Option String) (path : String) :
    normalize (resolve current path) = resolve current path := by
  unfold resolve
  split
  · exact normalize_normalize _
  · split <;> exact normalize_normalize _

theorem resolve_slash (current : Option String) (path : String) :
    resolve current (String.ofList ('/' :: path.toList)) = normalize path := by
  simp [resolve]

end Stencil.Path
