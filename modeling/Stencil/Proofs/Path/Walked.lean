import Stencil.Proofs.Path.Normal

set_option autoImplicit false

namespace Stencil.Path

/-- Walking along segments leads from a directory to another one. A directory is the list of its
names from the root on. -/
inductive Walks : List (List Char) → List (List Char) → List (List Char) → Prop
  | arrives {d} : Walks d [] d
  | stays {d s ss e} : s = [] ∨ s = ['.'] → Walks d ss e → Walks d (s :: ss) e
  | climbs {d name ss e} : Walks d ss e → Walks (d ++ [name]) (['.','.'] :: ss) e
  | rests {ss e} : Walks [] ss e → Walks [] (['.','.'] :: ss) e
  | enters {d s ss e} : s ≠ [] → s ≠ ['.'] → s ≠ ['.','.'] → Walks (d ++ [s]) ss e →
      Walks d (s :: ss) e

/-- The directory of a template: the normal form of its name without the last segment, and the root
for a template without a name. -/
def directory (current : Option String) : String :=
  match current with
  | none => ""
  | some name => normalize (String.ofList (join (split name.toList).dropLast))

section

variable {d ss e : List (List Char)}

theorem foldl_walk_of_walks (h : Walks d ss e) : ss.foldl walk d.reverse = e.reverse := by
  induction h with
  | arrives => rfl
  | stays hs _ ih =>
    rw [List.foldl_cons,walk,if_pos hs]
    exact ih
  | climbs _ ih =>
    rw [List.foldl_cons,walk,if_neg (by simp),if_pos rfl,List.reverse_concat,List.tail_cons]
    exact ih
  | rests _ ih => exact ih
  | enters hnil hdot hdots _ ih =>
    rw [List.foldl_cons,walk,if_neg (not_or.mpr ⟨hnil,hdot⟩),if_neg hdots]
    rwa [List.reverse_concat] at ih

/-- By induction on the segments: each of them leads somewhere from wherever the ones before have
led. -/
theorem walks_foldl (d ss : List (List Char)) : Walks d ss (ss.foldl walk d.reverse).reverse := by
  induction ss generalizing d with
  | nil =>
    rw [List.foldl_nil,List.reverse_reverse]
    exact .arrives
  | cons s ss ih =>
    rw [List.foldl_cons,walk]
    split
    · exact .stays ‹_› (ih d)
    · rename_i hs
      obtain ⟨hnil,hdot⟩ := not_or.mp hs
      split
      · rename_i hdots
        subst hdots
        obtain rfl | ⟨front,name,rfl⟩ := List.eq_nil_or_concat d
        · exact .rests (ih [])
        · rw [List.concat_eq_append,List.reverse_concat,List.tail_cons]
          exact .climbs (ih front)
      · rename_i hdots
        have hrest := ih (d ++ [s])
        rw [List.reverse_concat] at hrest
        exact .enters hnil hdot hdots hrest

theorem walks_iff : Walks d ss e ↔ e = (ss.foldl walk d.reverse).reverse := by
  constructor
  · intro h
    rw [foldl_walk_of_walks h,List.reverse_reverse]
  · rintro rfl
    exact walks_foldl d ss

end

theorem split_append (p q : List Char) : split (p ++ '/' :: q) = split p ++ split q := by
  induction p with
  | nil => simp [split]
  | cons c p ih =>
    rw [List.cons_append,split,split,ih]
    split
    · rfl
    · cases hp : split p with
      | nil => exact absurd hp (split_ne_nil p)
      | cons s ss => rfl

theorem segments_append (p q : List Char) :
    segments (p ++ '/' :: q) = ((split q).foldl walk (segments p).reverse).reverse := by
  rw [segments,split_append,List.foldl_append,segments,List.reverse_reverse]

theorem normalize_append (p q : String) :
    normalize (p ++ "/" ++ q) = normalize (normalize p ++ "/" ++ q) := by
  have hsegments (r : String) : segments (r ++ "/" ++ q).toList =
      ((split q.toList).foldl walk (segments r.toList).reverse).reverse := by
    rw [← segments_append]
    simp
  rw [normalize,hsegments,normalize,hsegments,segments_normalize]

theorem split_normalize {path : String} (h : normalize path ≠ "") :
    split (normalize path).toList = segments path.toList := by
  rw [toList_normalize]
  refine split_join (fun hnil => h ?_) fun s hs => (isProper_of_mem_segments hs).no_slash
  rw [normalize,hnil]
  rfl

theorem head?_of_split {path s : List Char} {ss : List (List Char)} (h : split path = s :: ss)
    (hs : s ≠ []) : path.head? ≠ some '/' := by
  cases path with
  | nil => simp
  | cons c r =>
    rintro hc
    obtain rfl : c = '/' := by simpa using hc
    rw [split,if_pos rfl] at h
    exact hs (List.cons.inj h).1.symm

theorem getLast?_of_split {path s : List Char} {ss : List (List Char)} (h : split path = ss ++ [s])
    (hs : s ≠ []) : path.getLast? ≠ some '/' := by
  intro hlast
  obtain ⟨front,rfl⟩ := List.getLast?_eq_some_iff.mp hlast
  have hsplit : split front ++ [[]] = ss ++ [s] := by rw [← h,split_append]; rfl
  obtain ⟨_,hempty⟩ := List.append_inj' hsplit rfl
  exact hs (List.singleton_inj.mp hempty).symm

theorem normalize_no_outer_slash (path : String) :
    (normalize path).toList.head? ≠ some '/' ∧ (normalize path).toList.getLast? ≠ some '/' := by
  by_cases h : normalize path = ""
  · simp [h]
  · have hsplit := split_normalize h
    have hproper (s : List Char) (hs : s ∈ split (normalize path).toList) : s ≠ [] :=
      (isProper_of_mem_segments (hsplit ▸ hs)).ne_nil
    obtain ⟨s,ss,hfirst⟩ := List.exists_cons_of_ne_nil (split_ne_nil (normalize path).toList)
    obtain ⟨ss',s',hlast⟩ := List.eq_nil_or_concat (split (normalize path).toList) |>.resolve_left
      (split_ne_nil _)
    rw [List.concat_eq_append] at hlast
    exact ⟨head?_of_split hfirst (hproper s (by simp [hfirst])),
      getLast?_of_split hlast (hproper s' (by simp [hlast]))⟩

theorem directory?_getD (path : List Char) :
    (directory? path).getD [] = join (split path).dropLast := by
  obtain ⟨front,last,hsplit⟩ := List.eq_nil_or_concat (split path) |>.resolve_left (split_ne_nil path)
  rw [List.concat_eq_append] at hsplit
  rw [directory?,hsplit,List.reverse_concat,List.dropLast_concat]
  cases front with
  | nil => rfl
  | cons s ss =>
    cases hreverse : (s :: ss).reverse with
    | nil => simp at hreverse
    | cons t ts => simp [← hreverse]

theorem resolve_of_relative (current : Option String) {path : String}
    (h : path.toList.head? ≠ some '/') :
    resolve current path = normalize (directory current ++ "/" ++ path) := by
  have hroot : normalize path = normalize ("" ++ "/" ++ path) := by simp [normalize,segments,split,walk]
  unfold resolve
  split
  · rename_i rest hpath
    simp [hpath] at h
  · cases current with
    | none => exact hroot
    | some name =>
      have hdirectory := directory?_getD name.toList
      simp only [Option.bind_some,directory,← hdirectory,← normalize_append]
      cases directory? name.toList with
      | none => exact hroot
      | some d => simp [String.append_assoc]

theorem walks_resolve (current : Option String) {path : String} (h : path.toList.head? ≠ some '/')
    {ss : List (List Char)} : Walks (segments (directory current).toList) (split path.toList) ss ↔
      ss = segments (resolve current path).toList := by
  have happend : (directory current ++ "/" ++ path).toList =
      (directory current).toList ++ '/' :: path.toList := by simp
  rw [resolve_of_relative current h,segments_normalize,happend,segments_append,walks_iff]

/-- Where the name of a template ends with a name of a file, its normal form without that is the
directory. -/
theorem segments_directory {name : String} {s : List Char}
    (hlast : (split name.toList).getLast? = some s) (hs : IsProper s) :
    segments (directory (some name)).toList = (segments name.toList).dropLast := by
  obtain ⟨front,hsplit⟩ := List.getLast?_eq_some_iff.mp hlast
  have hslash (t : List Char) (ht : t ∈ front) : '/' ∉ t := by
    have hmem : t ∈ split name.toList := by simp [hsplit,ht]
    exact no_slash_of_mem_split hmem
  have hfront : segments (join front) = (front.foldl walk []).reverse := by
    cases front with
    | nil => rfl
    | cons t ts => rw [segments,split_join (by simp) hslash]
  have hname : segments name.toList = (front.foldl walk []).reverse ++ [s] := by
    rw [segments,hsplit,List.foldl_append,List.foldl_cons,List.foldl_nil,walk_of_isProper _ hs,
      List.reverse_cons]
  rw [directory,segments_normalize,String.toList_ofList,hsplit,List.dropLast_concat,hfront,hname,
    List.dropLast_concat]

/-- Normal forms are their own normal forms and consist of proper names alone, so that nothing leads
above the root. What stands in front of a path counts by its normal form. A path with a slash in
front starts at the root wherever it stands; any other one leads where its segments lead from the
directory of the template, and of the name of the template only that directory counts. Unless the
name ends with the segment of a directory, its normal form is in that directory. -/
theorem resolve_walks_below_root (p q : String) (current : Option String) :
    normalize (normalize p) = normalize p ∧
    (normalize p ≠ "" → ∀ s ∈ split (normalize p).toList, IsProper s) ∧
    (normalize p).toList.head? ≠ some '/' ∧ (normalize p).toList.getLast? ≠ some '/' ∧
    normalize (p ++ "/" ++ q) = normalize (normalize p ++ "/" ++ q) ∧
    resolve current ("/" ++ q) = normalize q ∧
    normalize (resolve current q) = resolve current q ∧
    (q.toList.head? ≠ some '/' →
      (∀ ss, Walks (segments (directory current).toList) (split q.toList) ss ↔
        ss = segments (resolve current q).toList) ∧
      ∀ other, directory other = directory current → resolve other q = resolve current q) ∧
    ∀ name s, current = some name → (split name.toList).getLast? = some s → IsProper s →
      segments (directory current).toList = (segments name.toList).dropLast := by
  have hnames (h : normalize p ≠ "") (s : List Char) (hs : s ∈ split (normalize p).toList) :
      IsProper s := by
    rw [split_normalize h] at hs
    exact isProper_of_mem_segments hs
  have hslash : resolve current ("/" ++ q) = normalize q := by
    have h := resolve_slash current q
    rwa [String.ofList_cons,String.ofList_toList] at h
  obtain ⟨hhead,hlast⟩ := normalize_no_outer_slash p
  refine ⟨normalize_normalize p,hnames,hhead,hlast,normalize_append p q,hslash,
    normalize_resolve current q,fun hq => ⟨fun ss => walks_resolve current hq,?_⟩,?_⟩
  · intro other hother
    rw [resolve_of_relative other hq,resolve_of_relative current hq,hother]
  · rintro name s rfl
    exact segments_directory

/-- More segments lead up than there are directories, and the name of the template is no normal
form. -/
theorem resolve_walks_below_root_of_parents :
    "../../x".toList.head? ≠ some '/' ∧
      Walks (segments (directory (some "a/./b/c")).toList) (split "../../x".toList) ["x".toList] ∧
      resolve (some "a/b/d") "../../x" = resolve (some "a/./b/c") "../../x" := by
  have hrelative : "../../x".toList.head? ≠ some '/' := by decide
  obtain ⟨_,_,_,_,_,_,_,hwalks,_⟩ := resolve_walks_below_root "a" "../../x" (some "a/./b/c")
  obtain ⟨hiff,hother⟩ := hwalks hrelative
  exact ⟨hrelative,(hiff _).mpr (by decide),hother (some "a/b/d") (by decide)⟩

end Stencil.Path
