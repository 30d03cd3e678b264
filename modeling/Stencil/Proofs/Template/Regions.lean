import Stencil.Proofs.Grammar.Tags

set_option autoImplicit false

namespace Stencil

variable {e : Ending} {ts us rest : List Token}

namespace Grammar

inductive Remark : List Token → Prop where
  | empty : Remark []
  | raw {r : Token} {content : String} : r.lexeme = .raw content → Remark [r]

/-- The tokens of a part of a template, and its piece: a raw text, of which nothing may be left, a
comment, an echo or a tag, the last three from delimiter to delimiter. -/
inductive Part : List Token → Option Piece → Prop where
  | text {r : Token} {content : String} : r.lexeme = .raw content → r.span.start ≠ r.span.stop →
      Part [r] (some (.text content r.span))
  | empty {r : Token} {content : String} : r.lexeme = .raw content → r.span.start = r.span.stop →
      Part [r] none
  | comment {o c : Token} {us : List Token} : o.lexeme = .opening .comment → Remark us →
      c.lexeme = .closing .comment → Part (o :: (us ++ [c])) none
  | echo {o c : Token} {us : List Token} {t : Term} : o.lexeme = .opening .expression →
      Whole us t → c.lexeme = .closing .expression →
      Part (o :: (us ++ [c])) (some (.echo t (o.span.cover c.span)))
  | tag {o c : Token} {us : List Token} {tag : Tag} : o.lexeme = .opening .block →
      Spells us tag → c.lexeme = .closing .block →
      Part (o :: (us ++ [c])) (some (.tag tag (o.span.cover c.span)))

/-- The pieces of the parts of a template, one behind the other. -/
inductive Parts : List Token → List Piece → Prop where
  | nil : Parts [] []
  | cons {us ts : List Token} {piece : Option Piece} {ps : List Piece} : Part us piece →
      Parts ts ps → Parts (us ++ ts) (piece.toList ++ ps)

theorem Remark.unclosed (h : Remark us) : Unclosed us := by
  cases h with
  | empty => simp
  | raw hr => simp [hr]

theorem Part.exists_cons {piece : Option Piece} (h : Part us piece) : ∃ o vs, us = o :: vs := by
  cases h <;> exact ⟨_,_,rfl⟩

end Grammar

namespace Piece
open Ending Grammar

def text? : Piece → Option (Located String)
  | .text content s => some ⟨content,s⟩
  | .echo _ _ | .tag _ _ => none

@[simp] theorem filterMap_tag (t : Tag) (s : Span) (ps : List Piece) :
    (Piece.tag t s :: ps).filterMap text? = ps.filterMap text? := rfl

theorem expect_leaves_iff {l : Lexeme} {g : Span × Fewer ts → NoMore us}
    (hg : ∀ r, (g r).1 = r.2.1) : (∃ h, (e.expect l ts).map g = .ok ⟨rest,h⟩) ↔
      ∃ c, ts = c :: rest ∧ c.lexeme = l := by
  simp only [map_eq_ok_iff]
  constructor
  · rintro ⟨_,⟨_,left⟩,hx,heq⟩
    obtain ⟨c,hts,hc,_⟩ := gives_expect.mp (Gives.iff_ok.mpr hx)
    obtain rfl : left.1 = rest := (hg _).symm.trans (congrArg Subtype.val heq)
    exact ⟨c,hts,hc⟩
  · rintro ⟨c,rfl,hc⟩
    obtain ⟨hlt,hx⟩ := gives_expect.mpr ⟨c,rfl,hc,rfl⟩
    have hleft : (g (c.span,⟨rest,hlt⟩)).1 = rest := hg _
    exact ⟨hleft ▸ (g _).2,_,hx,Subtype.ext hleft⟩

theorem readComment_iff : (∃ h, readComment e ts = .ok ⟨rest,h⟩) ↔
    ∃ us c, ts = us ++ c :: rest ∧ Remark us ∧ c.lexeme = .closing .comment := by
  cases ts with
  | nil => simp [readComment]
  | cons t ts =>
    rw [readComment]
    split
    · rename_i content hcontent
      rw [expect_leaves_iff fun _ => rfl]
      constructor
      · rintro ⟨c,rfl,hc⟩
        exact ⟨[t],c,rfl,.raw hcontent,hc⟩
      · rintro ⟨us,c,hts,hus,hc⟩
        cases hus with
        | empty =>
          obtain ⟨rfl,_⟩ := List.cons.inj hts
          cases hcontent.symm.trans hc
        | raw _ =>
          obtain ⟨rfl,rfl⟩ := List.cons.inj hts
          exact ⟨c,rfl,hc⟩
    · rename_i hraw
      rw [expect_leaves_iff fun _ => rfl]
      constructor
      · rintro ⟨c,hts,hc⟩
        exact ⟨[],c,hts,.empty,hc⟩
      · rintro ⟨us,c,hts,hus,hc⟩
        cases hus with
        | empty => exact ⟨c,hts,hc⟩
        | raw hr =>
          obtain ⟨rfl,_⟩ := List.cons.inj hts
          exact absurd hr (hraw _)

/-- A piece is read exactly where its part stands. -/
theorem part_of_read {t : Token} {piece : Option Piece} (h : Gives (read e t ts) piece rest) :
    ∃ us, us ++ rest = t :: ts ∧ Part us piece := by
  unfold read at h
  split at h
  · rename_i content hcontent
    obtain ⟨rfl,rfl⟩ := Gives.ok_iff.mp h
    refine ⟨[t],rfl,?_⟩
    split
    · exact .empty hcontent ‹_›
    · exact .text hcontent ‹_›
  · rename_i hopening
    obtain ⟨_,h⟩ := h
    obtain ⟨r,hr,heq⟩ := map_eq_ok_iff.mp h
    cases heq
    obtain ⟨us,c,rfl,hus,hc⟩ := readComment_iff.mp ⟨_,hr⟩
    exact ⟨t :: (us ++ [c]),by simp,.comment hopening hus hc⟩
  · rename_i hopening
    obtain ⟨term,r₁,_,hterm,h⟩ := Gives.bind_gives_iff.mp h
    obtain ⟨stop,r₂,_,hstop,h⟩ := Gives.bind_gives_iff.mp h
    obtain ⟨rfl,rfl⟩ := Gives.pure_iff.mp h
    obtain ⟨us,rfl,hus⟩ := readList_sound hterm
    obtain ⟨c,rfl,hc,rfl⟩ := gives_expect.mp hstop
    exact ⟨t :: (us ++ [c]),by simp,.echo hopening hus hc⟩
  · rename_i hopening
    obtain ⟨tag,r₁,_,htag,h⟩ := Gives.bind_gives_iff.mp h
    obtain ⟨stop,r₂,_,hstop,h⟩ := Gives.bind_gives_iff.mp h
    obtain ⟨rfl,rfl⟩ := Gives.pure_iff.mp h
    obtain ⟨us,rfl,hus⟩ := readTag_sound htag
    obtain ⟨c,rfl,hc,rfl⟩ := gives_expect.mp hstop
    exact ⟨t :: (us ++ [c]),by simp,.tag hopening hus hc⟩
  · exact absurd h Gives.error_iff

theorem read_of_part {t : Token} {piece : Option Piece} (hpart : Part us piece)
    (hts : us ++ rest = t :: ts) : Gives (read e t ts) piece rest := by
  cases hpart with
  | text hr hne =>
    obtain ⟨rfl,rfl⟩ := List.cons.inj hts
    simp [read,hr,hne]
  | empty hr heq =>
    obtain ⟨rfl,rfl⟩ := List.cons.inj hts
    simp [read,hr,heq]
  | @comment o c us ho hus hc =>
    obtain ⟨rfl,hts⟩ := List.cons.inj hts
    obtain rfl : us ++ c :: rest = ts := by simpa using hts
    obtain ⟨h,hread⟩ := (readComment_iff (e := e)).mpr ⟨us,c,rfl,hus,hc⟩
    exact ⟨h,by simp only [read,ho,hread]; rfl⟩
  | @echo o c us t ho hus hc =>
    obtain ⟨rfl,hts⟩ := List.cons.inj hts
    obtain rfl : us ++ c :: rest = ts := by simpa using hts
    exact (gives_read_echo ho).mpr ⟨t,c,hus.reads ⟨c,rest,rfl,.inl hc⟩,hc,rfl⟩
  | @tag o c us tag ho hus hc =>
    obtain ⟨rfl,hts⟩ := List.cons.inj hts
    obtain rfl : us ++ c :: rest = ts := by simpa using hts
    have hread : Gives (Tag.read e (us ++ c :: rest)) tag (c :: rest) := hus.reads hc
    simp only [read,ho]
    refine hread.bind fun _ => (gives_expect.mpr ⟨c,rfl,hc,rfl⟩).bind fun _ => ?_
    exact Gives.pure_iff.mpr ⟨rfl,rfl⟩

/-- A piece starts with a raw text, or with an opening delimiter, and then it ends with the first
closing delimiter. -/
theorem gives_read {t : Token} {piece : Option Piece} (h : Gives (read e t ts) piece rest) :
    (∃ content, t.lexeme = .raw content ∧ rest = ts ∧
      piece = if t.span.start = t.span.stop then none else some (.text content t.span)) ∨
    ∃ region us c, t.lexeme = .opening region ∧ ts = us ++ c :: rest ∧
      c.lexeme = .closing region ∧ Unclosed us ∧ piece.bind text? = none := by
  obtain ⟨us,hts,hpart⟩ := part_of_read h
  cases hpart with
  | text hr hne =>
    obtain ⟨rfl,rfl⟩ := List.cons.inj hts
    exact .inl ⟨_,hr,rfl,by simp [hne]⟩
  | empty hr heq =>
    obtain ⟨rfl,rfl⟩ := List.cons.inj hts
    exact .inl ⟨_,hr,rfl,by simp [heq]⟩
  | comment ho hus hc | echo ho hus hc | tag ho hus hc =>
    obtain ⟨rfl,rfl⟩ := List.cons.inj hts
    exact .inr ⟨_,_,_,ho,List.append_assoc ..,hc,hus.unclosed,rfl⟩

theorem readAll_eq_iff (he : e.fault = none) {ps : List Piece} :
    readAll e ts = ⟨ps,none⟩ ↔ Parts ts ps := by
  constructor
  · intro h
    fun_induction readAll e ts generalizing ps with
    | case1 =>
      obtain ⟨rfl,_⟩ := Pieces.mk.inj h
      exact .nil
    | case2 => cases h
    | case3 t r piece left hleft hread tail =>
      rename_i ih
      obtain ⟨rfl,hfault⟩ := Pieces.mk.inj h
      obtain ⟨us,hus,hpart⟩ := part_of_read ⟨hleft,hread⟩
      rw [← hus]
      exact .cons hpart (ih (by rw [← hfault]))
  · intro h
    induction h with
    | nil => simp [readAll,he]
    | @cons us ts piece ps hpart _ ih =>
      obtain ⟨o,vs,rfl⟩ := hpart.exists_cons
      obtain ⟨_,hread⟩ : Gives (read e o (vs ++ ts)) piece ts :=
        read_of_part hpart rfl
      rw [List.cons_append,readAll,hread]
      simp only [ih]

end Piece

/-- The raw texts outside of regions, less those that are empty. -/
inductive Outside : List Token → List (Located String) → Prop where
  | nil : Outside [] []
  | raw {t : Token} {content : String} {ts : List Token} {texts : List (Located String)} :
      t.lexeme = .raw content → Outside ts texts →
      Outside (t :: ts)
        ((if t.span.start = t.span.stop then [] else [⟨content,t.span⟩]) ++ texts)
  | region {o c : Token} {region : Region} {us ts : List Token} {texts : List (Located String)} :
      o.lexeme = .opening region → c.lexeme = .closing region → Grammar.Unclosed us →
      Outside ts texts → Outside (o :: (us ++ c :: ts)) texts

theorem Outside.unique {xs ys : List (Located String)} (hx : Outside ts xs) (hy : Outside ts ys) :
    xs = ys := by
  induction hx generalizing ys with
  | nil =>
    cases hy
    rfl
  | raw hcontent _ ih =>
    cases hy with
    | raw hcontent' hrest =>
      obtain rfl := Lexeme.raw.inj (hcontent.symm.trans hcontent')
      rw [ih hrest]
    | region hopening => exact nomatch hcontent.symm.trans hopening
  | @region o c region us ts texts hopening hclosing hus _ ih =>
    generalize htokens : us ++ c :: ts = tokens at hy
    cases hy with
    | raw hcontent => exact nomatch hcontent.symm.trans hopening
    | @region _ c' region' us' ts' _ hopening' hclosing' hus' hrest =>
      obtain rfl := Lexeme.opening.inj (hopening.symm.trans hopening')
      obtain ⟨_,_,rfl⟩ := Grammar.append_closing_inj htokens hclosing hclosing'
        (fun x hx => hus x hx _) (fun x hx => hus' x hx _)
      exact ih hrest

theorem Piece.outside_readAll (h : (readAll e ts).fault = none) :
    Outside ts ((readAll e ts).pieces.filterMap text?) := by
  fun_induction readAll e ts with
  | case1 => exact .nil
  | case2 => cases h
  | case3 t r piece rest hrest hread tail ih =>
    rw [List.filterMap_append]
    obtain ⟨content,hcontent,rfl,rfl⟩ | ⟨region,us,c,hopening,rfl,hclosing,hus,hpiece⟩ :=
      gives_read ⟨hrest,hread⟩
    · have hraw := Outside.raw hcontent (ih h)
      split at hraw <;> simpa [*,text?] using hraw
    · have hnone : piece.toList.filterMap text? = [] := by
        cases piece with
        | none => rfl
        | some p => simpa using hpiece
      rw [hnone,List.nil_append]
      exact .region hopening hclosing hus (ih h)

theorem Piece.fault_of_readAll (h : (readAll e ts).fault = none) : e.fault = none := by
  fun_induction readAll e ts with
  | case1 => exact h
  | case2 => cases h
  | case3 _ _ _ _ _ _ _ ih => exact ih h

end Stencil
