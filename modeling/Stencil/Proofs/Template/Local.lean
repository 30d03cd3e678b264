import Stencil.Proofs.Term.Local
import Stencil.Template.Read

set_option autoImplicit false

namespace Stencil

variable {Met : Fault → Fault → Prop} {e e' : Ending} {rest rest' ts ts' : List Token}

namespace Abreast

theorem name (h : Abreast Met e e' rest rest' ts ts') :
    Alike Met (Abreast Met e e' rest rest') (e.name ts) (e'.name ts') :=
  h.expectWith (by decide) fun _ => rfl

theorem string (h : Abreast Met e e' rest rest' ts ts') :
    Alike Met (Abreast Met e e' rest rest') (e.string ts) (e'.string ts') :=
  h.expectWith (by decide) fun _ => rfl

theorem keyword (k : Keyword) (h : Abreast Met e e' rest rest' ts ts') :
    Alike Met (Abreast Met e e' rest rest') (e.keyword k ts) (e'.keyword k ts') := by
  refine (h.expectWith (by decide) fun _ => rfl).bind fun found _ _ _ _ hr => ?_
  dsimp only
  split
  · exact .ok hr
  · exact .error trivial

end Abreast

namespace Tag

theorem alike_readPath (h : Abreast Met e e' rest rest' ts ts') :
    Alike Met (Abreast Met e e' rest rest') (readPath e ts) (readPath e' ts') :=
  h.string.bind fun _ _ _ _ _ hr => (same_readString _).bind fun _ => .ok hr

theorem alike_readAssignment (wide : Bool) (h : Abreast Met e e' rest rest' ts ts') :
    Alike Met (Abreast Met e e' rest rest') (readAssignment e wide ts)
      (readAssignment e' wide ts') := by
  refine h.name.bind fun _ r₁ _ _ _ hr₁ => ?_
  refine (hr₁.expect (by simp)).bind fun _ r₂ _ _ _ hr₂ => ?_
  cases wide with
  | false => exact (Term.alike_readLevel .or hr₂).bind fun _ _ _ _ _ hr₃ => .ok hr₃
  | true => exact (Term.alike_readList hr₂).bind fun _ _ _ _ _ hr₃ => .ok hr₃

theorem alike_readMoreVars (s : Span) {ts ts' : List Token} (h : Abreast Met e e' rest rest' ts ts') :
    Alike Met (Abreast Met e e' rest rest') (readMoreVars e s ts) (readMoreVars e' s ts') := by
  rw [readMoreVars,readMoreVars]
  refine (h.isNext _).bind fun more => ?_
  split
  · refine (h.expect (by simp)).bind fun _ r₁ _ h₁ _ hr₁ => ?_
    refine hr₁.name.bind fun name r₂ _ h₂ _ hr₂ => ?_
    exact (alike_readMoreVars _ hr₂).bind fun ⟨names,last⟩ _ _ _ _ hr₃ => .ok hr₃
  · exact .ok h
termination_by ts.length

theorem alike_readVars (h : Abreast Met e e' rest rest' ts ts') :
    Alike Met (Abreast Met e e' rest rest') (readVars e ts) (readVars e' ts') := by
  refine h.name.bind fun first r₁ _ _ _ hr₁ => (hr₁.isNext _).bind fun more => ?_
  dsimp only
  split
  · exact (alike_readMoreVars _ hr₁).bind fun _ _ _ _ _ hr₂ => .ok hr₂
  · exact .ok hr₁

theorem alike_readBindings {ts ts' : List Token} (h : Abreast Met e e' rest rest' ts ts') :
    Alike Met (Abreast Met e e' rest rest') (readBindings e ts) (readBindings e' ts') := by
  rw [readBindings,readBindings]
  refine (alike_readAssignment false h).bind fun first r₁ _ h₁ _ hr₁ => ?_
  refine (hr₁.isNext _).bind fun more => ?_
  split
  · refine (hr₁.expect (by simp)).bind fun _ r₂ _ h₂ _ hr₂ => ?_
    exact (alike_readBindings hr₂).bind fun _ _ _ _ _ hr₃ => .ok hr₃
  · exact .ok hr₁
termination_by ts.length

theorem alike_read (h : Abreast Met e e' rest rest' ts ts') :
    Alike Met (Abreast Met e e' rest rest') (read e ts) (read e' ts') := by
  refine h.name.bind fun name r _ _ _ hr => ?_
  dsimp only
  split
  -- a condition
  · exact (Term.alike_readList hr).bind fun _ _ _ _ _ hr₁ => .ok hr₁
  · exact (Term.alike_readList hr).bind fun _ _ _ _ _ hr₁ => .ok hr₁
  · exact .ok hr
  · exact .ok hr
  -- a loop
  · refine (alike_readVars hr).bind fun _ r₁ _ _ _ hr₁ => ?_
    refine (hr₁.keyword _).bind fun _ r₂ _ _ _ hr₂ => ?_
    exact (Term.alike_readList hr₂).bind fun _ _ _ _ _ hr₃ => .ok hr₃
  · exact .ok hr
  -- a binding
  · exact (alike_readAssignment true hr).bind fun _ _ _ _ _ hr₁ => .ok hr₁
  · exact (alike_readAssignment true hr).bind fun _ _ _ _ _ hr₁ => .ok hr₁
  -- an embedded template and a stored text
  · refine (alike_readPath hr).bind fun _ r₁ _ _ _ hr₁ => (hr₁.isNext _).bind fun more => ?_
    dsimp only
    split
    · refine (hr₁.expect (by simp)).bind fun _ r₂ _ _ _ hr₂ => ?_
      exact (alike_readBindings hr₂).bind fun _ _ _ _ _ hr₃ => .ok hr₃
    · exact .ok hr₁
  · exact (alike_readPath hr).bind fun _ _ _ _ _ hr₁ => .ok hr₁
  · exact .error trivial

end Tag

theorem Abreast.close {region : Region} (h : Abreast Met e e' rest rest' ts ts') :
    Alike Met (fun r r' => r = rest ∧ r' = rest') (e.expect (.closing region) ts)
      (e'.expect (.closing region) ts') := by
  have hwanted := (Lexeme.closing region).describe_ne
  unfold Ending.expect
  cases h with
  | @closed c other hc =>
    by_cases hregion : other = region
    · subst hregion
      simp only [Ending.expectWith,hc,if_true]
      exact .ok ⟨rfl,rfl⟩
    · have hne : Lexeme.closing other ≠ .closing region := by simpa using hregion
      simp only [Ending.expectWith,hc,if_neg hne]
      exact .error hwanted
  | cut hf hf' hmet =>
    simp only [Ending.expectWith,Ending.missing,hf,hf']
    exact .cut hmet
  | next ht _ =>
    simp only [Ending.expectWith,if_neg (ht region)]
    exact .error hwanted

theorem Alike.keep_rest {α β : Type} {P P' Q Q' : List Token → Prop}
    {R : List Token → List Token → Prop}
    {x : Except Fault (α × { rest : List Token // P rest })}
    {x' : Except Fault (α × { rest : List Token // P' rest })} (hx : Alike Met R x x')
    {k : α × { rest : List Token // P rest } → { rest : List Token // Q rest }}
    {k' : α × { rest : List Token // P' rest } → { rest : List Token // Q' rest }}
    (hk : ∀ p, (k p).1 = p.2.1) (hk' : ∀ p, (k' p).1 = p.2.1) (b : β) :
    Alike Met R ((x.map k).map (b,·)) ((x'.map k').map (b,·)) := by
  cases hx with
  | @ok a r r' h h' hr =>
    have hrest := hk (a,⟨r,h⟩)
    have hrest' := hk' (a,⟨r',h'⟩)
    simp only [Except.map]
    exact .ok (by rwa [hrest,hrest'])
  | error hstep => exact .error hstep
  | cut hmet => exact .cut hmet

namespace Piece

theorem alike_readComment (h : Abreast Met e e' rest rest' ts ts') :
    Alike Met (fun r r' => r = rest ∧ r' = rest')
      ((readComment e ts).map ((none : Option Piece),·)) ((readComment e' ts').map (none,·)) := by
  have hclose : Alike Met (fun r r' => r = rest ∧ r' = rest') (e.expect (.closing .comment) ts)
    (e'.expect (.closing .comment) ts') := h.close
  cases h with
  | closed hc =>
    simp only [readComment,hc]
    exact hclose.keep_rest (fun _ => by rfl) (fun _ => by rfl) none
  | cut hf hf' hmet =>
    simp only [readComment,Ending.missing,hf,hf']
    exact .cut hmet
  | next ht hrest =>
    simp only [readComment]
    split
    · exact hrest.close.keep_rest (fun _ => by rfl) (fun _ => by rfl) none
    · exact hclose.keep_rest (fun _ => by rfl) (fun _ => by rfl) none

/-- Two readings of one piece end alike, and what they leave stands behind its region. -/
theorem alike_read {o : Token} {region : Region} (ho : o.lexeme = .opening region)
    (h : Abreast Met e e' rest rest' ts ts') :
    Alike Met (fun r r' => r = rest ∧ r' = rest') (read e o ts) (read e' o ts') := by
  unfold read
  cases region with
  | expression =>
    simp only [ho]
    refine (Term.alike_readList h).bind fun _ _ _ _ _ hr => ?_
    exact hr.close.bind fun _ _ _ _ _ hr' => .ok hr'
  | block =>
    simp only [ho]
    refine (Tag.alike_read h).bind fun _ _ _ _ _ hr => ?_
    exact hr.close.bind fun _ _ _ _ _ hr' => .ok hr'
  | comment =>
    simp only [ho]
    exact alike_readComment h

end Piece

end Stencil
