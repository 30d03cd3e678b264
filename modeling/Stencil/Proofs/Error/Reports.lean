import Stencil.Proofs.Error.Lines
import Stencil.Proofs.Outcome
import Stencil.Template.Document
import Stencil.Text.Identifier
import Stencil.Text.Width

set_option autoImplicit false

namespace Stencil

namespace Excerpt
open Text Display

variable {p : Place}

theorem layout_eq (name : Option String) (message : String) (number column carets : Nat)
    (code : List Char) : ∃ top margin gutter, margin.length = gutter.length ∧
      layout name message number column carets code = top ++ "\n" ++ margin ++ String.ofList code ++
        "\n" ++ gutter ++ blanks column ++ String.ofList (List.replicate carets '^') ++ " " ++
        message ++ "\n" := by
  have hfeed : "\n " = "\n" ++ " " := rfl
  have hbar : " |\n " = " |" ++ ("\n" ++ " ") := rfl
  unfold layout
  extract_lets digits pad header
  refine ⟨header ++ "\n " ++ pad ++ " |"," " ++ digits ++ " | "," " ++ pad ++ " | ",?_,?_⟩
  · simp [pad,blanks]
  · clear_value header pad digits
    simp only [hfeed,hbar,String.append_assoc]

theorem exists_shown {text rest : List Char} (l : p.Line) (h : l.right ++ l.rest = text ++ rest) :
    ∃ shown below after, text = shown ++ below ∧ l.right = shown ++ after ∧
      (below = [] ∨ after = [] ∧ below.head? = some '\n') := by
  obtain ⟨below,rfl,hrest⟩ | ⟨after,hright,_⟩ := List.append_eq_append_iff.mp h
  · refine ⟨l.right,below,[],rfl,by simp,?_⟩
    cases below with
    | nil => exact .inl rfl
    | cons c below =>
      have hfeed := l.rest_eq
      rw [hrest] at hfeed
      exact .inr ⟨rfl,hfeed.resolve_left (List.cons_ne_nil _ _)⟩
  · exact ⟨text,[],after,by simp,hright,.inl rfl⟩

section
variable [Display]

/-- An excerpt shows the line of its place, and the underline starts behind what is on the line in
front of the place. -/
theorem toText_eq_layout (l : p.Line) (h : ¬p.IsBehindLastLine) (name : Option String)
    (message : String) : toText p name message =
      layout name message l.number (width l.left) (underline p) l.text := by
  obtain ⟨hposition,hcode⟩ := position_eq l h
  simp only [toText,hposition,hcode]
  rfl

/-- A report underlines a text on the line on which it begins, what is shown of it there and what is
below. As far from the margin as the line in front of the text has columns, there stand as many carets
as the text has, and always one. Where what is below takes no more columns, the underline goes no
further than the line, but for that one caret, if the parts of the line take together what each takes
by itself; those of a loose line do. -/
structure Underlines (l : p.Line) (shown below after : List Char) (message report : String) :
    Prop where
  text : slice? p.source.toList p.span = some (shown ++ below)
  line : l.right = shown ++ after
  goesOn : below = [] ∨ after = [] ∧ below.head? = some '\n'
  carets : ∃ top margin gutter, margin.length = gutter.length ∧
    report = top ++ "\n" ++ margin ++ String.ofList l.text ++ "\n" ++ gutter ++
      blanks (width l.left) ++ String.ofList (List.replicate (max 1 (width (shown ++ below))) '^') ++
      " " ++ message ++ "\n"
  inside : width (shown ++ below) ≤ width shown →
    width l.text = width l.left + width shown + width after →
    width l.left + max 1 (width (shown ++ below)) ≤ max (width l.text) (width l.left + 1)
  loose : Loose l.text → width l.text = width l.left + width shown + width after

/-- Wherever there is something in a span, it is underlined on the line on which it begins. -/
theorem toText_underlines (h : p.span.Proper p.source) (name : Option String) (message : String) :
    ∃ (l : p.Line) (shown below after : List Char), shown ++ below ≠ [] ∧
      Underlines l shown below after message (toText p name message) := by
  obtain ⟨l⟩ := p.exists_line h.start
  obtain ⟨text,rest,hne,hstands,hstop⟩ := h.exists_text
  obtain ⟨shown,below,after,rfl,hright,hbelow⟩ := exists_shown l (l.stands.unique hstands)
  have hslice : slice? p.source.toList p.span = some (shown ++ below) := by
    rw [← hstands.slice?,← hstop]
  have hunderline : underline p = max 1 (width (shown ++ below)) := by
    rw [underline,hslice]
    rfl
  have hbehind : ¬p.IsBehindLastLine := fun hbehind => by
    have hle := le_of_isBoundary h.stop
    have hlt := h.lt
    rw [hbehind.2] at hlt
    omega
  refine ⟨l,shown,below,after,hne,hslice,hright,hbelow,?_,fun hcolumns hwidth => by omega,
    fun hloose => ?_⟩
  · rw [toText_eq_layout l hbehind,hunderline]
    exact layout_eq _ _ _ _ _ _
  · rw [Place.Line.text,hright] at hloose ⊢
    rw [hloose.width_append,hloose.right.width_append,Nat.add_assoc]

end

theorem toText_underlines_second_line :
    let p : Place := ⟨"lorem\n\x7b\x7b ipsum.dolor \x7d\x7d",⟨9,20⟩⟩
    p.span.Proper p.source ∧ ∃ (l : p.Line) (shown below after : List Char),
      shown ++ below ≠ [] ∧ Underlines l shown below after "m" (toText p none "m") := by
  intro p
  have hstands : Stands p.source 9 ("ipsum.dolor".toList ++ " \x7d\x7d".toList) :=
    ⟨"lorem\n\x7b\x7b ".toList,by decide,by decide⟩
  have hproper : p.span.Proper p.source := Span.proper_of_stands hstands (by decide)
  exact ⟨hproper,toText_underlines hproper none "m"⟩

/-- A text that goes on below its line is underlined past the end of the line. -/
theorem underline_extends_past_line :
    let p : Place := ⟨"1 -\n'a'",⟨0,7⟩⟩
    p.span.Proper p.source ∧ width "1 -".toList = 3 ∧
      toText p none "m" = "\n   |\n 1 | 1 -\n   | ^^^^^^ m\n" := by
  intro p
  have hstands : Stands p.source 0 ("1 -\n'a'".toList ++ []) := ⟨[],by decide,rfl⟩
  have hproper : p.span.Proper p.source := Span.proper_of_stands hstands (by decide)
  exact ⟨hproper,by decide +kernel,by decide +kernel⟩

end Excerpt

namespace Error
open Text Display

section
variable [Display] {e : Error} {p : Place}

end

end Error

end Stencil
