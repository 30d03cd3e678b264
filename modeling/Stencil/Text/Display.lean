/-!
How texts are shown: how many columns they take.

The tables of widths are not part of the language. Errors are shown on any display; of its widths
only this is asked, that characters which take one column each and are not joined add up.
-/

set_option autoImplicit false

namespace Stencil.Text

/-- What is known of single characters: the columns that one takes, and whether two may take others
next to each other than apart. -/
class Glyphs where
  columns : Char → Nat
  joins : Char → Char → Bool

/-- A text of characters that take one column each, none of them joined to the next. -/
structure Loose [Glyphs] (cs : List Char) : Prop where
  single : ∀ c ∈ cs, Glyphs.columns c = 1
  unjoined : ∀ c d, [c,d] <:+: cs → Glyphs.joins c d = false

class Display extends Glyphs where
  width : List Char → Nat
  width_nil : width [] = 0
  width_cons {c : Char} {cs : List Char} : Loose (c :: cs) → width (c :: cs) = width cs + 1

@[reducible] def Display.plain : Display where
  columns _ := 1
  joins _ _ := false
  width := List.length
  width_nil := rfl
  width_cons _ := rfl

variable {c : Char} {cs ds : List Char}

section
variable [Glyphs]

theorem Loose.of_isInfix (h : Loose ds) (hcs : cs <:+: ds) : Loose cs :=
  ⟨fun c hc => h.single c (hcs.subset hc),fun c d hcd => h.unjoined c d (hcd.trans hcs)⟩

theorem Loose.tail (h : Loose (c :: cs)) : Loose cs :=
  h.of_isInfix (List.suffix_cons c cs).isInfix

theorem Loose.left (h : Loose (cs ++ ds)) : Loose cs :=
  h.of_isInfix (List.prefix_append cs ds).isInfix

theorem Loose.right (h : Loose (cs ++ ds)) : Loose ds :=
  h.of_isInfix (List.suffix_append cs ds).isInfix

end

variable [Display]

theorem Loose.width_eq (h : Loose cs) : Display.width cs = cs.length := by
  induction cs with
  | nil => exact Display.width_nil
  | cons c cs ih => rw [Display.width_cons h,ih h.tail,List.length_cons]

/-- The parts of a loose text take together what each takes by itself. -/
theorem Loose.width_append (h : Loose (cs ++ ds)) :
    Display.width (cs ++ ds) = Display.width cs + Display.width ds := by
  rw [h.width_eq,h.left.width_eq,h.right.width_eq,List.length_append]

end Stencil.Text
