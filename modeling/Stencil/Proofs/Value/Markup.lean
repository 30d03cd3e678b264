import Stencil.Proofs.Value.Unmarked
import Stencil.Value.Pieces

set_option autoImplicit false

namespace Stencil.Value

mutual

theorem nestedText_unmarked : (v : Value) → v.unmarked.nestedText = v.nestedText
  | .none | .bool _ | .int _ | .float _ | .str _ | .safe _ => rfl
  | .list items => by simp only [unmarked,nestedText,itemsText_unmarked items]
  | .map entries => by simp only [unmarked,nestedText,entriesText_unmarked entries]

theorem itemsText_unmarked : (vs : List Value) → itemsText (unmarkedItems vs) = itemsText vs
  | [] => rfl
  | v :: vs => by
    simp only [unmarkedItems,itemsText,nestedText_unmarked v,moreItemsText_unmarked vs]

theorem moreItemsText_unmarked : (vs : List Value) →
    moreItemsText (unmarkedItems vs) = moreItemsText vs
  | [] => rfl
  | v :: vs => by
    simp only [unmarkedItems,moreItemsText,nestedText_unmarked v,moreItemsText_unmarked vs]

theorem entriesText_unmarked : (es : List (String × Value)) →
    entriesText (unmarkedEntries es) = entriesText es
  | [] => rfl
  | (k,v) :: es => by
    simp only [unmarkedEntries,entriesText,nestedText_unmarked v,moreEntriesText_unmarked es]

theorem moreEntriesText_unmarked : (es : List (String × Value)) →
    moreEntriesText (unmarkedEntries es) = moreEntriesText es
  | [] => rfl
  | (k,v) :: es => by
    simp only [unmarkedEntries,moreEntriesText,nestedText_unmarked v,moreEntriesText_unmarked es]

end

theorem toText_unmarked (v : Value) : v.unmarked.toText = v.toText := by
  cases v with
  | list items => exact nestedText_unmarked (.list items)
  | map entries => exact nestedText_unmarked (.map entries)
  | _ => rfl

theorem escapeHtml_of_inert {s : String} (h : Text.IsInert s.toList) : Text.escapeHtml s = s := by
  rw [Text.escapeHtml,h.flatMap_htmlChar,String.ofList_toList]

/-- Truth values and numbers are written as they are, since none of their characters needs an
entity. -/
theorem toMarkup_eq_escapeHtml {v : Value} (h : ∀ s, v ≠ .safe s) :
    v.toMarkup = Text.escapeHtml v.toText := by
  cases v with
  | none => rfl
  | bool b => exact (escapeHtml_of_inert (isInert_boolText b)).symm
  | int n => exact (escapeHtml_of_inert (isInert_toText_int n)).symm
  | float x => exact (escapeHtml_of_inert (isInert_toText_float x)).symm
  | str s => rfl
  | safe s => exact absurd rfl (h s)
  | list items => rfl
  | map entries => rfl

theorem unmarked_ne_safe (v : Value) (s : String) : v.unmarked ≠ .safe s := by
  cases v <;> simp [unmarked]

/-- A safe text is written as it is. Of any other value its text is written with the three entities,
also where safe texts are in it, and with the entities read as their characters what is written is
the text of the value. The pieces of a text are cut from it between its characters. -/
theorem markup_escapes_text (v : Value) :
    (∀ s, v = .safe s → String.join v.markupPieces = s) ∧
    ((∀ s, v ≠ .safe s) →
      String.join v.markupPieces = Text.escapeHtml v.toText ∧
      String.join v.unmarked.markupPieces = String.join v.markupPieces ∧
      Text.readHtml (String.join v.markupPieces).toList = v.toText.toList) ∧
    ∀ source : String,
      Text.htmlCuts source 0 0 source.toList = some (Text.htmlPieces [] source.toList) := by
  refine ⟨?_,fun h => ?_,Text.htmlCuts_eq⟩
  · rintro s rfl
    simp [markupPieces]
  · have hmarkup : String.join v.markupPieces = Text.escapeHtml v.toText := by
      rw [join_markupPieces,toMarkup_eq_escapeHtml h]
    have hunmarked : String.join v.unmarked.markupPieces = Text.escapeHtml v.toText := by
      rw [join_markupPieces,toMarkup_eq_escapeHtml (unmarked_ne_safe v),toText_unmarked]
    refine ⟨hmarkup,hunmarked.trans hmarkup.symm,?_⟩
    rw [hmarkup,Text.escapeHtml,String.toList_ofList,Text.readHtml_flatMap]

/-- A safe text in a list is written with entities. -/
theorem markup_escapes_text_of_nested :
    let v : Value := .list [.safe "<i>&lt;",.int 2]
    (∀ s, v ≠ .safe s) ∧ String.join v.markupPieces = "[\"&lt;i&gt;&amp;lt;\", 2]" ∧
      Text.readHtml (String.join v.markupPieces).toList = "[\"<i>&lt;\", 2]".toList := by
  intro v
  have hne : ∀ s, v ≠ .safe s := nofun
  obtain ⟨hmarkup,_,hread⟩ := (markup_escapes_text v).2.1 hne
  have htext : v.toText = "[\"<i>&lt;\", 2]" := by decide +kernel
  rw [htext] at hmarkup hread
  refine ⟨hne,?_,hread⟩
  rw [hmarkup]
  decide +kernel

end Stencil.Value
