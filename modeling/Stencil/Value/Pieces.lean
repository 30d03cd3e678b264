import Stencil.Value.Text

set_option autoImplicit false

namespace Stencil.Value

def quotedPieces (s : String) : List String :=
  "\"" :: (s.toList.map (fun c => String.ofList (Text.quoteChar c)) ++ ["\""])

mutual

def nestedPieces : Value → List String
  | .none => ["null"]
  | .bool b => [boolText b]
  | .int n => [Integer.toText n]
  | .float x => [x.toText]
  | .str s => quotedPieces s
  | .safe s => quotedPieces s
  | .list items => "[" :: (itemsPieces items ++ ["]"])
  | .map entries => "\x7b" :: (entriesPieces entries ++ ["\x7d"])

def itemsPieces : List Value → List String
  | [] => []
  | v :: vs => v.nestedPieces ++ moreItemsPieces vs

def moreItemsPieces : List Value → List String
  | [] => []
  | v :: vs => ", " :: (v.nestedPieces ++ moreItemsPieces vs)

def entriesPieces : List (String × Value) → List String
  | [] => []
  | (k,v) :: es => k :: ": " :: (v.nestedPieces ++ moreEntriesPieces es)

def moreEntriesPieces : List (String × Value) → List String
  | [] => []
  | (k,v) :: es => ", " :: k :: ": " :: (v.nestedPieces ++ moreEntriesPieces es)

end

def textPieces : Value → List String
  | .none => []
  | .str s | .safe s => [s]
  | v => v.nestedPieces

def markupPieces : Value → List String
  | .none => []
  | .safe s => [s]
  | .str s => Text.htmlPieces [] s.toList
  | .bool b => [boolText b]
  | .int n => [Integer.toText n]
  | .float x => [x.toText]
  | v => Text.htmlPieces [] v.toText.toList

theorem join_quotedPieces (s : String) : String.join (quotedPieces s) = Text.quote s := by
  apply String.toList_injective
  simp [quotedPieces,Text.quote,List.flatMap_map]

mutual

theorem join_nestedPieces : (v : Value) → String.join v.nestedPieces = v.nestedText
  | .none | .bool _ | .int _ | .float _ => by simp [nestedPieces,nestedText]
  | .str s | .safe s => by simp [nestedPieces,nestedText,join_quotedPieces]
  | .list items => by
    simp [nestedPieces,nestedText,join_itemsPieces items,String.append_assoc]
  | .map entries => by
    simp [nestedPieces,nestedText,join_entriesPieces entries,String.append_assoc]

theorem join_itemsPieces : (vs : List Value) → String.join (itemsPieces vs) = itemsText vs
  | [] => rfl
  | v :: vs => by simp [itemsPieces,itemsText,join_nestedPieces v,join_moreItemsPieces vs]

theorem join_moreItemsPieces : (vs : List Value) →
    String.join (moreItemsPieces vs) = moreItemsText vs
  | [] => rfl
  | v :: vs => by
    simp [moreItemsPieces,moreItemsText,join_nestedPieces v,join_moreItemsPieces vs,
      String.append_assoc]

theorem join_entriesPieces : (es : List (String × Value)) →
    String.join (entriesPieces es) = entriesText es
  | [] => rfl
  | (k,v) :: es => by
    simp [entriesPieces,entriesText,join_nestedPieces v,join_moreEntriesPieces es,
      String.append_assoc]

theorem join_moreEntriesPieces : (es : List (String × Value)) →
    String.join (moreEntriesPieces es) = moreEntriesText es
  | [] => rfl
  | (k,v) :: es => by
    simp [moreEntriesPieces,moreEntriesText,join_nestedPieces v,join_moreEntriesPieces es,
      String.append_assoc]

end

theorem join_textPieces (v : Value) : String.join v.textPieces = v.toText := by
  cases v <;> simp [textPieces,toText,join_nestedPieces]

theorem join_markupPieces (v : Value) : String.join v.markupPieces = v.toMarkup := by
  cases v <;> simp [markupPieces,toMarkup,Text.join_htmlPieces,Text.escapeHtml]

end Stencil.Value
