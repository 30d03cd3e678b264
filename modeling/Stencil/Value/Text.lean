import Stencil.Number.Integer
import Stencil.Number.Shortest
import Stencil.Text.Html
import Stencil.Text.Quoted
import Stencil.Value.Basic

/-!
How values are shown.

By itself a text is shown as it is and nothing as an empty text. Inside a list or a map a text is
quoted and nothing is `null`. In markup a value is shown with entities, unless it is safe.
-/

set_option autoImplicit false

namespace Stencil.Value

def boolText (b : Bool) : String := if b then "true" else "false"

mutual

def nestedText : Value → String
  | .none => "null"
  | .bool b => boolText b
  | .int n => Integer.toText n
  | .float x => x.toText
  | .str s => Text.quote s
  | .safe s => Text.quote s
  | .list items => "[" ++ itemsText items ++ "]"
  | .map entries => "\x7b" ++ entriesText entries ++ "\x7d"

def itemsText : List Value → String
  | [] => ""
  | v :: vs => v.nestedText ++ moreItemsText vs

def moreItemsText : List Value → String
  | [] => ""
  | v :: vs => ", " ++ v.nestedText ++ moreItemsText vs

def entriesText : List (String × Value) → String
  | [] => ""
  | (k,v) :: es => k ++ ": " ++ v.nestedText ++ moreEntriesText es

def moreEntriesText : List (String × Value) → String
  | [] => ""
  | (k,v) :: es => ", " ++ k ++ ": " ++ v.nestedText ++ moreEntriesText es

end

def toText : Value → String
  | .none => ""
  | .str s | .safe s => s
  | v => v.nestedText

def toMarkup : Value → String
  | .none => ""
  | .safe s => s
  | .str s => Text.escapeHtml s
  | .bool b => boolText b
  | .int n => Integer.toText n
  | .float x => x.toText
  | v => Text.escapeHtml v.toText

end Stencil.Value
