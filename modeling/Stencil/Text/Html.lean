set_option autoImplicit false

namespace Stencil.Text

def htmlChar (c : Char) : List Char :=
  if c = '&' then "&amp;".toList
  else if c = '<' then "&lt;".toList
  else if c = '>' then "&gt;".toList
  else [c]

/-- The pieces in which a text is written with its ampersands and angle brackets as entities: what
stands between two of them, and each entity. `run` is what stands in front, from its end. -/
def htmlPieces (run : List Char) : List Char → List String
  | [] => [String.ofList run.reverse]
  | c :: r =>
    if htmlChar c = [c] then htmlPieces (c :: run) r
    else String.ofList run.reverse :: String.ofList (htmlChar c) :: htmlPieces [] r

def escapeHtml (s : String) : String := String.ofList (s.toList.flatMap htmlChar)

theorem join_htmlPieces (run cs : List Char) :
    String.join (htmlPieces run cs) = String.ofList (run.reverse ++ cs.flatMap htmlChar) := by
  induction cs generalizing run with
  | nil => simp [htmlPieces]
  | cons c r ih =>
    rw [htmlPieces]
    split
    · rename_i h
      simp [ih,h]
    · simp [ih]

end Stencil.Text
