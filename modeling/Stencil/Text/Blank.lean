set_option autoImplicit false

namespace Stencil.Text

/-- The characters with the Unicode property White_Space. -/
def isBlank (c : Char) : Bool :=
  let n := c.toNat
  (0x9 ≤ n && n ≤ 0xD) || n == 0x20 || n == 0x85 || n == 0xA0 || n == 0x1680
    || (0x2000 ≤ n && n ≤ 0x200A) || n == 0x2028 || n == 0x2029 || n == 0x202F
    || n == 0x205F || n == 0x3000

def trimStart (cs : List Char) : List Char := cs.dropWhile isBlank

def trimEnd : List Char → List Char
  | [] => []
  | c :: r =>
    match trimEnd r with
    | [] => if isBlank c then [] else [c]
    | kept => c :: kept

def trim (cs : List Char) : List Char := trimEnd (trimStart cs)

def words (cs : List Char) : List (List Char) :=
  match cs.foldr step ([],[]) with
  | ([],ws) => ws
  | (w,ws) => w :: ws
where
  step (c : Char) : List Char × List (List Char) → List Char × List (List Char)
    | (w,ws) =>
      if isBlank c then (if w.isEmpty then ([],ws) else ([],w :: ws)) else (c :: w,ws)

end Stencil.Text
