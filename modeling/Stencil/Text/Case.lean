import Stencil.Text.CodePoints
import Stencil.Text.CaseTable

/-!
Upper and lower case of texts. One character may turn into several, and a capital sigma that ends a
word has a lower case of its own.
-/

set_option autoImplicit false

namespace Stencil.Text

/-- A case map: runs of single characters, and characters that turn into several. -/
structure CaseMap where
  runs : List (Nat × Nat × Nat × Nat)
  expansions : List (Nat × List Nat)

namespace CaseMap

def apply (m : CaseMap) (c : Char) : List Char :=
  let n := c.toNat
  match m.runs.find? fun (a,b,step,_) => a ≤ n && n ≤ b && (n - a) % step == 0 with
  | some (a,_,_,target) => [Char.ofNat (target + (n - a))]
  | none =>
    match m.expansions.find? fun (a,_) => a == n with
    | some (_,ns) => ns.map Char.ofNat
    | none => [c]

end CaseMap

def lowerMap : CaseMap := ⟨lowerPairs,lowerExpansions⟩

def upperMap : CaseMap := ⟨upperPairs,upperExpansions⟩

def cased : CodePoints := ⟨casedTable⟩

def caseIgnorable : CodePoints := ⟨caseIgnorableTable⟩

def isCased (c : Char) : Bool := if c.toNat < 0x80 then c.isAlpha else cased.contains c

def lowerChar (c : Char) : List Char :=
  if c.toNat < 0x80 then [c.toLower] else lowerMap.apply c

def upperChar (c : Char) : List Char :=
  if c.toNat < 0x80 then [c.toUpper] else upperMap.apply c

/-- Whether the first character that is not ignored has a case. -/
def meetsCased (cs : List Char) : Bool :=
  match cs.dropWhile caseIgnorable.contains with
  | c :: _ => isCased c
  | [] => false

/-- The lower case of `cs`, where `before` stands in front of it, nearest character first. -/
def lowerAfter (before : List Char) : List Char → List Char
  | [] => []
  | c :: r =>
    let lower :=
      if c = 'Σ' then (if meetsCased before && !meetsCased r then ['ς'] else ['σ'])
      else lowerChar c
    lower ++ lowerAfter (c :: before) r

def lower (cs : List Char) : List Char := lowerAfter [] cs

def upper (cs : List Char) : List Char := cs.flatMap upperChar

def capitalize : List Char → List Char
  | [] => []
  | c :: r => upperChar c ++ r

end Stencil.Text
