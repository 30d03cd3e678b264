import Stencil.Cause
import Stencil.Value.Import

/-!
Structured data and the values it stands for.

Data may be brought in from any program: besides numbers, texts and sequences it knows options,
records and variants. A variant with contents becomes a map with one entry. A map may be given as
its keys and values one after the other, and its keys may be anything that has a text.
-/

set_option autoImplicit false

namespace Stencil

inductive Slot where
  | key | value
  deriving DecidableEq, Repr

inductive Data where
  | bool (b : Bool)
  /-- an integer of at most 64 bits -/
  | integer (n : Int)
  /-- an integer of 128 bits -/
  | wide (signed : Bool) (n : Int)
  | float (x : Binary64)
  | char (c : Char)
  | str (s : String)
  | bytes (bs : List UInt8)
  | absent
  | present (d : Data)
  | unit
  | unitVariant (name : String)
  /-- data under another name -/
  | wrapped (d : Data)
  | variant (name : String) (d : Data)
  | seq (items : List Data)
  | tupleVariant (name : String) (items : List Data)
  | map (parts : List (Slot × Data))
  | record (fields : List (String × Data))
  | recordVariant (name : String) (fields : List (String × Data))
  /-- data that cannot be given -/
  | failing (message : String)

namespace Data

def toKey : Data → Except Cause String
  | .bool b => .ok (if b then "true" else "false")
  | .integer n => .ok (Integer.textOfInt n)
  | .wide signed _ => .error (.unsupported (if signed then "i128" else "u128"))
  | .float _ => .error (.keyKind "float")
  | .char c => .ok (String.singleton c)
  | .str s => .ok s
  | .bytes _ => .error (.keyKind "bytes")
  | .absent => .error (.keyKind "none")
  | .present d => d.toKey
  | .unit => .error (.keyKind "unit")
  | .unitVariant name => .ok name
  | .wrapped d => d.toKey
  | .variant _ _ | .tupleVariant _ _ | .recordVariant _ _ => .error (.keyKind "enum variant")
  | .seq _ => .error (.keyKind "sequence")
  | .map _ | .record _ => .error (.keyKind "map")
  | .failing message => .error (.data message)

def tagged (name : String) (v : Value) : Value := .map [(name,v)]

mutual

def toValue : Data → Except Cause Value
  | .bool b => .ok (.bool b)
  | .integer n => .ok (Value.ofInt n)
  | .wide _ n => .ok (Value.ofInt n)
  | .float x => .ok (.float x)
  | .char c => .ok (.str (String.singleton c))
  | .str s => .ok (.str s)
  | .bytes bs => .ok (.list (bs.map fun b => .int (Int64.ofNat b.toNat)))
  | .absent => .ok .none
  | .present d => d.toValue
  | .unit => .ok .none
  | .unitVariant name => .ok (.str name)
  | .wrapped d => d.toValue
  | .variant name d => d.toValue.map (tagged name)
  | .seq items => (listToValues items).map .list
  | .tupleVariant name items => (listToValues items).map fun vs => tagged name (.list vs)
  | .map parts => (partsToEntries none [] parts).map .map
  | .record fields => (fieldsToEntries [] fields).map .map
  | .recordVariant name fields =>
    (fieldsToEntries [] fields).map fun es => tagged name (.map es)
  | .failing message => .error (.data message)

def listToValues : List Data → Except Cause (List Value)
  | [] => .ok []
  | d :: ds => do
    let v ← d.toValue
    let vs ← listToValues ds
    return v :: vs

/-- The entries of a map, put into those that are there. A key waits for its value. -/
def partsToEntries (waiting : Option String) (entries : List (String × Value)) :
    List (Slot × Data) → Except Cause (List (String × Value))
  | [] => .ok entries
  | (.key,d) :: parts => do
    let key ← d.toKey
    partsToEntries (some key) entries parts
  | (.value,d) :: parts =>
    match waiting with
    | none => .error .valueBeforeKey
    | some key => do
      let v ← d.toValue
      partsToEntries none (Table.insert key v entries) parts

def fieldsToEntries (entries : List (String × Value)) :
    List (String × Data) → Except Cause (List (String × Value))
  | [] => .ok entries
  | (name,d) :: fields => do
    let v ← d.toValue
    fieldsToEntries (Table.insert name v entries) fields

end

end Data

namespace Value

mutual

/-- A value as data. A safe text is not told from another one. -/
def toData : Value → Data
  | .none => .unit
  | .bool b => .bool b
  | .int n => .integer n.toInt
  | .float x => .float x
  | .str s | .safe s => .str s
  | .list items => .seq (listToData items)
  | .map entries => .map (entriesToParts entries)

def listToData : List Value → List Data
  | [] => []
  | v :: vs => v.toData :: listToData vs

def entriesToParts : List (String × Value) → List (Slot × Data)
  | [] => []
  | (k,v) :: es => (.key,.str k) :: (.value,v.toData) :: entriesToParts es

end

end Value

end Stencil
