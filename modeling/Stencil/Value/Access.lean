import Stencil.Number.Progression
import Stencil.Table
import Stencil.Text.Search
import Stencil.Value.Equality

set_option autoImplicit false

namespace Stencil.Value

def contains (haystack needle : Value) : Except Cause Bool :=
  match haystack with
  | .str s | .safe s =>
    match needle.asText? with
    | some t => .ok (Text.occursIn t.toList s.toList)
    | Option.none => .error (.expectedStringLeftOfIn needle.kind)
  | .list items => .ok (items.any fun v => v.isEqual needle)
  | .map entries =>
    match needle.asText? with
    | some k => .ok (Table.contains entries k)
    | Option.none => .ok false
  | .none => .ok false
  | v => .error (.noMembership v.kind)

def iterate : Value → Except Cause (List Value)
  | .none => .ok []
  | .list items => .ok items
  | .map entries => .ok (entries.map fun e => .str e.1)
  | v => .error (.notIterable v.kind)

/-- The position of an index, which counts from the end where it is negative. -/
def position (length : Nat) (i : Int64) : Except Cause (Fin length) :=
  let j := if i.toInt < 0 then i.toInt + length else i.toInt
  if h : 0 ≤ j ∧ j < length then .ok ⟨j.toNat,by omega⟩ else .error (.indexOutOfRange length i)

def element {α : Type} (container : Kind) (elements : List α) (key : Value) : Except Cause α :=
  match key with
  | .int i => (position elements.length i).map fun p => elements[p]
  | k => .error (.badIndex container k.kind)

def entry (entries : List (String × Value)) (key : String) : Except Cause Value :=
  match Table.get? entries key with
  | some v => .ok v
  | Option.none => .error (.missingKey key)

/-- What is at a key of a map, or at an index of a list or a text. An integer is a key by its
text. -/
def index (container key : Value) : Except Cause Value :=
  match container with
  | .map entries =>
    match key with
    | .str k | .safe k => entry entries k
    | .int i => entry entries (Integer.toText i)
    | k => .error (.badMapKey k.kind)
  | .list items => element .list items key
  | .str s => (element .string s.toList key).map fun c => .str (String.singleton c)
  | .safe s => (element .safe s.toList key).map fun c => .str (String.singleton c)
  | v => .error (.notIndexable v.kind)

/-- The least and the greatest place of a bound in a sequence of `length` elements. -/
def sliceEnds (length step : Int64) : Int64 × Int64 :=
  if step < 0 then (-1,length - 1) else (0,length)

/-- The place of a bound: a negative one counts from the end, and one outside is moved to the
nearest place. -/
def slicePlace (length : Int64) (ends : Int64 × Int64) (bound : Int64) : Int64 :=
  if bound < 0 then max (Integer.saturatingAdd bound length) ends.1 else min bound ends.2

/-- The positions that bounds and a step select in a sequence of `length` elements. An absent bound
is the first or last place in the direction of the step. -/
def slicePositions (length : Nat) (start stop step : Option Int64) :
    Except Cause (List Int64) :=
  let length := Int64.ofNat length
  let step := step.getD 1
  if step = 0 then .error .zeroSliceStep
  else
    let ends := sliceEnds length step
    let place := slicePlace length ends
    let first := (start.map place).getD (if step < 0 then ends.2 else ends.1)
    let last := (stop.map place).getD (if step < 0 then ends.1 else ends.2)
    .ok (Integer.progression last step first)

def sliceElements {α : Type} (elements : List α) (start stop step : Option Int64) :
    Except Cause (List α) :=
  (slicePositions elements.length start stop step).map fun positions =>
    positions.filterMap fun i => elements[i.toInt.toNat]?

def slice (container : Value) (start stop step : Option Int64) : Except Cause Value :=
  match container with
  | .list items => (sliceElements items start stop step).map .list
  | .str s | .safe s =>
    (sliceElements s.toList start stop step).map fun cs => .str (String.ofList cs)
  | v => .error (.notSliceable v.kind)

end Stencil.Value
