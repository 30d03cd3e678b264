/-!
Sinks: what a rendered text is written to.

A sink has a state. Writing a text and flushing change it, and either may fail with a message; what
the sink took before it failed stays in the state. Rendering learns of a failure, but not its
message, which is kept beside the state until rendering has stopped.
-/

set_option autoImplicit false

namespace Stencil

structure Sink (σ : Type) where
  write : String → σ → σ × Except String Unit
  flush : σ → σ × Except String Unit

/-- The state of a sink, and the message with which it failed, if it did. -/
structure Kept (σ : Type) where
  state : σ
  failure : Option String

namespace Sink

def keeping {σ : Type} (sink : Sink σ) : Sink (Kept σ) where
  write s kept :=
    match sink.write s kept.state with
    | (state,.ok ()) => ({ kept with state },.ok ())
    | (state,.error m) => (⟨state,some m⟩,.error m)
  flush kept :=
    let (state,r) := sink.flush kept.state
    ({ kept with state },r)

def text : Sink String where
  write s written := (written ++ s,.ok ())
  flush written := (written,.ok ())

def room (limit : Option Nat) (taken size : Nat) : Nat :=
  match limit with
  | some n => min size (n - taken)
  | none => size

/-- A sink of bytes that may have a limit. A text that goes beyond it is taken in part, and writing
it fails with the message `full`. Flushing ends as `flushed` says. -/
def bytes (limit : Option Nat) (full : String) (flushed : Except String Unit) : Sink ByteArray where
  write s taken :=
    let bs := s.toUTF8
    let n := room limit taken.size bs.size
    (taken ++ bs.extract 0 n,if n = bs.size then .ok () else .error full)
  flush taken := (taken,flushed)

end Sink

end Stencil
