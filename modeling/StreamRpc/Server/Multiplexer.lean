import StreamRpc.Stream.Source
import StreamRpc.Stream.Tracker

/-! # Numbering streams

A multiplexer gives numbers to the streams of a server.  Exposing a value gives a number to every
source in it and makes the streams active for the client the value is meant for; the subscriptions
that come back are either started, once the client has been sent the message that introduces the
streams, or abandoned.

* `Multiplexer.isActive_subscribe`   a new stream is active
-/

namespace StreamRpc

/-- A stream that is active and that its client may not know yet. -/
structure Subscription where
  id : StreamId
  source : SourceRef
  /-- Goes off when the stream is retired. -/
  signal : SignalId
  deriving DecidableEq, Repr, Inhabited

/-- The streams of a server. -/
structure Multiplexer where
  tracker : Tracker := {}
  /-- How many streams have been given a number. -/
  numbered : Nat := 0

namespace Multiplexer

/-- The number of the next stream. -/
def nextId (m : Multiplexer) : StreamId :=
  ⟨UInt64.ofNat m.numbered⟩

/-- Gives a number to a source and makes the stream active for a client. -/
def subscribe (m : Multiplexer) (client : String) (source : SourceRef) :
    Subscription × Multiplexer :=
  let (signal, tracker) := m.tracker.register m.nextId client
  ({ id := m.nextId, source, signal }, { tracker, numbered := m.numbered + 1 })

/-- Gives a number to a source, and adds its subscription to those so far. -/
def exposeSlot (client : String) (source : SourceRef) :
    StateM (Multiplexer × List Subscription) StreamId :=
  fun (m, subs) =>
    let (sub, m) := m.subscribe client source
    (sub.id, m, subs ++ [sub])

/-- Gives a number to every source in a value, depth first. -/
def expose (m : Multiplexer) (client : String) (v : ServerValue) :
    WireValue × List Subscription × Multiplexer :=
  let (wire, m, subs) := StateT.run (v.traverse (exposeSlot client)) (m, [])
  (wire, subs, m)

/-- Retires streams one after another. -/
def retireAll (m : Multiplexer) (ids : List StreamId) : Multiplexer :=
  { m with tracker := (m.tracker.retireAll ids).2 }

/-- Retires a stream. -/
def retire (m : Multiplexer) (id : StreamId) : Multiplexer :=
  { m with tracker := (m.tracker.retire id).2 }

/-! ## Subscribing -/

/-- A new stream is active. -/
theorem isActive_subscribe (m : Multiplexer) (client : String) (source : SourceRef) :
    (m.subscribe client source).2.tracker.isActive (m.subscribe client source).1.id = true := by
  simp only [subscribe, Tracker.register]
  split <;> simp [Tracker.isActive, Tracker.setSignal]

end Multiplexer

end StreamRpc
