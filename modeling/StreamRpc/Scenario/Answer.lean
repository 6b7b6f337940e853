import StreamRpc.Call.Error
import StreamRpc.Scenario.Numbering
import StreamRpc.Stream.Tracker

/-! # Answers

What a step of a scenario answers, be it a step with one component or with a whole world.
-/

namespace StreamRpc

/-- What a step answers. -/
inductive Answer where
  | done
  | started
  | dropped
  | released
  | failing
  /-- A call still needs the client. -/
  | busy
  /-- The outcome is still awaited. -/
  | pending
  /-- There is no such thing any more. -/
  | gone
  /-- There is nothing to say. -/
  | nothing
  | flag (b : Bool)
  | count (n : Nat)
  | text (s : String)
  | signal (s : Signal)
  | failed (e : CallError)
  | refused (e : TransportError)
  | unwritable (e : CodecError)
  | submitted (id : CallId)
  | handle (h : NumberedHandle)
  | value (v : NumberedValue)
  /-- The value that a call gave. -/
  | outcome (v : NumberedValue)
  | streams (ids : List StreamId)
  /-- A client's address begins as it should, and the queue of its server. -/
  | connected (headMatches : Bool) (serverQueue : String)
  /-- What was read, and whether the end was seen. -/
  | reading (items : List (Notification NumberedValue)) (ended : Bool)
  | envelopes (items : List Envelope) (ended : Bool)
  | messages (items : List (Except CodecError ClientMessage)) (ended : Bool)
  | departures (names : List String)
  /-- Whether nobody listens to a publisher any more. -/
  | unheard (b : Bool)
  | exposed (v : WireValue) (ids : List StreamId)

namespace Answer

/-- The answer to something that is refused or done. -/
def ofTransport {σ : Type} (old : σ) (r : Except TransportError σ) : Answer × σ :=
  match r with
  | .ok s => (done, s)
  | .error e => (refused e, old)

end Answer

end StreamRpc
