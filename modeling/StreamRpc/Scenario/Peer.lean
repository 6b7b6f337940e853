import Std.Data.ExtTreeSet
import StreamRpc.Message
import StreamRpc.Queue.Transport

/-! # Raw peers

A raw peer reads a queue and reports what arrived there, as one side or the other would understand
it.  What a client would get is reported by call and by stream, since the order across them carries
no meaning; but a stream must have been introduced before anything is heard of it.
-/

namespace StreamRpc

/-- Whose messages a peer reads. -/
inductive Side where
  /-- It reads what a client reads. -/
  | client
  /-- It reads what a server reads. -/
  | server
  deriving DecidableEq, Repr, Inhabited

/-- Somebody who reads a queue. -/
structure Peer where
  side : Side
  /-- Where it reads; none, once the queue has ended or reading has stopped. -/
  inbox : Option MailboxId
  /-- The streams it has been told of. -/
  introduced : Std.ExtTreeSet StreamId := ∅

/-- What arrived at a peer. -/
structure Arrivals where
  /-- What a server would read, in order. -/
  messages : List (Except CodecError ClientMessage) := []
  /-- Answers, by call. -/
  replies : List (CallId × Except Failure WireValue) := []
  /-- What happened on each stream, by stream. -/
  streams : Std.ExtTreeMap StreamId (List (Notification WireValue)) := ∅
  /-- Whether every stream was introduced before anything was heard of it. -/
  introducedFirst : Bool := true
  /-- What a client could not read. -/
  bad : List CodecError := []
  /-- Whether the queue ended. -/
  ended : Bool := false

namespace Arrivals

/-- Whether nothing arrived. -/
def isEmpty (a : Arrivals) : Bool :=
  a.messages.isEmpty && a.replies.isEmpty && a.streams.isEmpty && a.bad.isEmpty && !a.ended

/-- Answers in the order of their calls, and for one call as they arrived. -/
def sortedReplies (a : Arrivals) : List (CallId × Except Failure WireValue) :=
  a.replies.mergeSort fun x y => (compare x.1 y.1).isLE

end Arrivals

namespace Peer

/-- Remembers the streams in a value. -/
def learn (p : Peer) (v : WireValue) : Peer :=
  { p with introduced := p.introduced.insertMany v.slots }

/-- Takes in a message for a client. -/
def hear (p : Peer) (a : Arrivals) : Except CodecError ServerMessage → Peer × Arrivals
  | .error e => (p, { a with bad := a.bad ++ [e] })
  | .ok (.reply id result) =>
    let p := match result with
      | .ok v => p.learn v
      | .error _ => p
    (p, { a with replies := a.replies ++ [(id, result)] })
  | .ok (.observation id event) =>
    let known := p.introduced.contains id
    let p := match event with
      | .next v => p.learn v
      | _ => p
    (p, { a with
      streams := a.streams.insert id ((a.streams[id]?.getD []) ++ [event])
      introducedFirst := a.introducedFirst && known })

/-- Takes in one envelope. -/
def take (p : Peer) (a : Arrivals) (e : Envelope) : Peer × Arrivals :=
  match p.side with
  | .server => (p, { a with messages := a.messages ++ [ClientMessage.ofEnvelope e] })
  | .client => p.hear a (ServerMessage.ofEnvelope e)

/-- Reads so many times at most. -/
def readUpTo (inbox : MailboxId) : Nat → Peer → Arrivals → Transport → Peer × Arrivals × Transport
  | 0, p, a, t => (p, a, t)
  | n + 1, p, a, t =>
    match t.receive inbox with
    | (.envelope e, t) =>
      let (p, a) := p.take a e
      readUpTo inbox n p a t
    | (.nothing, t) => (p, a, t)
    | (.ended, t) => ({ p with inbox := none }, { a with ended := true }, t)

/-- Reads all that has arrived. -/
def read (p : Peer) (t : Transport) : Peer × Arrivals × Transport :=
  match p.inbox with
  | none => (p, {}, t)
  | some inbox => readUpTo inbox (t.broker.waitingCount inbox + 1) p {} t

end Peer

end StreamRpc
