import StreamRpc.Call.Error
import StreamRpc.Call.Router
import StreamRpc.Queue.Transport
import StreamRpc.Server.Multiplexer

/-! # Servers and their tasks

A server runs two kinds of task.  A `Handling` takes one request from its arrival to its answer, and
a `Forwarding` passes on the items of one stream.  Both go through phases, and one step of a task
takes it from one phase to the next, so that tasks can interleave between any two steps.
-/

namespace StreamRpc

/-- Where an answer stands. -/
inductive Reply where
  /-- The method has ended. -/
  | answered (result : Except Failure ServerValue)
  /-- The streams in the answer have numbers. -/
  | exposed (result : Except Failure WireValue) (subs : List Subscription)
  /-- The message is written. -/
  | encoded (envelope : Envelope) (subs : List Subscription)
  /-- The queue has taken the message. -/
  | accepted (subs : List Subscription)
  /-- The queue has refused the message. -/
  | refused (error : TransportError) (subs : List Subscription)
  deriving Inhabited

/-- Where a request stands. -/
inductive Handling.Phase where
  /-- Nothing has been done with it. -/
  | received (args : List WireValue)
  /-- The method runs. -/
  | running (b : Behaviour)
  /-- The method waits for a time. -/
  | sleeping (till : Nat) (after : Behaviour)
  /-- The answer is on its way. -/
  | replying (r : Reply)
  deriving Inhabited

/-- The task that handles one request. -/
structure Handling where
  /-- The reply address. -/
  client : String
  id : CallId
  method : String
  phase : Handling.Phase
  deriving Inhabited

/-- Where the passing on of a stream stands. -/
inductive Forwarding.Phase where
  /-- It waits for the next item. -/
  | waiting
  /-- The source has yielded this. -/
  | pulled (event : Notification ServerValue)
  /-- The stream was still active after that. -/
  | cleared (event : Notification ServerValue)
  /-- The streams in the item have numbers. -/
  | exposed (event : Notification WireValue) (nested : List Subscription)
  /-- The message is written. -/
  | encoded (envelope : Envelope) (terminal : Bool) (nested : List Subscription)
  /-- The queue has taken the message. -/
  | accepted (terminal : Bool) (nested : List Subscription)
  /-- The queue has refused the message. -/
  | refused (nested : List Subscription)
  /-- The item could not be written, and the client is to be told so. -/
  | failing (f : Failure)
  /-- The stream is to be retired. -/
  | closing
  deriving Inhabited

/-- The task that passes on one stream. -/
structure Forwarding where
  client : String
  id : StreamId
  source : SourceRef
  /-- Goes off when the stream is retired. -/
  signal : SignalId
  phase : Forwarding.Phase := .waiting
  deriving Inhabited

/-- A server. -/
structure Server where
  mux : Multiplexer := {}
  router : Router := {}
  /-- The queue that requests come in on. -/
  queue : String := ""
  /-- Where requests are read, while they are. -/
  inbox : Option MailboxId := none
  /-- Where departures of clients are read, while they are. -/
  departures : Option WatcherId := none
  handlings : Std.ExtTreeMap Nat Handling := ∅
  forwardings : Std.ExtTreeMap Nat Forwarding := ∅
  /-- The number of the next task. -/
  nextTask : Nat := 0

/-- A server and what its tasks work on. -/
structure Stage where
  server : Server := {}
  sources : Sources := {}
  transport : Transport := {}

namespace Stage

def tracker (st : Stage) : Tracker :=
  st.server.mux.tracker

/-- Changes the streams of the server. -/
def setMux (st : Stage) (mux : Multiplexer) : Stage :=
  { st with server := { st.server with mux } }

/-- Gives numbers to the streams in a value. -/
def expose (st : Stage) (client : String) (v : ServerValue) :
    WireValue × List Subscription × Stage :=
  let (wire, subs, mux) := st.server.mux.expose client v
  (wire, subs, st.setMux mux)

/-- Retires streams that were never introduced, and drops their sources. -/
def abandon (st : Stage) (subs : List Subscription) : Stage :=
  { st.setMux (st.server.mux.retireAll (subs.map (·.id))) with
    sources := st.sources.dropAll (subs.map (·.source)) }

/-- Retires a stream. -/
def retire (st : Stage) (id : StreamId) : Stage :=
  st.setMux (st.server.mux.retire id)

/-- Drops sources. -/
def dropSources (st : Stage) (rs : List SourceRef) : Stage :=
  { st with sources := st.sources.dropAll rs }

/-- Puts a message on a queue. -/
def send (st : Stage) (queue : String) (e : Envelope) : Except TransportError Unit × Stage :=
  let (r, transport) := st.transport.send queue e
  (r, { st with transport })

/-- Starts the task that passes on a stream. -/
def startOne (client : String) (s : Server) (sub : Subscription) : Server :=
  { s with
    forwardings := s.forwardings.insert s.nextTask
      { client, id := sub.id, source := sub.source, signal := sub.signal }
    nextTask := s.nextTask + 1 }

/-- Starts the tasks that pass on streams which have been introduced. -/
def start (st : Stage) (client : String) (subs : List Subscription) : Stage :=
  { st with server := subs.foldl (startOne client) st.server }

end Stage

end StreamRpc
