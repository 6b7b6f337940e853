import StreamRpc.Call.Correlator
import StreamRpc.Scenario.HandleBoard

/-! # Steps with the calls of one session

The calls go over a broker of their own, and a queue of the server can be read there.
-/

namespace StreamRpc

/-- The calls and handles of one session. -/
structure CallBoard where
  correlator : Correlator
  handles : HandleBoard := {}
  transport : Transport := {}
  /-- Where the server's queue is read, while it is. -/
  inbox : Option MailboxId := none
  /-- The streams that were released in the last step. -/
  released : List StreamId := []

namespace CallBoard

/-- What is done with calls. -/
inductive Step where
  /-- Makes the server's queue and reads it. -/
  | serve
  | stopReading
  /-- Deletes the server's queue. -/
  | delete
  | fault (f : Fault)
  | submit (method : String) (args : List PlainValue)
  /-- An answer arrives. -/
  | reply (id : CallId) (result : Except Failure WireValue)
  | cancel (id : CallId)
  | failAll (e : CallError)
  /-- Looks at the ticket of a call. -/
  | poll (id : CallId)
  /-- Drops the ticket of a call. -/
  | dropTicket (id : CallId)
  | handle (s : HandleBoard.Step)
  /-- Reads the server's queue. -/
  | receive
  deriving Inhabited

/-- The queue that is served. -/
def servedQueue : String := "server"

/-- Changes the broker. -/
def setBroker (b : CallBoard) (broker : Broker) : CallBoard :=
  { b with transport := { b.transport with broker } }

/-- Stops reading the server's queue. -/
def stopReading (b : CallBoard) : CallBoard :=
  match b.inbox with
  | some id => { b.setBroker (b.transport.broker.dropReader id) with inbox := none }
  | none => b

/-- Makes the server's queue and reads it. -/
def serve (b : CallBoard) : Answer × CallBoard :=
  match b.transport.broker.create servedQueue with
  | .error e => (.refused e, b)
  | .ok broker =>
    match broker.consume servedQueue with
    | .error e => (.refused e, b)
    | .ok (inbox, broker) => (.done, { b.stopReading.setBroker broker with inbox := some inbox })

/-- An answer arrives: handles are made for its streams, and it is given to its call. -/
def reply (b : CallBoard) (id : CallId) (result : Except Failure WireValue) :
    Answer × CallBoard :=
  let (result, demux) : Except Failure ClientValue × Demux := match result with
    | .ok v =>
      let (v, demux) := b.handles.demux.attach v
      (.ok v, demux)
    | .error f => (.error f, b.handles.demux)
  let (was, leftover, correlator) := b.correlator.resolve id result
  (.flag was,
    { b with correlator, handles := { b.handles with demux }.dropUngiven leftover })

/-- Looks at the ticket of a call. -/
def poll (b : CallBoard) (id : CallId) : Answer × CallBoard :=
  match b.correlator.collect id with
  | (.pending, correlator) => (.pending, { b with correlator })
  | (.gone, correlator) => (.gone, { b with correlator })
  | (.outcome (.error e), correlator) => (.failed e, { b with correlator })
  | (.outcome (.ok v), correlator) =>
    let (v, handles) := b.handles.handOut (Numbering.handOutValue (fun h => h) v)
    (.outcome v, { b with correlator, handles })

/-- Takes a step, and leaves the released streams where they are. -/
def act (b : CallBoard) : Step → Answer × CallBoard
  | .serve => b.serve
  | .stopReading => (.done, b.stopReading)
  | .delete => Answer.ofTransport b ((b.transport.broker.delete servedQueue).map b.setBroker)
  | .fault f =>
    (.done, { b with transport := { b.transport with faults := b.transport.faults ++ [f] } })
  | .submit method args =>
    let (r, correlator, transport) := b.correlator.submit method args b.transport
    (match r with
      | .ok id => .submitted id
      | .error e => .failed e, { b with correlator, transport })
  | .reply id result => b.reply id result
  | .cancel id =>
    let (was, correlator) := b.correlator.cancel id
    (.flag was, { b with correlator })
  | .failAll e => (.failing, { b with correlator := b.correlator.failAll e })
  | .poll id => b.poll id
  | .dropTicket id =>
    let (was, leftover, correlator) := b.correlator.dropTicket id
    (.flag was, { b with correlator, handles := b.handles.dropUngiven leftover })
  | .handle s =>
    let (a, handles) := b.handles.take s
    (a, { b with handles })
  | .receive =>
    match b.inbox with
    | none => (.nothing, b)
    | some inbox =>
      let broker := b.transport.broker
      let (es, ended, broker) := broker.receiveUpTo inbox (broker.waitingCount inbox + 1)
      (.messages (es.map ClientMessage.ofEnvelope) ended, b.setBroker broker)

/-- Takes a step. -/
def take (b : CallBoard) (s : Step) : Answer × CallBoard :=
  let (a, b) := b.act s
  let (released, demux) := b.handles.demux.takeReleased
  (a, { b with handles := { b.handles with demux }, released })

end CallBoard

end StreamRpc
