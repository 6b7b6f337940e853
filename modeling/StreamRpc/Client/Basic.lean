import StreamRpc.Call.Correlator
import StreamRpc.Config

/-! # Clients

A client has a session: a reply queue of its own, calls that are pending and streams that are open.
Its *pump* reads the reply queue, its *closer* tells the server which streams are no longer wanted,
and its *watch* ends the session when the server's queue is deleted.  A session that has ended stays
ended: pending calls and open streams fail, and new calls are refused.

Two things are one step here that take several accesses to the session, between which other tasks may
take theirs: ending the session (`Client.disconnect`), and passing on what happened on a stream
(`Client.accept` of an observation).  What can come between is the subject of `Office`, where each
access is a step of its own.

* `Client.disconnect_of_closed`   ending a session again changes nothing
-/

namespace StreamRpc

/-- A client and its session. -/
structure Client where
  config : ClientConfig
  correlator : Correlator
  demux : Demux := {}
  /-- Where answers are read, while the pump runs. -/
  inbox : Option MailboxId := none
  /-- Where the departure of the server is read, while the watch runs. -/
  departures : Option WatcherId := none
  /-- Whether the closer runs. -/
  closing : Bool := false
  /-- An answer that the pump has taken in and not yet given to its call. -/
  arrived : Option (CallId × Except Failure ClientValue) := none
  /-- Whether somebody still holds the client. -/
  held : Bool := true

namespace Client

/-- The address that answers come to. -/
def address (c : Client) : String :=
  c.correlator.replyTo

def connected (c : Client) : Bool :=
  !c.correlator.closed

/-- Deletes a queue that was made for nothing. -/
def discard (t : Transport) (queue : String) : Transport :=
  (t.deleteQueue queue).2

/-- Starts a session.  If that fails, its queue is deleted again. -/
def connect (config : ClientConfig) (token : UInt64) (t : Transport) :
    Except CallError Client × Transport :=
  let address := config.replyAddress token
  match t.createQueue address with
  | (.error e, t) => (.error (.transport e), t)
  | (.ok (), t) =>
    match t.consume address with
    | (.error e, t) => (.error (.transport e), discard t address)
    | (.ok inbox, t) =>
      match t.watchDisconnects config.serverQueue with
      | (.error e, t) => (.error (.transport e), (discard t address).dropReader inbox)
      | (.ok departures, t) =>
        (.ok {
          config
          correlator := { serverQueue := config.serverQueue, replyTo := address }
          inbox := some inbox
          departures := some departures
          closing := true }, t)

/-- Makes a call and says its number. -/
def submit (c : Client) (method : String) (args : List PlainValue) (t : Transport) :
    Except CallError CallId × Client × Transport :=
  let (r, correlator, t) := c.correlator.submit method args t
  (r, { c with correlator }, t)

/-- Drops handles. -/
def dropHandles (c : Client) (hs : List Handle) : Client :=
  { c with demux := c.demux.dropAll hs }

/-- Looks at the ticket of a call, and takes it if the call is over. -/
def collect (c : Client) (id : CallId) : Collection × Client :=
  let (r, correlator) := c.correlator.collect id
  (r, { c with correlator })

/-- Drops the ticket of a call, and the handles in its outcome. -/
def dropTicket (c : Client) (id : CallId) : Client :=
  let (_, leftover, correlator) := c.correlator.dropTicket id
  { c with correlator }.dropHandles leftover

/-- Gives up a call: it is not pending any more, and its ticket is dropped. -/
def giveUp (c : Client) (id : CallId) : Client :=
  { c with correlator := (c.correlator.cancel id).2 }.dropTicket id

/-! ## Ending the session -/

/-- Ends the session, unless it has ended before.  This is one step here: the calls fail, and the
    streams that are open at that moment, with nothing in between. -/
def disconnect (c : Client) (reason : String) : Client :=
  if c.correlator.closed then c
  else
    { c with
      correlator := c.correlator.failAll (.connectionLost reason)
      demux := c.demux.failAll { kind := .disconnected, message := reason } }

/-- Ending a session again changes nothing. -/
theorem disconnect_of_closed (c : Client) (reason : String) (h : c.correlator.closed = true) :
    c.disconnect reason = c := by
  simp [disconnect, h]

/-- Stops the pump, the closer and the watch. -/
def halt (c : Client) (t : Transport) : Client × Transport :=
  let t := match c.inbox with
    | some inbox => t.dropReader inbox
    | none => t
  let t := match c.departures with
    | some watcher => t.dropWatcher watcher
    | none => t
  ({ c with inbox := none, departures := none, closing := false }, t)

/-- Ends the session and deletes the reply queue. -/
def close (c : Client) (t : Transport) : Except CallError Unit × Client × Transport :=
  let (c, t) := { c.disconnect "client closed" with held := false }.halt t
  let (r, t) := t.deleteQueue c.address
  (r.mapError .transport, c, t)

/-- Ends the session without deleting the reply queue. -/
def abandon (c : Client) (t : Transport) : Client × Transport :=
  let (c, t) := { c with held := false }.halt t
  (c.disconnect "client dropped", t)

/-! ## The pump -/

/-- Gives an answer to its call.  The handles that nobody gets are dropped. -/
def resolve (c : Client) (id : CallId) (result : Except Failure ClientValue) : Client :=
  let (_, leftover, correlator) := c.correlator.resolve id result
  { c with correlator, arrived := none }.dropHandles leftover

/-- Makes handles for the streams in an answer. -/
def attach (c : Client) (result : Except Failure WireValue) :
    Except Failure ClientValue × Client :=
  match result with
  | .ok v =>
    let (v, demux) := c.demux.attach v
    (.ok v, { c with demux })
  | .error f => (.error f, c)

/-- Deals with a message from the server.  An answer is taken in, its streams first, and given to
    its call later; what happens on a stream is passed on at once: making the handles in it, looking
    for the stream and putting it into the inbox are one step here. -/
def accept (c : Client) (e : Envelope) : Client :=
  match ServerMessage.ofEnvelope e with
  | .ok (.reply id result) =>
    let (result, c) := c.attach result
    { c with arrived := some (id, result) }
  | .ok (.observation id event) => { c with demux := (c.demux.observe id event).2 }
  | .error _ => c

/-- One step of the pump; nothing, if it has to wait. -/
def pump? (c : Client) (t : Transport) : Option (Client × Transport) :=
  match c.arrived with
  | some (id, result) => some (c.resolve id result, t)
  | none =>
    match c.inbox with
    | none => none
    | some inbox =>
      match t.receive inbox with
      | (.envelope e, t) => some (c.accept e, t)
      | (.nothing, _) => none
      | (.ended, t) =>
        some ({ c with inbox := none }.disconnect "reply queue closed", t.dropReader inbox)

/-! ## The closer -/

/-- Tells the server about all streams that are no longer wanted; nothing, if there are none. -/
def closeReleased? (c : Client) (t : Transport) : Option (Client × Transport) :=
  if c.closing && !c.demux.released.isEmpty then
    let (ids, demux) := c.demux.takeReleased
    match (ClientMessage.closed ids).toEnvelope with
    | .ok e => some ({ c with demux }, (t.send c.correlator.serverQueue e).2)
    | .error _ => some ({ c with demux }, t)
  else none

/-! ## The watch -/

/-- Ends the session if the server's queue has been deleted; nothing, if it has not. -/
def watch? (c : Client) (t : Transport) : Option (Client × Transport) := do
  let watcher ← c.departures
  let (_, t) ← t.departure? watcher
  return ({ c with departures := none }.disconnect "server departed", t.dropWatcher watcher)

end Client

end StreamRpc
