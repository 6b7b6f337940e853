import StreamRpc.Client.Basic
import StreamRpc.Server.Serve

/-! # A world of clients and servers

Clients and servers that share one broker, the calls that are being made, and a clock.  Everything
that goes on by itself is a `Task`, and `World.run?` does one step of one task.  Tasks may be run in
any order; `World.settle` has them take turns.
-/

namespace StreamRpc

/-- What somebody wants from a call. -/
inductive CallForm where
  /-- It has been sent already, and its outcome is awaited. -/
  | submitted
  /-- A value. -/
  | value
  /-- The stream that the value consists of. -/
  | stream
  deriving DecidableEq, Repr, Inhabited

/-- What came of a call. -/
inductive CallOutcome where
  | value (v : ClientValue)
  | stream (h : Handle)
  | error (e : CallError)
  deriving Inhabited

/-- Where a call stands. -/
inductive CallPhase where
  | unsent
  /-- It waits for its answer, until a time if there is one. -/
  | waiting (id : CallId) (till : Option Nat)
  /-- It had a number, unless it could not be sent. -/
  | ended (id? : Option CallId) (outcome : CallOutcome)
  | abandoned
  deriving Inhabited

/-- The number that a client gave a call, as long as somebody is interested in it. -/
def CallPhase.id? : CallPhase → Option CallId
  | waiting id _ => some id
  | ended id? _ => id?
  | unsent | abandoned => none

/-- A call that somebody makes. -/
structure Calling where
  /-- Which client makes it. -/
  client : Nat
  form : CallForm
  method : String
  args : List PlainValue
  phase : CallPhase := .unsent
  deriving Inhabited

/-- Whether a call is still going on. -/
def Calling.unfinished (c : Calling) : Bool :=
  match c.phase with
  | .unsent => true
  | .waiting _ _ => true
  | _ => false

/-- Whether a call needs its client to stay. -/
def Calling.occupies (c : Calling) (client : Nat) : Bool :=
  c.client == client && c.form != .submitted && c.unfinished

/-- When a call ends by itself. -/
def Calling.alarm? (c : Calling) : Option Nat :=
  match c.phase with
  | .waiting _ till => till
  | _ => none

/-- The outcome of a call that resolved like this, and the handles that nobody gets: a call for a
    stream wants a value that is nothing but a stream. -/
def Calling.outcomeOf (c : Calling) (r : Except CallError ClientValue) :
    CallOutcome × List Handle :=
  match r with
  | .error e => (.error e, [])
  | .ok v =>
    if c.form = .stream then
      match v.asStream? with
      | some h => (.stream h, [])
      | none =>
        (.error (.unexpectedReply (c.method ++ " did not return an observable")), v.slots)
    else (.value v, [])

/-- Something that goes on by itself. -/
inductive Task where
  /-- A client tells the server which streams are no longer wanted. -/
  | closer (client : Nat)
  /-- A client reads its reply queue. -/
  | pump (client : Nat)
  /-- A client hears that the server is gone. -/
  | watch (client : Nat)
  /-- A call is sent, answered or timed out. -/
  | call (n : Nat)
  /-- The reply queue of a client that was dropped is deleted. -/
  | cleanup
  /-- A server reads its queue. -/
  | serve (server : Nat)
  /-- A server hears that a client is gone. -/
  | departure (server : Nat)
  /-- A server handles a request. -/
  | handle (server : Nat) (n : Nat)
  /-- A server passes on a stream. -/
  | forward (server : Nat) (n : Nat)
  deriving DecidableEq, Hashable, Repr, Inhabited

/-- Clients and servers that share one broker. -/
structure World where
  /-- The time in milliseconds. -/
  clock : Nat := 0
  transport : Transport := {}
  sources : Sources := {}
  servers : List Server := []
  clients : List Client := []
  calls : List Calling := []
  /-- Reply queues to be deleted. -/
  cleanups : List String := []
  /-- The server on which streams are retired that items ask to retire. -/
  retiring : Option Nat := none

namespace World

/-! ## Parts of the world -/

/-- A server and what its tasks work on. -/
def stage? (w : World) (server : Nat) : Option Stage := do
  let s ← w.servers[server]?
  return { server := s, sources := w.sources, transport := w.transport }

/-- Puts a server and what its tasks work on back. -/
def setStage (w : World) (server : Nat) (st : Stage) : World :=
  { w with
    servers := w.servers.set server st.server
    sources := st.sources
    transport := st.transport }

/-- Puts a client back. -/
def setClient (w : World) (client : Nat) (c : Client) : World :=
  { w with clients := w.clients.set client c }

/-- Puts a client and the way to the queues back. -/
def setSession (w : World) (client : Nat) (p : Client × Transport) : World :=
  { w.setClient client p.1 with transport := p.2 }

/-- Retires a stream that an item asks to retire. -/
def retireRequested (w : World) (id : StreamId) : World :=
  match w.retiring with
  | none => w
  | some server =>
    match w.stage? server with
    | none => w
    | some st => w.setStage server (st.retire id)

/-! ## Calls -/

/-- Moves a call to another phase. -/
def setPhase (w : World) (n : Nat) (call : Calling) (phase : CallPhase) : World :=
  { w with calls := w.calls.set n { call with phase } }

/-- Sends a call. -/
def sendCall (w : World) (n : Nat) (call : Calling) (c : Client) : World :=
  match c.submit call.method call.args w.transport with
  | (.ok id, c, t) =>
    (w.setSession call.client (c, t)).setPhase n call
      (.waiting id (some (w.clock + c.config.callTimeoutMs)))
  | (.error e, c, t) =>
    (w.setSession call.client (c, t)).setPhase n call (.ended none (.error e))

/-- Looks whether a call has been answered or its time is up; nothing, if neither is so. -/
def awaitCall? (w : World) (n : Nat) (call : Calling) (c : Client) (id : CallId)
    (till : Option Nat) : Option World :=
  match c.collect id with
  | (.outcome r, c) =>
    let (outcome, leftover) := call.outcomeOf r
    some ((w.setClient call.client (c.dropHandles leftover)).setPhase n call
      (.ended (some id) outcome))
  | (.gone, _) => some (w.setPhase n call .abandoned)
  | (.pending, _) =>
    if till.any (· ≤ w.clock) then
      some ((w.setClient call.client (c.giveUp id)).setPhase n call
        (.ended (some id) (.error .timeout)))
    else none

/-- One step of a call; nothing, if it has to wait. -/
def call? (w : World) (n : Nat) : Option World := do
  let call ← w.calls[n]?
  let c ← w.clients[call.client]?
  match call.phase with
  | .unsent => some (w.sendCall n call c)
  | .waiting id till => w.awaitCall? n call c id till
  | _ => none

/-! ## Tasks -/

/-- One step of a client's task; nothing, if it has to wait. -/
def client? (w : World) (client : Nat)
    (step : Client → Transport → Option (Client × Transport)) : Option World := do
  let c ← w.clients[client]?
  return w.setSession client (← step c w.transport)

/-- One step of a server's task; nothing, if it has to wait. -/
def server? (w : World) (server : Nat) (step : Stage → Option Stage) : Option World := do
  let st ← w.stage? server
  return w.setStage server (← step st)

/-- One step of passing on a stream; nothing, if it has to wait. -/
def forward? (w : World) (server : Nat) (n : Nat) : Option World := do
  let st ← w.stage? server
  let (st, retires) ← st.forward? n
  let w := w.setStage server st
  return retires.elim w w.retireRequested

/-- Deletes the reply queue of a client that was dropped; nothing, if there is none. -/
def cleanup? (w : World) : Option World :=
  match w.cleanups with
  | [] => none
  | queue :: cleanups => some { w with cleanups, transport := (w.transport.deleteQueue queue).2 }

/-- One step of a task; nothing, if there is no such task or it has to wait. -/
def run? (w : World) : Task → Option World
  | .closer client => w.client? client Client.closeReleased?
  | .pump client => w.client? client Client.pump?
  | .watch client => w.client? client Client.watch?
  | .call n => w.call? n
  | .cleanup => w.cleanup?
  | .serve server => w.server? server Stage.serve?
  | .departure server => w.server? server Stage.depart?
  | .handle server n => w.server? server (·.handle? w.clock n)
  | .forward server n => w.forward? server n

/-- The tasks of clients, and those of servers that do not belong to one request or stream. -/
def standingTasks (w : World) : List Task :=
  let clients := List.range w.clients.length
  let servers := List.range w.servers.length
  clients.map .pump ++ clients.map .closer ++ clients.map .watch ++
    (List.range w.calls.length).map .call ++ [.cleanup] ++
    servers.map .serve ++ servers.map .departure

/-- The tasks that there are. -/
def tasks (w : World) : List Task :=
  w.standingTasks ++
    (w.servers.zipIdx.flatMap fun (s, i) => s.handlings.keys.map (.handle i)) ++
    (w.servers.zipIdx.flatMap fun (s, i) => s.forwardings.keys.map (.forward i))

/-- Whether a task can go on. -/
def able (w : World) (t : Task) : Bool :=
  (w.run? t).isSome

/-- The tasks that can go on. -/
def ableTasks (w : World) : List Task :=
  w.tasks.filter w.able

end World

end StreamRpc
