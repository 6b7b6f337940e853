import StreamRpc.World.Basic

/-! # What is done to a world

The things that programs do with clients and servers: starting and stopping them, making calls,
reading and dropping handles, and feeding channels.  None of them waits for a task.
-/

namespace StreamRpc

namespace World

/-! ## Servers -/

/-- Adds a server. -/
def addServer (w : World) (s : Server) : Nat × World :=
  (w.servers.length, { w with servers := w.servers ++ [s] })

/-- Starts a server and says which one it is. -/
def launch (w : World) (router : Router) (config : ServerConfig) : Except CallError Nat × World :=
  match Server.launch router config w.transport with
  | (.error e, transport) => (.error e, { w with transport })
  | (.ok s, transport) =>
    let (n, w) := { w with transport }.addServer s
    (.ok n, w)

/-- Does something to a server, or gives `none` if there is none. -/
def onStage {α : Type} (w : World) (server : Nat) (none : α) (act : Stage → α × Stage) :
    α × World :=
  match w.stage? server with
  | some st =>
    let (a, st) := act st
    (a, w.setStage server st)
  | .none => (none, w)

/-- Stops a server and deletes its queue. -/
def shutdown (w : World) (server : Nat) : Except CallError Unit × World :=
  w.onStage server (.ok ()) Stage.shutdown

/-- Stops a server. -/
def halt (w : World) (server : Nat) : World :=
  (w.onStage server () fun st => ((), st.halt)).2

/-- Retires a stream of a server, and says whether it was active. -/
def retire (w : World) (server : Nat) (id : StreamId) : Bool × World :=
  w.onStage server false fun st => (st.tracker.isActive id, st.retire id)

/-- Retires all streams that a server has for a client, and counts them. -/
def retireClient (w : World) (server : Nat) (client : String) : Nat × World :=
  w.onStage server 0 fun st =>
    let (n, tracker) := st.tracker.retireClient client
    (n, st.setMux { st.server.mux with tracker })

/-- Gives numbers to the streams in a value, on behalf of a client of a server. -/
def expose (w : World) (server : Nat) (client : String) (v : DraftValue) :
    (WireValue × List Subscription) × World :=
  w.onStage server (.unit, []) fun st =>
    let (v, sources) := st.sources.build v
    let (wire, subs, st) := { st with sources }.expose client v
    ((wire, subs), st)

/-- Starts passing on streams to a client. -/
def start (w : World) (server : Nat) (client : String) (subs : List Subscription) : World :=
  (w.onStage server () fun st => ((), st.start client subs)).2

/-- Sends an answer to a client at once. -/
def reply (w : World) (server : Nat) (client : String) (id : CallId)
    (result : Except Failure DraftValue) : Except CallError Unit × World :=
  w.onStage server (.ok ()) fun st =>
    match st.answer result with
    | (r, st) => r.finish client id st

/-- Drops sources. -/
def dropSources (w : World) (rs : List SourceRef) : World :=
  { w with sources := w.sources.dropAll rs }

/-! ## Clients -/

/-- Starts a client and says which one it is.  The token makes its address its own. -/
def connect (w : World) (config : ClientConfig) (token : UInt64) :
    Except CallError Nat × World :=
  match Client.connect config token w.transport with
  | (.error e, transport) => (.error e, { w with transport })
  | (.ok c, transport) =>
    (.ok w.clients.length, { w with transport, clients := w.clients ++ [c] })

/-- Whether a call needs a client to stay. -/
def busy (w : World) (client : Nat) : Bool :=
  w.calls.any (·.occupies client)

/-- Adds a call. -/
def addCall (w : World) (call : Calling) : Nat × World :=
  (w.calls.length, { w with calls := w.calls ++ [call] })

/-- Sends a call at once and then awaits its outcome.  Says the number that the client gave to the
    call, and which call it is. -/
def submit (w : World) (client : Nat) (c : Client) (method : String) (args : List PlainValue) :
    Except CallError (CallId × Nat) × World :=
  match c.submit method args w.transport with
  | (.error e, p) => (.error e, w.setSession client p)
  | (.ok id, p) =>
    let (n, w) := (w.setSession client p).addCall
      { client, form := .submitted, method, args, phase := .waiting id none }
    (.ok (id, n), w)

/-- Stops waiting for a call, and says whether it was unfinished. -/
def dropCall (w : World) (n : Nat) : Bool × World :=
  match w.calls[n]? with
  | none => (false, w)
  | some call =>
    match call.phase with
    | .unsent => (true, w.setPhase n call .abandoned)
    | .waiting id _ =>
      let w := w.setPhase n call .abandoned
      match w.clients[call.client]? with
      | some c => (true, w.setClient call.client (c.dropTicket id))
      | none => (true, w)
    | _ => (false, w)

/-- Closes a client. -/
def close (w : World) (client : Nat) (c : Client) : Except CallError Unit × World :=
  let (r, p) := c.close w.transport
  (r, w.setSession client p)

/-- Drops a client; its reply queue is deleted later, if it is tidy. -/
def dropClient (w : World) (client : Nat) (c : Client) (tidy : Bool) : World :=
  let w := w.setSession client (c.abandon w.transport)
  if tidy then { w with cleanups := w.cleanups ++ [c.address] } else w

/-! ## Handles -/

/-- Reads a handle until there is nothing, at most so many times.  Says whether the end was seen. -/
def readHandle (w : World) (client : Nat) (h : Handle) (max? : Option Nat) :
    List (Notification ClientValue) × Bool × World :=
  match w.clients[client]? with
  | none => ([], true, w)
  | some c =>
    let (items, ended, demux) := c.demux.readUpTo h (max?.getD (c.demux.unreadCount h + 1))
    (items, ended, w.setClient client { c with demux })

/-- Drops a handle. -/
def dropHandle (w : World) (client : Nat) (h : Handle) : World :=
  match w.clients[client]? with
  | none => w
  | some c => w.setClient client (c.dropHandles [h])

end World

end StreamRpc
