import StreamRpc.Config
import StreamRpc.Server.Forward

/-! # Serving

A server reads its queue: each request becomes a task of its own, and streams that a client no
longer wants are retired on the spot.  Messages that cannot be read are passed over.  It also hears
of reply queues that are deleted, and retires all streams of the client that is gone.

Starting takes a queue, its reader and a watcher.  Stopping gives up the reader and the watcher;
the tasks go on.
-/

namespace StreamRpc

namespace Server

/-- Starts a server. -/
def launch (router : Router) (config : ServerConfig) (t : Transport) :
    Except CallError Server × Transport :=
  match t.createQueue config.queue with
  | (.error e, t) => (.error (.transport e), t)
  | (.ok (), t) =>
    match t.consume config.queue with
    | (.error e, t) => (.error (.transport e), t)
    | (.ok inbox, t) =>
      match t.watchDisconnects config.clientPattern with
      | (.error e, t) => (.error (.transport e), t.dropReader inbox)
      | (.ok departures, t) =>
        (.ok { router, queue := config.queue, inbox := some inbox, departures := some departures },
          t)

end Server

/-- The arguments of a call, or the first stream in them: they may not contain any. -/
def plainArgs (args : List WireValue) : Except Failure (List PlainValue) :=
  match args.mapM Value.toPlain with
  | .ok args => .ok args
  | .error found =>
    .error {
      kind := .badArguments
      message := "arguments may not contain observables (found " ++ found.display ++ ")" }

namespace Stage

/-- Changes the server. -/
def setServer (st : Stage) (server : Server) : Stage :=
  { st with server }

/-- Stops reading requests and departures. -/
def halt (st : Stage) : Stage :=
  let t := match st.server.inbox with
    | some inbox => st.transport.dropReader inbox
    | none => st.transport
  let t := match st.server.departures with
    | some watcher => t.dropWatcher watcher
    | none => t
  { st with server := { st.server with inbox := none, departures := none }, transport := t }

/-- Stops the server and deletes its queue. -/
def shutdown (st : Stage) : Except CallError Unit × Stage :=
  let st := st.halt
  let (r, transport) := st.transport.deleteQueue st.server.queue
  (r.mapError .transport, { st with transport })

/-- Deals with a message from a client. -/
def accept (st : Stage) (e : Envelope) : Stage :=
  match ClientMessage.ofEnvelope e with
  | .ok (.request r) =>
    let task : Handling :=
      { client := r.replyTo, id := r.id, method := r.method, phase := .received r.args }
    st.setServer { st.server with
      handlings := st.server.handlings.insert st.server.nextTask task
      nextTask := st.server.nextTask + 1 }
  | .ok (.closed ids) => st.setMux (st.server.mux.retireAll ids)
  | .error _ => st

/-- Reads one message from the server's queue; nothing, if there is none. -/
def serve? (st : Stage) : Option Stage := do
  let inbox ← st.server.inbox
  match st.transport.receive inbox with
  | (.envelope e, transport) => some (({ st with transport } : Stage).accept e)
  | (.nothing, _) => none
  | (.ended, transport) =>
    some {
      st with
      server := { st.server with inbox := none }
      transport := transport.dropReader inbox }

/-- Hears of one departure; nothing, if there is none. -/
def depart? (st : Stage) : Option Stage := do
  let watcher ← st.server.departures
  let (client, transport) ← st.transport.departure? watcher
  let tracker := (st.tracker.retireClient client).2
  return { (st.setMux { st.server.mux with tracker }) with transport }

/-- The answer to a call, with the sources made that are in it. -/
def answer (st : Stage) (result : Except Failure DraftValue) : Reply × Stage :=
  match result with
  | .error f => (.answered (.error f), st)
  | .ok draft =>
    let (v, sources) := st.sources.build draft
    (.answered (.ok v), { st with sources })

/-- One step of a request: its next phase, if it is not over; nothing, if it has to wait. -/
def advance? (st : Stage) (clock : Nat) (h : Handling) : Option (Option Handling.Phase × Stage) :=
  match h.phase with
  | .received args =>
    match plainArgs args with
    | .ok args => some (some (.running (st.server.router.invoke
        { client := h.client, method := h.method, args })), st)
    | .error f => some (some (.replying (.answered (.error f))), st)
  | .running (.ends e) =>
    let (reply, st) := st.answer (e.result h.method)
    some (some (.replying reply), st)
  | .running (.waits ms after) => some (some (.sleeping (clock + ms) after), st)
  | .running .hangs => none
  | .sleeping till after => if till ≤ clock then some (some (.running after), st) else none
  | .replying r =>
    match r.step h.client h.id st with
    | (.inl r, st) => some (some (.replying r), st)
    | (.inr _, st) => some (none, st)

/-- One step of the request with this number; nothing, if there is none or it has to wait. -/
def handle? (st : Stage) (clock : Nat) (n : Nat) : Option Stage := do
  let h ← st.server.handlings[n]?
  let (phase, st) ← st.advance? clock h
  let handlings := match phase with
    | some phase => st.server.handlings.insert n { h with phase }
    | none => st.server.handlings.erase n
  return st.setServer { st.server with handlings }

end Stage

namespace Handling

/-- When a request goes on by itself. -/
def alarm? (h : Handling) : Option Nat :=
  match h.phase with
  | .sleeping till _ => some till
  | _ => none

end Handling

/-- When requests of a server go on by themselves. -/
def Server.alarms (s : Server) : List Nat :=
  s.handlings.values.filterMap Handling.alarm?

end StreamRpc
