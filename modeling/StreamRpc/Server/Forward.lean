import StreamRpc.Server.Reply

/-! # Passing on a stream

The task of a stream asks its source for items and sends each to the client, until the source ends,
the stream is retired, or a message cannot be written or sent.  However it ends, the stream is
retired by then and its source is dropped.
-/

namespace StreamRpc

/-- What one step of a forwarding leaves. -/
structure Forwarding.Outcome where
  /-- The next phase; none, if the task is over. -/
  phase : Option Forwarding.Phase
  stage : Stage
  /-- A stream that the item just pulled asks to retire. -/
  retires : Option StreamId := none

namespace Forwarding

/-- The task is over, and its source is dropped with these. -/
def finish (f : Forwarding) (st : Stage) (rs : List SourceRef) : Outcome :=
  { phase := none, stage := st.dropSources (f.source :: rs) }

/-- What an item is to the client. -/
def eventOf (e : Emission) : Notification ServerValue :=
  match e.outcome with
  | .ok v => .next v
  | .error f => .error f

/-- Waits for the stream to be retired or the source to yield something, and prefers the former;
    nothing, if neither has happened. -/
def pull? (f : Forwarding) (st : Stage) : Option Outcome :=
  if st.tracker.signal f.signal = .armed then
    match st.sources.poll f.source with
    | (.pending, _) => none
    | (.item e, sources) =>
      some { phase := some (.pulled (eventOf e)), stage := { st with sources }, retires := e.retires }
    | (.ended, sources) => some { phase := some (.pulled .completed), stage := { st with sources } }
  else
    some (f.finish st [])

/-- Gives numbers to the streams in an item. -/
def exposeEvent (st : Stage) (client : String) :
    Notification ServerValue → Notification WireValue × List Subscription × Stage
  | .next v =>
    let (wire, subs, st) := st.expose client v
    (.next wire, subs, st)
  | .error f => (.error f, [], st)
  | .completed => (.completed, [], st)

/-- Writes an item; one that cannot be written fails the stream. -/
def encode (f : Forwarding) (st : Stage) (event : Notification WireValue)
    (nested : List Subscription) : Outcome :=
  match (ServerMessage.observation f.id event).toEnvelope with
  | .ok e => { phase := some (.encoded e event.terminal nested), stage := st }
  | .error err =>
    { phase := some (.failing (.unwritable "observation" err)), stage := st.abandon nested }

/-- Tells the client that the stream has failed, if that can be done. -/
def tell (f : Forwarding) (st : Stage) (failure : Failure) : Stage :=
  match (ServerMessage.observation f.id (.error failure)).toEnvelope with
  | .ok e => (st.send f.client e).2
  | .error _ => st

/-- One step of the task; nothing, if it has to wait. -/
def step? (f : Forwarding) (st : Stage) : Option Outcome :=
  match f.phase with
  | .waiting => f.pull? st
  | .pulled event =>
    -- The stream may have been retired between asking for the item and getting it.
    if st.tracker.isActive f.id then some { phase := some (.cleared event), stage := st }
    else some (f.finish st event.sources)
  | .cleared event =>
    let (event, nested, st) := exposeEvent st f.client event
    some { phase := some (.exposed event nested), stage := st }
  | .exposed event nested => some (f.encode st event nested)
  | .encoded e terminal nested =>
    match st.send f.client e with
    | (.ok (), st) => some { phase := some (.accepted terminal nested), stage := st }
    | (.error _, st) => some { phase := some (.refused nested), stage := st }
  | .accepted terminal nested =>
    -- The streams in an item start only when the client has been told of them.
    some {
      phase := some (if terminal then .closing else .waiting)
      stage := st.start f.client nested }
  | .refused nested => some { phase := some .closing, stage := st.abandon nested }
  | .failing failure => some { phase := some .closing, stage := f.tell st failure }
  | .closing => some (f.finish (st.retire f.id) [])

end Forwarding

namespace Stage

/-- One step of the forwarding with this number, and a stream that is to be retired with it;
    nothing, if there is none or it has to wait. -/
def forward? (st : Stage) (n : Nat) : Option (Stage × Option StreamId) := do
  let f ← st.server.forwardings[n]?
  let o ← f.step? st
  let forwardings := match o.phase with
    | some phase => o.stage.server.forwardings.insert n { f with phase }
    | none => o.stage.server.forwardings.erase n
  return ({ o.stage with server := { o.stage.server with forwardings } }, o.retires)

end Stage

end StreamRpc
