import StreamRpc.Scenario.Basic
import StreamRpc.World.Turn

/-! # Running scenarios

How each step changes the world and what it answers, and what is reported when everything has come
to rest.
-/

namespace StreamRpc

namespace Scenario

/-! ## Looking things up -/

/-- The member with a nickname; of two with one nickname the later. -/
def member? (s : Scenario) (nickname : String) : Option Member :=
  s.members.reverse.find? (·.nickname == nickname)

/-- The client with a nickname, if it is still held. -/
def client? (s : Scenario) (nickname : String) : Option (Nat × Client) := do
  let m ← s.member? nickname
  let c ← s.world.clients[m.client]?
  if c.held then some (m.client, c) else none

/-- The reply address of every member, by nickname. -/
def addresses (s : Scenario) : List (String × String) :=
  s.members.filterMap fun m => s.world.clients[m.client]?.map fun c => (m.nickname, c.address)

/-- The latest server, if it is still held. -/
def heldServer? (s : Scenario) : Option Nat :=
  if s.serverHeld then s.server else none

/-- Changes the broker directly. -/
def setBroker (s : Scenario) (broker : Broker) : Scenario :=
  { s with world := { s.world with transport := { s.world.transport with broker } } }

def broker (s : Scenario) : Broker :=
  s.world.transport.broker

/-- Does something to the broker. -/
def onBroker (s : Scenario) (r : Except TransportError Broker) : Answer × Scenario :=
  match r with
  | .ok b => (.done, s.setBroker b)
  | .error e => (.refused e, s)

/-! ## Servers -/

/-- Stops the server, if it is still held. -/
def dropServer (s : Scenario) : Bool × Scenario :=
  match s.heldServer? with
  | some n => (true, { s with world := s.world.halt n, serverHeld := false })
  | none => (false, s)

/-- Streams are retired on the bench once there is one, and on the latest server before. -/
def retarget (s : Scenario) : Scenario :=
  { s with world := { s.world with retiring := s.bench <|> s.server } }

/-- Starts a server; the one before it is dropped. -/
def startServer (s : Scenario) (methods : List (String × Script)) (config : ServerConfig) :
    Answer × Scenario :=
  match s.world.launch (.ofScripts methods) config with
  | (.error e, world) => (.failed e, { s with world })
  | (.ok n, world) =>
    let (_, s) := { s with world }.dropServer
    (.text config.queue, { s with server := some n, serverHeld := true }.retarget)

/-- Stops the server and deletes its queue. -/
def shutdown (s : Scenario) : Answer × Scenario :=
  match s.heldServer? with
  | none => (.gone, s)
  | some n =>
    match s.world.shutdown n with
    | (.ok (), world) => (.done, { s with world, serverHeld := false })
    | (.error e, world) => (.failed e, { s with world, serverHeld := false })

/-- The bench, which is made when it is first needed. -/
def theBench (s : Scenario) : Nat × Scenario :=
  match s.bench with
  | some n => (n, s)
  | none =>
    let (n, world) := s.world.addServer {}
    (n, { s with world, bench := some n }.retarget)

/-- Gives numbers to the streams in a value, and keeps the subscriptions.  Those that were kept
    under the nickname are dropped. -/
def exposeKept (s : Scenario) (client nickname : String) (v : DraftValue) : Answer × Scenario :=
  let (n, s) := s.theBench
  let ((wire, subs), world) := s.world.expose n client v
  let old := s.kept.filter (·.1 == nickname)
  let world := world.dropSources (old.flatMap fun (_, subs) => subs.map (·.source))
  let kept := s.kept.filter (·.1 != nickname) ++ [(nickname, subs)]
  (.exposed wire (subs.map (·.id)), { s with world, kept })

/-- Starts subscriptions that were kept, and counts them. -/
def startKept (s : Scenario) (client nickname : String) : Answer × Scenario :=
  let (n, s) := s.theBench
  let subs := (s.kept.filter (·.1 == nickname)).flatMap (·.2)
  (.count subs.length,
    { s with
      world := s.world.start n client subs
      kept := s.kept.filter (·.1 != nickname) })

/-! ## Clients and calls -/

/-- Connects a client. -/
def connect (s : Scenario) (nickname : String) (config : ClientConfig) : Answer × Scenario :=
  let (r, world) := s.world.connect config (UInt64.ofNat s.tokens)
  let s := { s with world, tokens := s.tokens + 1 }
  match r with
  | .error e => (.failed e, s)
  | .ok client =>
    let address := config.replyAddress (UInt64.ofNat (s.tokens - 1))
    (.connected (address.startsWith config.addressHead) config.serverQueue,
      { s with members := s.members ++ [{ nickname, client }] })

/-- Sends a call and keeps an eye on it. -/
def submit (s : Scenario) (client label method : String) (args : List PlainValue) :
    Answer × Scenario :=
  match s.client? client with
  | none => (.gone, s)
  | some (n, c) =>
    match s.world.submit n c method args with
    | (.error e, world) => (.failed e, { s with world })
    | (.ok (id, call), world) =>
      (.text id.display, { s with world, tracked := s.tracked ++ [{ label, call }] })

/-- Makes a call and keeps an eye on it. -/
def startCall (s : Scenario) (form : CallForm) (client label method : String)
    (args : List PlainValue) : Answer × Scenario :=
  match s.client? client with
  | none => (.gone, s)
  | some (n, _) =>
    let (call, world) := s.world.addCall { client := n, form, method, args }
    (.started, { s with world, tracked := s.tracked ++ [{ label, call }] })

/-- Stops waiting for a call. -/
def dropCall (s : Scenario) (label : String) : Answer × Scenario :=
  match s.tracked.find? (·.label == label) with
  | none => (.flag false, s)
  | some t =>
    let (was, world) := s.world.dropCall t.call
    (.flag was, { s with world })

/-- Closes a client. -/
def closeClient (s : Scenario) (nickname : String) : Answer × Scenario :=
  match s.client? nickname with
  | none => (.gone, s)
  | some (n, c) =>
    if s.world.busy n then (.busy, s)
    else
      match s.world.close n c with
      | (.ok (), world) => (.done, { s with world })
      | (.error e, world) => (.failed e, { s with world })

/-- Drops a client. -/
def dropClient (s : Scenario) (nickname : String) (tidy : Bool) : Answer × Scenario :=
  match s.client? nickname with
  | none => (.gone, s)
  | some (n, c) =>
    if s.world.busy n then (.busy, s)
    else (.dropped, { s with world := s.world.dropClient n c tidy })

/-! ## Handles -/

/-- Reads a handle and hands out the handles in what it gives. -/
def receive (s : Scenario) (handle : Nat) (max? : Option Nat) : Answer × Scenario :=
  match s.handles.get? handle with
  | none => (.gone, s)
  | some h =>
    let (items, ended, world) := s.world.readHandle h.client h.handle max?
    let (items, handles) := StateT.run (Numbering.handOutEvents (OwnedHandle.mk h.client) items) s.handles
    (.reading items ended, { s with world, handles })

/-- Drops handles in turn, and counts those that were there. -/
def dropHandles (s : Scenario) : List Nat → Nat × Scenario
  | [] => (0, s)
  | i :: is =>
    match s.handles.get? i with
    | none => s.dropHandles is
    | some h =>
      let (n, s) := dropHandles
        { s with world := s.world.dropHandle h.client h.handle, handles := s.handles.take i } is
      (n + 1, s)

/-- Shows a handle. -/
def inspect (s : Scenario) (handle : Nat) : Answer :=
  match s.handles.get? handle with
  | none => .nothing
  | some h =>
    match s.world.clients[h.client]? with
    | none => .nothing
    | some c => .text (c.demux.display h.handle)

/-! ## Peers -/

/-- Makes a queue and reads it. -/
def listen (s : Scenario) (queue : String) (side : Side) : Answer × Scenario :=
  match s.broker.create queue with
  | .error e => (.refused e, s)
  | .ok b =>
    let s := s.setBroker b
    match s.broker.consume queue with
    | .error e => (.refused e, s)
    | .ok (inbox, b) =>
      (.done, { s.setBroker b with peers := s.peers.insert queue { side, inbox := some inbox } })

/-- Stops reading a queue, and says whether it was read. -/
def stopReading (s : Scenario) (queue : String) : Answer × Scenario :=
  match s.peers[queue]? with
  | none => (.flag false, s)
  | some p =>
    match p.inbox with
    | none => (.flag false, s)
    | some inbox =>
      (.flag true,
        { s.setBroker (s.broker.dropReader inbox) with
          peers := s.peers.insert queue { p with inbox := none } })

/-- Sends a message that can be written. -/
def sendWritten (s : Scenario) (queue : String) (r : Except CodecError Envelope) :
    Answer × Scenario :=
  match r with
  | .error e => (.unwritable e, s)
  | .ok e => s.onBroker (s.broker.send queue e)

/-! ## Publishers -/

/-- Changes the sources. -/
def setSources (s : Scenario) (sources : Sources) : Scenario :=
  { s with world := { s.world with sources } }

/-- Pushes a value; its sources are made in any case. -/
def publish (s : Scenario) (p : PublisherId) (v : DraftValue) : Answer × Scenario :=
  let (v, sources) := s.world.sources.build v
  match sources.publish p v with
  | (some heard, sources) => (.flag heard, s.setSources sources)
  | (none, sources) => (.nothing, s.setSources sources)

/-! ## Steps -/

/-- Does what a step says. -/
def perform (s : Scenario) : Step → Answer × Scenario
  | .startServer methods config => s.startServer methods config
  | .shutdown => s.shutdown
  | .dropServer =>
    let (was, s) := s.dropServer
    (.flag was, s)
  | .retire id =>
    match s.server with
    | none => (.nothing, s)
    | some n =>
      let (was, world) := s.world.retire n id
      (.flag was, { s with world })
  | .listen queue side => s.listen queue side
  | .stopReading queue => s.stopReading queue
  | .deleteQueue queue => s.onBroker (s.broker.delete queue)
  | .hasQueue queue => (.flag (s.broker.hasQueue queue), s)
  | .sendAsClient queue m => s.sendWritten queue m.toEnvelope
  | .sendAsServer queue m => s.sendWritten queue m.toEnvelope
  | .sendEnvelope queue e => s.onBroker (s.broker.send queue e)
  | .sendRaw queue bytes => s.onBroker (s.broker.sendRaw queue bytes)
  | .fault f =>
    let t := s.world.transport
    (.done, { s with world := { s.world with transport := { t with faults := t.faults ++ [f] } } })
  | .connect nickname config => s.connect nickname config
  | .submit client label method args => s.submit client label method args
  | .call client label method args => s.startCall .value client label method args
  | .observe client label method args => s.startCall .stream client label method args
  | .dropCall label => s.dropCall label
  | .closeClient client => s.closeClient client
  | .dropClient client tidy => s.dropClient client tidy
  | .receive handle max? => s.receive handle max?
  | .dropHandles handles =>
    let (n, s) := s.dropHandles handles
    (.count n, s)
  | .inspect handle => (s.inspect handle, s)
  | .publish p v => s.publish p v
  | .finish p n =>
    let (was, sources) := s.world.sources.finish p n
    (.flag was, s.setSources sources)
  | .dropPublisher p =>
    let (was, sources) := s.world.sources.dropPublisher p
    (.flag was, s.setSources sources)
  | .clonePublisher p =>
    let (q, sources) := s.world.sources.clonePublisher p
    (.count q.index, s.setSources sources)
  | .inspectPublisher p =>
    match s.world.sources.unheard? p with
    | some b => (.unheard b, s)
    | none => (.nothing, s)
  | .expose client nickname v => s.exposeKept client nickname v
  | .start client nickname => s.startKept client nickname
  | .reply client id result =>
    let (n, s) := s.theBench
    match s.world.reply n client id result with
    | (.ok (), world) => (.done, { s with world })
    | (.error e, world) => (.failed e, { s with world })
  | .retireExposed id =>
    let (n, s) := s.theBench
    let (was, world) := s.world.retire n id
    (.flag was, { s with world })
  | .retireClient client =>
    let (n, s) := s.theBench
    let (count, world) := s.world.retireClient n client
    (.count count, { s with world })
  | .advance ms => (.done, { s with world := s.world.elapse ms s.awake, awake := [] })
  | .rest => (.done, s)

/-- Notes the tasks that can go on and could not before. -/
def rouse (s : Scenario) : Scenario :=
  { s with awake := s.awake ++ s.world.ableTasks.filter fun t => !s.awake.contains t }

/-- Takes a step. -/
def take (s : Scenario) (step : Step) : Answer × Scenario :=
  let (a, s) := s.perform step
  (a, s.rouse)

/-! ## Reports -/

/-- Hands out the handles in the outcome of a call. -/
def handOut (client : Nat) (o : CallOutcome) : StateM (Numbering OwnedHandle) Outcome :=
  match o with
  | .value v => do return .value (← Numbering.handOutValue (OwnedHandle.mk client) v)
  | .stream h => do return .stream (← Numbering.handOut (OwnedHandle.mk client) h)
  | .error e => pure (.error e)

/-- The outcomes of calls that ended, and the calls that go on. -/
def reportCalls (w : World) : List Tracked → Numbering OwnedHandle →
    List (String × Outcome) × List Tracked × Numbering OwnedHandle
  | [], handles => ([], [], handles)
  | t :: ts, handles =>
    match w.calls[t.call]? with
    | none => reportCalls w ts handles
    | some call =>
      match call.phase with
      | .ended _ o =>
        let (o, handles) := StateT.run (handOut call.client o) handles
        let (done, rest, handles) := reportCalls w ts handles
        ((t.label, o) :: done, rest, handles)
      | .abandoned => reportCalls w ts handles
      | _ =>
        let (done, rest, handles) := reportCalls w ts handles
        (done, t :: rest, handles)

/-- What arrived at peers. -/
def reportPeers : List (String × Peer) → Transport →
    List (String × Side × Arrivals) × List (String × Peer) × Transport
  | [], t => ([], [], t)
  | (queue, p) :: ps, t =>
    let (p, a, t) := p.read t
    let (arrivals, peers, t) := reportPeers ps t
    (if a.isEmpty then arrivals else (queue, p.side, a) :: arrivals, (queue, p) :: peers, t)

/-- What can be seen of a server's streams. -/
def activity? (w : World) (server : Option Nat) : Option Activity := do
  let s ← w.servers[← server]?
  return { active := s.mux.tracker.activeCount, clients := s.mux.tracker.clientCount }

/-- What can be seen of a session. -/
def sessionState? (s : Scenario) (m : Member) : Option SessionState := do
  let c ← s.world.clients[m.client]?
  let server := s.server.bind fun n => s.world.servers[n]?
  return {
    nickname := m.nickname
    queue := s.broker.hasQueue c.address
    active := server.map fun server => server.mux.tracker.activeFor c.address
    standing :=
      if c.held then
        some {
          pending := c.correlator.pendingCount
          opened := c.demux.openCount
          connected := c.connected }
      else none }

/-- What can be seen of the world. -/
def state (s : Scenario) : WorldState where
  queues := s.broker.queueCount
  server := activity? s.world s.server
  bench := activity? s.world s.bench
  sessions := s.members.filterMap s.sessionState?

/-- Lets everything go on until it has to wait, and says what has happened. -/
def settle (s : Scenario) : Report × Scenario :=
  let w := s.world.settle s.awake
  let (done, tracked, handles) := reportCalls w s.tracked s.handles
  let (arrivals, peers, transport) := reportPeers s.peers.toList w.transport
  let s := { s with
    world := { w with transport }, awake := [], tracked, handles, peers := .ofList peers }
  ({ done, arrivals, state := s.state }, s)

end Scenario

end StreamRpc
