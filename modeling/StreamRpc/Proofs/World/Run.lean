import StreamRpc.Proofs.Client.Streams
import StreamRpc.Proofs.Server.Messages
import StreamRpc.World.Action

/-! # Runs of a world

One server that keeps running, and clients that come, make calls, read and drop handles, and go.
The steps of all tasks come in any order, and so does whatever programs do in between; nothing fails
on the way to the queues.  Every client comes with a reply address of its own.

* `World.Step`         one step, with what can be told of it
* `World.Run`          a run, with its trace
* `World.Run.server`   what a run is for the server
* `World.Run.clients`  what a run is for the clients
-/

namespace StreamRpc

/-- What can be told of a step of a world: of the server, or of one of the clients. -/
inductive WorldEvent where
  | server (x : ServerEvent)
  | client (i : Nat) (x : ClientEvent)

/-- What a run can tell, the oldest first. -/
abbrev WorldTrace := List WorldEvent

namespace WorldEvent

def server? : WorldEvent → Option ServerEvent
  | server x => some x
  | client _ _ => none

def client? (i : Nat) : WorldEvent → Option ClientEvent
  | server _ => none
  | client j x => if j = i then some x else none

/-- The envelope that a client put on the server's queue. -/
def posted? : WorldEvent → Option Envelope
  | server _ => none
  | client _ x => x.posted?

end WorldEvent

namespace WorldTrace

/-- What is told of the server. -/
def server (tr : WorldTrace) : ServerTrace :=
  tr.filterMap WorldEvent.server?

/-- What is told of a client. -/
def client (tr : WorldTrace) (i : Nat) : ClientTrace :=
  tr.filterMap (WorldEvent.client? i)

/-- The envelopes that clients put on the server's queue, in order. -/
def posted (tr : WorldTrace) : List Envelope :=
  tr.filterMap WorldEvent.posted?

/-- The server's events are read off a trace piece by piece. -/
@[simp] theorem server_append (tr tr' : WorldTrace) : server (tr ++ tr') = server tr ++ server tr' :=
  List.filterMap_append

/-- A client's events are read off a trace piece by piece. -/
@[simp] theorem client_append (tr tr' : WorldTrace) (i : Nat) :
    client (tr ++ tr') i = client tr i ++ client tr' i :=
  List.filterMap_append

/-- The server's events are all the server's. -/
@[simp] theorem server_map_server (es : ServerTrace) : server (es.map .server) = es := by
  simp [server, List.filterMap_map, Function.comp_def, WorldEvent.server?]

/-- A client's events are none of the server's. -/
@[simp] theorem server_map_client (i : Nat) (es : ClientTrace) : server (es.map (.client i)) = [] := by
  simp [server, List.filterMap_map, Function.comp_def, WorldEvent.server?]

/-- The server's events are no client's. -/
@[simp] theorem client_map_server (i : Nat) (es : ServerTrace) :
    client (es.map .server) i = [] := by
  simp [client, List.filterMap_map, Function.comp_def, WorldEvent.client?]

/-- A client's events are that client's only. -/
theorem client_map_client (i j : Nat) (es : ClientTrace) :
    client (es.map (.client j)) i = if j = i then es else [] := by
  by_cases h : j = i
  · simp [client, List.filterMap_map, Function.comp_def, WorldEvent.client?, h]
  · simp [client, List.filterMap_map, Function.comp_def, WorldEvent.client?, h]

end WorldTrace

namespace World

/-! ## What can be told of a step -/

/-- What is told of something that a client does, if there is such a client. -/
def clientEvents (w : World) (i : Nat) (told : Client → ClientTrace) : WorldTrace :=
  (w.clients[i]?).elim [] fun c => (told c).map (.client i)

/-- What is told of something that a server does, if there is such a server. -/
def serverEvents (w : World) (s : Nat) (told : Stage → ServerTrace) : WorldTrace :=
  (w.stage? s).elim [] fun st => (told st).map .server

/-- What is told of a step of a call. -/
def callEvents (w : World) (n : Nat) : WorldTrace :=
  (w.calls[n]?).elim [] fun call => w.clientEvents call.client fun c =>
    match call.phase with
    | .unsent => c.submitEvents call.method call.args w.transport
    | .waiting id _ => c.collectEvents id
    | _ => []

/-- What is told of the next step of a task. -/
def events (w : World) : Task → WorldTrace
  | .closer i => w.clientEvents i fun c => c.closerEvents w.transport
  | .pump i => w.clientEvents i fun c => c.pumpEvents w.transport
  | .watch _ => []
  | .call n => w.callEvents n
  | .cleanup => []
  | .serve s => w.serverEvents s Stage.serveEvents
  | .departure s => w.serverEvents s Stage.departEvents
  | .handle s n => w.serverEvents s fun st =>
    (st.server.handlings[n]?).elim [] fun h => st.handlingEvents n h
  | .forward s n => w.serverEvents s fun st =>
    (st.server.forwardings[n]?).elim [] fun f => st.forwardingEvents n f

/-! ## Runs -/

/-- What feeding channels does to sources. -/
inductive Feeds (s : Sources) : Sources → Prop where
  | publish (p : PublisherId) (v : DraftValue) :
      Feeds s ((s.build v).2.publish p (s.build v).1).2
  | fail (p : PublisherId) (f : Failure) : Feeds s (s.finish p (.error f)).2
  | complete (p : PublisherId) : Feeds s (s.finish p .completed).2
  | drop (p : PublisherId) : Feeds s (s.dropPublisher p).2
  | clone (p : PublisherId) : Feeds s (s.clonePublisher p).2

/-- The methods of the server become others. -/
def setRouter (w : World) (router : Router) : World :=
  { w with servers := w.servers.map fun s => { s with router } }

/-- One step after what has been told so far: a step of a task, or something that programs do. -/
inductive Step (config : ServerConfig) (tr : WorldTrace) (w : World) : WorldTrace → World → Prop where
  | task {t : Task} {w' : World} (go : w.run? t = some w') : Step config tr w (w.events t) w'
  /-- A client comes, with an address that no client had. -/
  | connect {settings : ClientConfig} {token : UInt64} {n : Nat} {w' : World}
      (go : w.connect settings token = (.ok n, w')) (queue : settings.serverQueue = config.queue)
      (covered : addressMatches config.clientPattern (settings.replyAddress token) = true)
      (apart : ∀ c ∈ w.clients, c.address ≠ settings.replyAddress token) : Step config tr w [] w'
  | submit {i : Nat} {c : Client} (found : w.clients[i]? = some c) (method : String)
      (args : List PlainValue) :
      Step config tr w (w.clientEvents i fun c => c.submitEvents method args w.transport)
        (w.submit i c method args).2
  | call {call : Calling} (unsent : call.phase = .unsent) : Step config tr w [] (w.addCall call).2
  | dropCall (n : Nat) : Step config tr w [] (w.dropCall n).2
  | close {i : Nat} {c : Client} (found : w.clients[i]? = some c) :
      Step config tr w [] (w.close i c).2
  | dropClient {i : Nat} {c : Client} (found : w.clients[i]? = some c) :
      Step config tr w [] (w.dropClient i c true)
  /-- A handle is read, a number of times. -/
  | read {i : Nat} {h : Handle} (given : (tr.client i).Given h) (max? : Option Nat) :
      Step config tr w ((w.readHandle i h max?).1.map fun n => .client i (.yielded h n))
        (w.readHandle i h max?).2.2
  | dropHandle {i : Nat} {h : Handle} (given : (tr.client i).Given h) :
      Step config tr w [] (w.dropHandle i h)
  | feed {sources : Sources} (feeds : Feeds w.sources sources) :
      Step config tr w [] { w with sources }
  | clock (clock : Nat) : Step config tr w [] { w with clock }
  | methods (router : Router) : Step config tr w [] (w.setRouter router)

/-- A run from the start of the server, with its trace. -/
inductive Run (config : ServerConfig) (w₀ : World) : WorldTrace → World → Prop where
  | start {router : Router} {n : Nat} (up : ({} : World).launch router config = (.ok n, w₀)) :
      Run config w₀ [] w₀
  | step {tr es : WorldTrace} {w w' : World} (run : Run config w₀ tr w)
      (next : Step config tr w es w') : Run config w₀ (tr ++ es) w'

/-! ## What steps of tasks come to -/

/-- A client moves on its own session and the transport only. -/
theorem client?_eq {w w' : World} {i : Nat}
    {step : Client → Transport → Option (Client × Transport)} (go : w.client? i step = some w') :
    ∃ c c' t', w.clients[i]? = some c ∧ step c w.transport = some (c', t') ∧
      w' = w.setSession i (c', t') := by
  obtain ⟨c, found, go⟩ := Option.bind_eq_some_iff.1 go
  obtain ⟨⟨c', t'⟩, hstep, hw⟩ := Option.bind_eq_some_iff.1 go
  exact ⟨c, c', t', found, hstep, (Option.some.inj hw).symm⟩

/-- A server moves on its own stage only. -/
theorem server?_eq {w w' : World} {s : Nat} {step : Stage → Option Stage}
    (go : w.server? s step = some w') :
    ∃ st st', w.stage? s = some st ∧ step st = some st' ∧ w' = w.setStage s st' := by
  obtain ⟨st, found, go⟩ := Option.bind_eq_some_iff.1 go
  obtain ⟨st', hstep, hw⟩ := Option.bind_eq_some_iff.1 go
  exact ⟨st, st', found, hstep, (Option.some.inj hw).symm⟩

/-- A forwarding task that retires nothing moves on its server's stage. -/
theorem forward?_eq {w w' : World} {s n : Nat} (quiet : w.retiring = none)
    (go : w.forward? s n = some w') :
    ∃ st st' retires, w.stage? s = some st ∧ st.forward? n = some (st', retires) ∧
      w' = w.setStage s st' := by
  obtain ⟨st, found, go⟩ := Option.bind_eq_some_iff.1 go
  obtain ⟨⟨st', retires⟩, hstep, hw⟩ := Option.bind_eq_some_iff.1 go
  refine ⟨st, st', retires, found, hstep, (Option.some.inj hw).symm.trans ?_⟩
  -- With no server named by `retiring`, what an item asks to retire stays as it is.
  cases retires with
  | none => rfl
  | some id =>
    have hquiet : (w.setStage s st').retiring = none := quiet
    simp only [Option.elim, retireRequested, hquiet]

/-- A call moves by being sent or by waiting for its answer. -/
theorem call?_eq {w w' : World} {n : Nat} (go : w.call? n = some w') :
    ∃ call c, w.calls[n]? = some call ∧ w.clients[call.client]? = some c ∧
      (call.phase = .unsent ∧ w' = w.sendCall n call c ∨
        ∃ id till, call.phase = .waiting id till ∧ w.awaitCall? n call c id till = some w') := by
  obtain ⟨call, hcall, go⟩ := Option.bind_eq_some_iff.1 go
  obtain ⟨c, hc, go⟩ := Option.bind_eq_some_iff.1 go
  refine ⟨call, c, hcall, hc, ?_⟩
  split at go
  · next hp => exact .inl ⟨hp, (Option.some.inj go).symm⟩
  · next id till hp => exact .inr ⟨id, till, hp, go⟩
  · cases go

/-- Sending a call is up to its client; the rest is about calls. -/
theorem sendCall_eq (w : World) (n : Nat) (call : Calling) (c : Client) :
    ∃ calls, w.sendCall n call c =
      { w.setSession call.client (c.submit call.method call.args w.transport).2 with calls } := by
  unfold sendCall
  split
  · next h => exact ⟨_, by rw [h]; rfl⟩
  · next h => exact ⟨_, by rw [h]; rfl⟩

/-- What looking for the outcome of a call does to its client. -/
theorem awaitCall?_eq {w w' : World} {n : Nat} {call : Calling} {c : Client} {id : CallId}
    {till : Option Nat} (go : w.awaitCall? n call c id till = some w') :
    (∃ r, (c.collect id).1 = .outcome r ∧
        w' = (w.setClient call.client
          ((c.collect id).2.dropHandles (call.outcomeOf r).2)).setPhase n call
            (.ended (some id) (call.outcomeOf r).1)) ∨
      ((c.collect id).1 = .gone ∧ w' = w.setPhase n call .abandoned) ∨
      ((c.collect id).1 = .pending ∧
        w' = (w.setClient call.client (c.giveUp id)).setPhase n call
          (.ended (some id) (.error .timeout))) := by
  unfold awaitCall? at go
  cases hr : c.collect id with
  | mk r c' =>
    rw [hr] at go
    -- The ticket answers, is gone, or makes the call wait until its time is over.
    cases r with
    | outcome r => exact .inl ⟨r, rfl, (Option.some.inj go).symm⟩
    | gone => exact .inr (.inl ⟨rfl, (Option.some.inj go).symm⟩)
    | pending =>
      dsimp only at go
      split at go
      · exact .inr (.inr ⟨rfl, (Option.some.inj go).symm⟩)
      · cases go

/-- A cleanup deletes the first queue left over. -/
theorem cleanup?_eq {w w' : World} (go : w.cleanup? = some w') :
    ∃ queue cleanups, w.cleanups = queue :: cleanups ∧
      w' = { w with cleanups, transport := (w.transport.deleteQueue queue).2 } := by
  unfold cleanup? at go
  split at go
  · cases go
  · next queue cleanups h => exact ⟨queue, cleanups, h, (Option.some.inj go).symm⟩

/-! ## What is done from outside -/

/-- A client that comes is the last. -/
theorem connect_eq {w w' : World} {settings : ClientConfig} {token : UInt64} {n : Nat}
    (go : w.connect settings token = (.ok n, w')) :
    ∃ c transport, Client.connect settings token w.transport = (.ok c, transport) ∧
      w' = { w with transport, clients := w.clients ++ [c] } := by
  unfold connect at go
  split at go
  · exact absurd (congrArg Prod.fst go) nofun
  · next c transport h => exact ⟨c, transport, h, (congrArg Prod.snd go).symm⟩

/-- Making a call is up to its client; the rest is about calls. -/
theorem submit_eq (w : World) (i : Nat) (c : Client) (method : String) (args : List PlainValue) :
    ∃ calls, (w.submit i c method args).2 =
      { w.setSession i (c.submit method args w.transport).2 with calls } := by
  unfold submit
  split
  · next h => exact ⟨_, by rw [h]⟩
  · next h => exact ⟨_, by rw [h]; rfl⟩

/-- A call that is dropped was not over; if it was waiting, its client forgets the ticket. -/
theorem dropCall_eq (w : World) (n : Nat) :
    (w.dropCall n).2 = w ∨ ∃ call, w.calls[n]? = some call ∧
      ((w.dropCall n).2 = w.setPhase n call .abandoned ∨
        ∃ id c, w.clients[call.client]? = some c ∧
          (w.dropCall n).2 =
            (w.setPhase n call .abandoned).setClient call.client (c.dropTicket id)) := by
  unfold dropCall
  split
  · exact .inl rfl
  · next call hcall =>
    split
    · exact .inr ⟨call, hcall, .inl rfl⟩
    -- Only a call that waits has a ticket to drop.
    · next id _ _ =>
      dsimp only
      split
      · next c found => exact .inr ⟨call, hcall, .inr ⟨id, c, found, rfl⟩⟩
      · exact .inr ⟨call, hcall, .inl rfl⟩
    · exact .inl rfl

/-- Reading a handle changes what its client has unread. -/
theorem readHandle_eq (w : World) (i : Nat) (h : Handle) (max? : Option Nat) :
    (w.readHandle i h max? = ([], true, w)) ∨
      ∃ c k, w.clients[i]? = some c ∧
        w.readHandle i h max? = ((c.demux.readUpTo h k).1, (c.demux.readUpTo h k).2.1,
          w.setClient i { c with demux := (c.demux.readUpTo h k).2.2 }) := by
  unfold readHandle
  split
  · exact .inl rfl
  · next c found => exact .inr ⟨c, _, found, rfl⟩

/-- Dropping a handle changes its own client only. -/
theorem dropHandle_eq (w : World) (i : Nat) (h : Handle) :
    w.dropHandle i h = w ∨
      ∃ c, w.clients[i]? = some c ∧ w.dropHandle i h = w.setClient i (c.dropHandles [h]) := by
  unfold dropHandle
  split
  · exact .inl rfl
  · next c found => exact .inr ⟨c, found, rfl⟩

/-! ## The clients -/

/-- What a step is for each of the clients that there were. -/
structure Follows (tr : WorldTrace) (cs : List Client) (es : WorldTrace) (cs' : List Client) :
    Prop where
  length : cs'.length = cs.length
  each : ∀ (j : Nat) (c' : Client), cs'[j]? = some c' →
    ∃ c, cs[j]? = some c ∧ Client.Extends (tr.client j) c (es.client j) c'
  beyond : ∀ j, cs.length ≤ j → es.client j = []

/-- A step of the server is followed by no client. -/
theorem Follows.refl (tr : WorldTrace) (cs : List Client) (es : ServerTrace) :
    Follows tr cs (es.map .server) cs where
  length := rfl
  each j c h := ⟨c, h, by
    rw [WorldTrace.client_map_server]
    exact .refl _ _⟩
  beyond j _ := by rw [WorldTrace.client_map_server]

/-- A client's step is followed by that client. -/
private theorem Follows.set {tr : WorldTrace} {cs : List Client} {i : Nat} {c c' : Client}
    {es : ClientTrace} (found : cs[i]? = some c) (h : Client.Extends (tr.client i) c es c') :
    Follows tr cs (es.map (.client i)) (cs.set i c') where
  length := List.length_set
  each j x hx := by
    rw [WorldTrace.client_map_client]
    -- What is told is told of this client; for every other one it is nothing.
    rw [List.getElem?_set] at hx
    split at hx
    · next hij =>
      subst hij
      split at hx
      · obtain rfl := Option.some.inj hx
        exact ⟨c, found, by rwa [if_pos rfl]⟩
      · cases hx
    · next hij =>
      rw [if_neg hij]
      exact ⟨x, hx, .refl _ _⟩
  beyond j hj := by
    have hlt := (List.getElem?_eq_some_iff.1 found).1
    rw [WorldTrace.client_map_client, if_neg (by omega)]

/-- The events a client tells are its own. -/
theorem clientEvents_eq {w : World} {i : Nat} {c : Client} (found : w.clients[i]? = some c)
    (told : Client → ClientTrace) : w.clientEvents i told = (told c).map (.client i) := by
  simp [clientEvents, found]

/-- A client's step without events is followed by that client. -/
private theorem Follows.set_quiet {tr : WorldTrace} {cs : List Client} {i : Nat} {c c' : Client}
    (found : cs[i]? = some c) (h : Client.Step (tr.client i) c [] c') :
    Follows tr cs [] (cs.set i c') := by
  have := Follows.set found h.extends
  exact this

/-- The handles that nobody gets belong to the outcome. -/
private theorem outcomeOf_given {tr : ClientTrace} {id : CallId} {r : Except CallError ClientValue}
    (h : tr.Answers id r) (call : Calling) : ∀ g ∈ (call.outcomeOf r).2, tr.Given g := by
  unfold Calling.outcomeOf
  intro g hg
  cases r with
  | error e => cases hg
  | ok v =>
    dsimp only at hg
    -- Handles are left over only where a stream was wanted and something else came.
    split at hg
    · split at hg
      · cases hg
      · exact h.2 g hg
    · cases hg

/-- A step of a call is a step of its client. -/
private theorem follows_call {tr : WorldTrace} {w w' : World} {n : Nat}
    (holds : ∀ j c, w.clients[j]? = some c → Client.Holds (tr.client j) c)
    (go : w.call? n = some w') : Follows tr w.clients (w.callEvents n) w'.clients := by
  obtain ⟨call, c, hcall, found, ⟨hp, rfl⟩ | ⟨id, till, hp, go⟩⟩ := call?_eq go
  -- A call that has not been sent is submitted.
  · have hes : w.callEvents n =
        (c.submitEvents call.method call.args w.transport).map (.client call.client) := by
      simp [callEvents, hcall, clientEvents, found, hp]
    obtain ⟨calls, hw⟩ := w.sendCall_eq n call c
    rw [hes, hw]
    exact .set found (Client.Step.submit c call.method call.args w.transport).extends
  · have hes : w.callEvents n = (c.collectEvents id).map (.client call.client) := by
      simp [callEvents, hcall, clientEvents, found, hp]
    rw [hes]
    rcases awaitCall?_eq go with ⟨r, hr, rfl⟩ | ⟨hr, rfl⟩ | ⟨hr, rfl⟩
    -- The answer is collected, and what nobody gets of it is dropped: two steps of the client.
    · have hcollect : Client.Step (tr.client call.client) c _ _ := .collect c id
      have hanswers : ClientTrace.Answers (tr.client call.client) id r := by
        rcases (c.correlator.collect_eq id).2.2.2 r hr with h | ⟨reason, rfl⟩
        · exact (holds _ c found).tickets id r h
        · trivial
      have hdrop : Client.Step (tr.client call.client ++ c.collectEvents id) (c.collect id).2 []
          ((c.collect id).2.dropHandles (call.outcomeOf r).2) :=
        .drop _ fun g hg => (outcomeOf_given hanswers call g hg).mono _
      have hboth := hcollect.extends.trans hdrop.extends
      rw [List.append_nil] at hboth
      exact .set found hboth
    -- No answer will come, and the client is as it was.
    · have hnil : c.collectEvents id = [] := by simp [Client.collectEvents, hr]
      rw [hnil]
      exact .refl tr _ []
    -- The time is up, and the client gives up the call.
    · have hnil : c.collectEvents id = [] := by simp [Client.collectEvents, hr]
      rw [hnil]
      exact .set_quiet found (.giveUp c id)

/-- Whatever task runs, each client does the steps its events say. -/
private theorem follows_task {tr : WorldTrace} {w w' : World} {t : Task}
    (quiet : w.retiring = none)
    (holds : ∀ j c, w.clients[j]? = some c → Client.Holds (tr.client j) c)
    (go : w.run? t = some w') : Follows tr w.clients (w.events t) w'.clients := by
  -- A task of the server tells nothing of any client, and leaves them as they are.
  have hserver : ∀ {s : Nat} {step : Stage → Option Stage} (told : Stage → ServerTrace),
      w.server? s step = some w' → Follows tr w.clients (w.serverEvents s told) w'.clients := by
    intro s step told go
    obtain ⟨st, st', found, -, rfl⟩ := server?_eq go
    simp only [serverEvents, found, Option.elim]
    exact .refl tr w.clients _
  cases t with
  | closer i =>
    obtain ⟨c, c', t', found, hstep, rfl⟩ := client?_eq go
    simp only [events, clientEvents_eq found]
    exact .set found (Client.Step.closer hstep).extends
  | pump i =>
    obtain ⟨c, c', t', found, hstep, rfl⟩ := client?_eq go
    simp only [events, clientEvents_eq found]
    exact .set found (Client.Step.pump hstep).extends
  -- The watcher of a client tells nothing.
  | watch i =>
    obtain ⟨c, c', t', found, hstep, rfl⟩ := client?_eq go
    exact .set_quiet found (.watch hstep)
  | call n => exact follows_call holds go
  | cleanup =>
    obtain ⟨queue, cleanups, -, rfl⟩ := cleanup?_eq go
    exact .refl tr w.clients []
  | serve s => exact hserver _ go
  | departure s => exact hserver _ go
  | handle s n => exact hserver _ go
  | forward s n =>
    obtain ⟨st, st', retires, found, -, rfl⟩ := forward?_eq quiet go
    simp only [events, serverEvents, found, Option.elim]
    exact .refl tr w.clients _

/-- A step goes on with the run of every client, and a client may come. -/
private theorem Step.clients {config : ServerConfig} {tr es : WorldTrace} {w w' : World}
    (quiet : w.retiring = none)
    (holds : ∀ j c, w.clients[j]? = some c → Client.Holds (tr.client j) c)
    (next : Step config tr w es w') :
    Follows tr w.clients es w'.clients ∨
      es = [] ∧ ∃ settings token t' c, w'.clients = w.clients ++ [c] ∧
        settings.serverQueue = config.queue ∧
        Client.connect settings token w.transport = (.ok c, t') := by
  have hsame : Follows tr w.clients [] w.clients := .refl tr w.clients []
  cases next with
  | task go => exact .inl (follows_task quiet holds go)
  | @connect settings token n w' go queue covered apart =>
    obtain ⟨c, t', hc, rfl⟩ := connect_eq go
    exact .inr ⟨rfl, settings, token, t', c, rfl, queue, hc⟩
  | @submit i c found method args =>
    obtain ⟨calls, hw⟩ := w.submit_eq i c method args
    rw [clientEvents_eq found, hw]
    exact .inl (.set found (Client.Step.submit _ method args w.transport).extends)
  | call unsent => exact .inl hsame
  | dropCall n =>
    refine .inl ?_
    obtain hw | ⟨call, -, hw | ⟨id, c, found, hw⟩⟩ := w.dropCall_eq n
    · rwa [hw]
    · rwa [hw]
    · rw [hw]
      exact .set_quiet found (.dropTicket c id)
  | close found => exact .inl (.set_quiet found (.close _ w.transport))
  | dropClient found => exact .inl (.set_quiet found (.abandon _ w.transport))
  | @read i h given max? =>
    refine .inl ?_
    obtain hw | ⟨c, k, found, hw⟩ := w.readHandle_eq i h max?
    · rwa [hw]
    · rw [hw]
      -- Reading goes on item by item, and each is told.
      have hset := Follows.set found (Client.extends_readUpTo given k (c := c))
      rwa [List.map_map] at hset
  | @dropHandle i h given =>
    refine .inl ?_
    obtain hw | ⟨c, found, hw⟩ := w.dropHandle_eq i h
    · rwa [hw]
    · rw [hw]
      refine .set_quiet found (.drop c ?_)
      intro g hg
      obtain rfl := List.mem_singleton.1 hg
      exact given
  -- The rest has to do with no client.
  | feed feeds => exact .inl hsame
  | clock clock => exact .inl hsame
  | methods router => exact .inl hsame

/-! ## The server -/

/-- A server of a world, and what its tasks work on. -/
def stage (w : World) (s : Server) : Stage :=
  { server := s, sources := w.sources, transport := w.transport }

/-- What a client tells is not the server's. -/
@[simp] theorem server_clientEvents (w : World) (i : Nat) (told : Client → ClientTrace) :
    (w.clientEvents i told).server = [] := by
  unfold clientEvents
  cases w.clients[i]? with
  | none => rfl
  | some c => exact WorldTrace.server_map_client i _

/-- What a call tells is not the server's. -/
theorem server_callEvents (w : World) (n : Nat) : (w.callEvents n).server = [] := by
  unfold callEvents
  cases w.calls[n]? with
  | none => rfl
  | some call => exact server_clientEvents w call.client _

/-- There is one server, and nothing is retired on behalf of items. -/
structure Alone (w : World) (s : Server) : Prop where
  one : w.servers = [s]
  quiet : w.retiring = none

/-- The one server's stage is at place zero. -/
theorem Alone.stage?_eq {w : World} {s : Server} (alone : w.Alone s) {k : Nat} {st : Stage}
    (h : w.stage? k = some st) : k = 0 ∧ st = w.stage s := by
  obtain ⟨s', hs, heq⟩ := Option.bind_eq_some_iff.1 h
  rw [alone.one] at hs
  cases k with
  | zero =>
    obtain rfl := Option.some.inj hs
    exact ⟨rfl, (Option.some.inj heq).symm⟩
  | succ k => cases hs

/-- What a step of a world is for the server and the sources. -/
inductive Acts (w : World) (s : Server) : ServerTrace → World → Prop where
  /-- It is nothing to them. -/
  | apart {w' : World} (servers : w'.servers = w.servers) (sources : w'.sources = w.sources)
      (retiring : w'.retiring = w.retiring) : Acts w s [] w'
  | serve {st : Stage} (go : (w.stage s).serve? = some st) :
      Acts w s (w.stage s).serveEvents (w.setStage 0 st)
  | depart {st : Stage} (go : (w.stage s).depart? = some st) :
      Acts w s (w.stage s).departEvents (w.setStage 0 st)
  | handle {st : Stage} {clock n : Nat} {h : Handling} (found : s.handlings[n]? = some h)
      (go : (w.stage s).handle? clock n = some st) :
      Acts w s ((w.stage s).handlingEvents n h) (w.setStage 0 st)
  | forward {st : Stage} {n : Nat} {f : Forwarding} {retires : Option StreamId}
      (found : s.forwardings[n]? = some f) (go : (w.stage s).forward? n = some (st, retires)) :
      Acts w s ((w.stage s).forwardingEvents n f) (w.setStage 0 st)
  /-- A channel is fed. -/
  | feed {sources : Sources} (feeds : Feeds w.sources sources) : Acts w s [] { w with sources }

/-- The events told of the one server are its own. -/
theorem Alone.events {w : World} {s : Server} (alone : w.Alone s) (told : Stage → ServerTrace) :
    w.serverEvents 0 told = (told (w.stage s)).map .server := by
  simp [serverEvents, stage?, alone.one, stage]

/-- What the one server tells is all in its trace. -/
private theorem Alone.server_events {w : World} {s : Server} (alone : w.Alone s)
    (told : Stage → ServerTrace) : (w.serverEvents 0 told).server = told (w.stage s) := by
  rw [alone.events, WorldTrace.server_map_server]

/-- Whatever task runs, the one server does what its events say. -/
theorem Alone.acts {w w' : World} {s : Server} (alone : w.Alone s) {t : Task}
    (go : w.run? t = some w') : w.Acts s (w.events t).server w' := by
  -- A task of a client has nothing to do with the server, and tells nothing of it.
  have hclient : ∀ {i : Nat} {told : Client → ClientTrace} {w' : World},
      w'.servers = w.servers → w'.sources = w.sources → w'.retiring = w.retiring →
        w.Acts s (w.clientEvents i told).server w' := by
    intro i told w' h1 h2 h3
    rw [server_clientEvents]
    exact .apart h1 h2 h3
  cases t with
  | closer i =>
    obtain ⟨c, c', t', found, hstep, rfl⟩ := client?_eq go
    exact hclient rfl rfl rfl
  | pump i =>
    obtain ⟨c, c', t', found, hstep, rfl⟩ := client?_eq go
    exact hclient rfl rfl rfl
  | watch i =>
    obtain ⟨c, c', t', found, hstep, rfl⟩ := client?_eq go
    exact .apart rfl rfl rfl
  | call n =>
    rw [World.events, server_callEvents]
    obtain ⟨call, c, hcall, found, ⟨hp, rfl⟩ | ⟨id, till, hp, go⟩⟩ := call?_eq go
    · obtain ⟨calls, hw⟩ := w.sendCall_eq n call c
      rw [hw]
      exact .apart rfl rfl rfl
    · rcases awaitCall?_eq go with ⟨r, hr, rfl⟩ | ⟨hr, rfl⟩ | ⟨hr, rfl⟩
      all_goals exact .apart rfl rfl rfl
  | cleanup =>
    obtain ⟨queue, cleanups, -, rfl⟩ := cleanup?_eq go
    exact .apart rfl rfl rfl
  -- The tasks of a server are tasks of the only one there is.
  | serve k =>
    obtain ⟨st, st', found, hstep, rfl⟩ := server?_eq go
    obtain ⟨rfl, rfl⟩ := alone.stage?_eq found
    rw [World.events, alone.server_events]
    exact .serve hstep
  | departure k =>
    obtain ⟨st, st', found, hstep, rfl⟩ := server?_eq go
    obtain ⟨rfl, rfl⟩ := alone.stage?_eq found
    rw [World.events, alone.server_events]
    exact .depart hstep
  | handle k n =>
    obtain ⟨st, st', found, hstep, rfl⟩ := server?_eq go
    obtain ⟨rfl, rfl⟩ := alone.stage?_eq found
    obtain ⟨h, hh, -⟩ := Option.bind_eq_some_iff.1 hstep
    rw [World.events, alone.server_events, hh, Option.elim]
    exact .handle hh hstep
  | forward k n =>
    obtain ⟨st, st', retires, found, hstep, rfl⟩ := forward?_eq alone.quiet go
    obtain ⟨rfl, rfl⟩ := alone.stage?_eq found
    obtain ⟨f, hf, -⟩ := Option.bind_eq_some_iff.1 hstep
    rw [World.events, alone.server_events, hf, Option.elim]
    exact .forward hf hstep

/-- What a step does to the server and the sources, if it does not change the methods. -/
theorem Step.acts {config : ServerConfig} {tr es : WorldTrace} {w w' : World} {s : Server}
    (alone : w.Alone s) (next : Step config tr w es w') :
    w.Acts s es.server w' ∨ ∃ router, es = [] ∧ w' = w.setRouter router := by
  -- Tasks act on the server, and a channel may be fed; all else is apart from both.
  cases next with
  | task go => exact .inl (alone.acts go)
  | connect go queue covered apart =>
    obtain ⟨c, t', -, rfl⟩ := connect_eq go
    exact .inl (.apart rfl rfl rfl)
  | @submit i c found method args =>
    obtain ⟨calls, hw⟩ := w.submit_eq i c method args
    rw [server_clientEvents, hw]
    exact .inl (.apart rfl rfl rfl)
  | call unsent => exact .inl (.apart rfl rfl rfl)
  | dropCall n =>
    obtain hw | ⟨call, -, hw | ⟨id, c, -, hw⟩⟩ := w.dropCall_eq n
    all_goals
      rw [hw]
      exact .inl (.apart rfl rfl rfl)
  | close found => exact .inl (.apart rfl rfl rfl)
  | dropClient found => exact .inl (.apart rfl rfl rfl)
  | @read i h given max? =>
    have hes : WorldTrace.server ((w.readHandle i h max?).1.map fun n =>
        .client i (.yielded h n)) = [] := by
      simp [WorldTrace.server, List.filterMap_map, Function.comp_def, WorldEvent.server?]
    rw [hes]
    obtain hw | ⟨c, k, -, hw⟩ := w.readHandle_eq i h max?
    all_goals
      rw [hw]
      exact .inl (.apart rfl rfl rfl)
  | @dropHandle i h given =>
    obtain hw | ⟨c, -, hw⟩ := w.dropHandle_eq i h
    all_goals
      rw [hw]
      exact .inl (.apart rfl rfl rfl)
  | feed feeds => exact .inl (.feed feeds)
  | clock clock => exact .inl (.apart rfl rfl rfl)
  -- Only the methods of the server are changed from outside.
  | methods router => exact .inr ⟨router, rfl, rfl⟩

/-- The one server stays alone in its new stage. -/
private theorem Alone.setStage {w : World} {s : Server} (alone : w.Alone s) (st : Stage) :
    (w.setStage 0 st).Alone st.server :=
  ⟨by simp [World.setStage, alone.one], alone.quiet⟩

/-- What the one server does is a step of its stage. -/
private theorem Acts.step {w w' : World} {s : Server} {es : ServerTrace} (alone : w.Alone s)
    (acts : w.Acts s es w') : ∃ s', w'.Alone s' ∧ Stage.Step (w.stage s) es (w'.stage s') := by
  cases acts with
  | apart servers sources retiring =>
    exact ⟨s, ⟨servers.trans alone.one, retiring.trans alone.quiet⟩, .around ⟨rfl, rfl, rfl, rfl⟩⟩
  | @serve st go => exact ⟨_, alone.setStage st, .serve go⟩
  | @depart st go => exact ⟨_, alone.setStage st, .depart go⟩
  | @handle st _ _ _ found go => exact ⟨_, alone.setStage st, .handle found go⟩
  | @forward st _ _ _ found go => exact ⟨_, alone.setStage st, .forward found go⟩
  | feed feeds => exact ⟨s, ⟨alone.one, alone.quiet⟩, .around ⟨rfl, rfl, rfl, rfl⟩⟩

/-- A step of a world is a step of its server, or something around it. -/
theorem Step.server {config : ServerConfig} {tr es : WorldTrace} {w w' : World} {s : Server}
    (alone : w.Alone s) (next : Step config tr w es w') :
    ∃ s', w'.Alone s' ∧ Stage.Step (w.stage s) es.server (w'.stage s') := by
  rcases next.acts alone with acts | ⟨router, rfl, rfl⟩
  · exact acts.step alone
  · exact ⟨{ s with router }, ⟨by simp [setRouter, alone.one], alone.quiet⟩,
      .around ⟨rfl, rfl, rfl, rfl⟩⟩

/-! ## Runs of all parts -/

/-- A server that has been running since it started. -/
def Launched (config : ServerConfig) (tr : ServerTrace) (st : Stage) : Prop :=
  ∃ router t s t', Server.launch router config t = (.ok s, t') ∧
    Stage.Run { server := s, sources := {}, transport := t' } tr st

/-- A client that has been running since it came to a server with this queue. -/
def Session (queue : String) (tr : ClientTrace) (c : Client) : Prop :=
  ∃ c₀ settings token t t', settings.serverQueue = queue ∧
    Client.connect settings token t = (.ok c₀, t') ∧ Client.Run c₀ tr c

namespace Session

variable {queue : String} {tr : ClientTrace} {c : Client}

/-- A session's client holds each handle in one place. -/
theorem holds (h : Session queue tr c) : Client.Holds tr c := by
  obtain ⟨c₀, _, _, _, _, -, up, run⟩ := h
  exact run.holds (Client.fresh_of_connect up)

/-- A session posts to the server's queue. -/
theorem home (h : Session queue tr c) : c.correlator.serverQueue = queue := by
  obtain ⟨c₀, settings, _, _, _, hqueue, up, run⟩ := h
  have fresh := Client.fresh_of_connect up
  obtain ⟨_, _, _, _, -, -, -, rfl⟩ := Client.connect_eq up
  exact (run.kept fresh).session.serverQueue.trans hqueue

/-- A client that is connected reads its queue, and its closer runs. -/
theorem connected (h : Session queue tr c) (hc : c.connected = true) :
    c.inbox ≠ none ∧ c.closing = true := by
  obtain ⟨c₀, settings, _, _, _, -, up, run⟩ := h
  have kept := run.kept (Client.fresh_of_connect up)
  obtain ⟨_, _, _, _, -, -, -, rfl⟩ := Client.connect_eq up
  refine ⟨?_, kept.closing hc⟩
  -- A client without its inbox has closed, and then it is not connected.
  rcases kept.inbox with hinbox | ⟨-, hclosed⟩
  · rw [hinbox]
    exact Option.some_ne_none _
  · unfold Client.connected at hc
    rw [hclosed] at hc
    cases hc

end Session

/-- A world that has just been launched has one server, and nothing else. -/
theorem launch_alone {router : Router} {config : ServerConfig} {n : Nat} {w₀ : World}
    (up : ({} : World).launch router config = (.ok n, w₀)) :
    ∃ s t', Server.launch router config {} = (.ok s, t') ∧ w₀.Alone s ∧
      w₀ = { ({} : World) with servers := [s], transport := t' } := by
  unfold World.launch at up
  cases hl : Server.launch router config ({} : World).transport with
  | mk r t' =>
    rw [hl] at up
    cases r with
    | error e => simp at up
    | ok s =>
      obtain ⟨-, rfl⟩ := Prod.mk.injEq .. ▸ up
      exact ⟨s, t', rfl, ⟨rfl, rfl⟩, rfl⟩

variable {config : ServerConfig} {w₀ w : World} {tr : WorldTrace}

/-- A run of a world is a run of its server. -/
theorem Run.server (run : Run config w₀ tr w) :
    ∃ s, w.Alone s ∧ Launched config tr.server (w.stage s) := by
  induction run with
  | start up =>
    obtain ⟨s, t', hl, alone, rfl⟩ := launch_alone up
    exact ⟨s, alone, _, _, s, t', hl, .refl⟩
  | step run next ih =>
    obtain ⟨s, alone, router, t, s₀, t', hl, hrun⟩ := ih
    -- A world's step is a step of its one server, or of none.
    obtain ⟨s', alone', hstep⟩ := next.server alone
    refine ⟨s', alone', router, t, s₀, t', hl, ?_⟩
    rw [WorldTrace.server_append]
    exact hrun.step hstep

/-- A run of a world is a run of each of its clients. -/
theorem Run.clients (run : Run config w₀ tr w) :
    (∀ i c, w.clients[i]? = some c → Session config.queue (tr.client i) c) ∧
      ∀ i, w.clients.length ≤ i → tr.client i = [] := by
  induction run with
  | start up =>
    obtain ⟨s, t', hl, alone, rfl⟩ := launch_alone up
    exact ⟨fun i c h => by simp at h, fun i h => rfl⟩
  | @step tr es w w' run next ih =>
    obtain ⟨hrun, hnone⟩ := ih
    obtain ⟨s, alone, -⟩ := run.server
    -- A step goes on with the clients there are, or brings one of which nothing has been told.
    rcases next.clients alone.quiet (fun j c h => (hrun j c h).holds) with
      follows | ⟨rfl, settings, token, t', c, hclients, hqueue, up⟩
    · constructor
      · intro i c' h
        obtain ⟨c, hc, hext⟩ := follows.each i c' h
        obtain ⟨c₀, settings, token, t, t', hqueue, up, hr⟩ := hrun i c hc
        refine ⟨c₀, settings, token, t, t', hqueue, up, ?_⟩
        rw [WorldTrace.client_append]
        exact hext c₀ hr
      · intro i hi
        have hle : w.clients.length ≤ i := follows.length ▸ hi
        rw [WorldTrace.client_append, hnone i hle, follows.beyond i hle]
        rfl
    · rw [List.append_nil, hclients]
      constructor
      · intro i c' h
        -- The one that comes is the last of the list.
        rcases Nat.lt_trichotomy i w.clients.length with hi | rfl | hi
        · rw [List.getElem?_append_left hi] at h
          exact hrun i c' h
        · rw [List.getElem?_concat_length] at h
          obtain rfl := Option.some.inj h
          rw [hnone _ (Nat.le_refl _)]
          exact ⟨c, settings, token, _, t', hqueue, up, .refl⟩
        · rw [List.getElem?_eq_none (by simp; omega)] at h
          cases h
      · intro i hi
        rw [List.length_append] at hi
        exact hnone i (by omega)

end World

end StreamRpc
