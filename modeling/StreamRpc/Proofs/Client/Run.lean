import StreamRpc.Client.Basic
import StreamRpc.Proofs.Client.Delivery
import StreamRpc.Proofs.Server.Messages

/-! # Runs of a client

What a client does is told in events, as for servers: what it takes off its reply queue, what it
puts on the server's queue, and what programs get from it.  A step is one step of the client's tasks
or one thing that a program does with it; the queues may be in any state then.  A program reads and
drops only handles that it has, and these are among those that were made for it.

Ending a session is one step of such a run, and so is the routing of an observation: nothing comes
between the calls that fail and the streams that fail, nor between making the handles in a message
and passing it on.  Runs in which other steps do come between are those of an `Office`, and
`Office.Shows.accept` and `Office.Shows.disconnect` say that what is one step here is what its steps
come to when nothing comes between.

* `Client.pumps`, `Client.closes`   all that the tasks of a client can do
* `Client.Step`                     one step, with what can be told of it
* `Client.Run`                      a run, with its trace
-/

namespace StreamRpc

/-- What can be told of a step of a client. -/
inductive ClientEvent where
  /-- An envelope was taken off the reply queue. -/
  | took (e : Envelope)
  /-- A call was sent. -/
  | asked (id : CallId) (method : String) (args : List PlainValue) (e : Envelope)
  /-- The outcome of a call was taken. -/
  | collected (id : CallId) (outcome : Except CallError ClientValue)
  /-- The server was told which streams are no longer wanted, and its queue took it or refused it. -/
  | told (ids : List StreamId) (e : Envelope) (accepted : Bool)
  /-- It could not be written which streams are no longer wanted. -/
  | untold (ids : List StreamId)
  /-- A handle yielded a notification. -/
  | yielded (h : Handle) (n : Notification ClientValue)

/-- What a run can tell, the oldest first. -/
abbrev ClientTrace := List ClientEvent

namespace ClientEvent

/-- The message that was taken off the reply queue. -/
def message? : ClientEvent → Option ServerMessage
  | took e => e.serverMessage?
  | _ => none

/-- What the handle with this key yielded. -/
def yield? (key : Nat) : ClientEvent → Option (Notification ClientValue)
  | yielded h n => if key = h.key then some n else none
  | _ => none

/-- The streams that the server was told to be no longer wanted, or should have been. -/
def parted : ClientEvent → List StreamId
  | told ids _ _ => ids
  | untold ids => ids
  | _ => []

/-- The call that was sent. -/
def asks : ClientEvent → List CallId
  | asked id _ _ _ => [id]
  | _ => []

/-- The envelope that the server's queue took. -/
def posted? : ClientEvent → Option Envelope
  | asked _ _ _ e => some e
  | told _ e true => some e
  | _ => none

/-- The envelope that was taken off the reply queue. -/
def taken? : ClientEvent → Option Envelope
  | took e => some e
  | _ => none

end ClientEvent

/-- What a message tells of a stream. -/
def ServerMessage.toldOf (id : StreamId) : ServerMessage → Option (Notification WireValue)
  | observation other event => if id = other then some event else none
  | reply _ _ => none

/-- What a message tells of an id is its observation. -/
theorem ServerMessage.toldOf_eq_some {m : ServerMessage} {id : StreamId}
    {event : Notification WireValue} : m.toldOf id = some event ↔ m = .observation id event := by
  cases m with
  | reply _ _ => exact ⟨nofun, nofun⟩
  | observation other event' =>
    simp only [toldOf]
    split
    · next hid => simp [hid]
    · next hid => simp [Ne.symm hid]

/-- An observation introduces the ids of its event. -/
theorem ServerMessage.introduces_observation (id : StreamId) (event : Notification WireValue) :
    (observation id event).introduces = event.ids := by
  cases event <;> rfl

/-- The streams that messages introduce, in order. -/
def introductions (ms : List ServerMessage) : List StreamId :=
  ms.flatMap ServerMessage.introduces

/-- What messages tell of a stream, in order. -/
def observations (ms : List ServerMessage) (id : StreamId) : List (Notification WireValue) :=
  ms.filterMap (ServerMessage.toldOf id)

/-- An event was observed when its message was received. -/
theorem mem_observations {ms : List ServerMessage} {id : StreamId}
    {event : Notification WireValue} :
    event ∈ observations ms id ↔ .observation id event ∈ ms := by
  simp [observations, ServerMessage.toldOf_eq_some]

/-- A reply observes nothing. -/
theorem observations_reply (id : CallId) (result : Except Failure WireValue) (other : StreamId) :
    observations [.reply id result] other = [] := rfl

/-- An observation is of its own id only. -/
theorem observations_observation (id : StreamId) (event : Notification WireValue)
    (other : StreamId) :
    observations [.observation id event] other = if other = id then [event] else [] := by
  by_cases h : other = id
  · simp [observations, ServerMessage.toldOf, h]
  · simp [observations, ServerMessage.toldOf, h]

namespace ClientTrace

/-- The messages that came, in order. -/
def messages (tr : ClientTrace) : List ServerMessage :=
  tr.filterMap ClientEvent.message?

/-- The streams that were introduced, in order. -/
def made (tr : ClientTrace) : List StreamId :=
  introductions tr.messages

/-- What the handle with this key yielded, in order. -/
def yields (tr : ClientTrace) (key : Nat) : List (Notification ClientValue) :=
  tr.filterMap (ClientEvent.yield? key)

/-- The streams that are no longer wanted, as far as the closer has seen to them. -/
def parted (tr : ClientTrace) : List StreamId :=
  tr.flatMap ClientEvent.parted

/-- The calls that were sent, in order. -/
def asks (tr : ClientTrace) : List CallId :=
  tr.flatMap ClientEvent.asks

/-- The envelopes that were taken off the reply queue, in order. -/
def taken (tr : ClientTrace) : List Envelope :=
  tr.filterMap ClientEvent.taken?

/-- A handle that was made for a stream. -/
def Given (tr : ClientTrace) (h : Handle) : Prop :=
  Demux.Given tr.made h

/-- Messages are read off a trace piece by piece. -/
@[simp] theorem messages_append (tr tr' : ClientTrace) :
    messages (tr ++ tr') = messages tr ++ messages tr' :=
  List.filterMap_append

/-- Handles made are read off a trace piece by piece. -/
@[simp] theorem made_append (tr tr' : ClientTrace) : made (tr ++ tr') = made tr ++ made tr' := by
  simp [made, introductions]

/-- What a handle yields is read off a trace piece by piece. -/
@[simp] theorem yields_append (tr tr' : ClientTrace) (key : Nat) :
    yields (tr ++ tr') key = yields tr key ++ yields tr' key :=
  List.filterMap_append

/-- Ids sent as closed are read off a trace piece by piece. -/
@[simp] theorem parted_append (tr tr' : ClientTrace) :
    parted (tr ++ tr') = parted tr ++ parted tr' :=
  List.flatMap_append

/-- Calls asked are read off a trace piece by piece. -/
@[simp] theorem asks_append (tr tr' : ClientTrace) : asks (tr ++ tr') = asks tr ++ asks tr' :=
  List.flatMap_append

/-- Without a message no handle is made. -/
theorem made_of_messages (tr : ClientTrace) {es : ClientTrace} (h : es.messages = []) :
    made (tr ++ es) = tr.made := by
  rw [made, messages_append, h, List.append_nil, made]

/-- A legible envelope is one message. -/
theorem messages_took {e : Envelope} {m : ServerMessage} (h : e.serverMessage? = some m) :
    messages [.took e] = [m] := by
  simp [messages, ClientEvent.message?, h]

/-- A message makes the handles it introduces. -/
theorem made_took (tr : ClientTrace) {e : Envelope} {m : ServerMessage}
    (h : e.serverMessage? = some m) : made (tr ++ [.took e]) = tr.made ++ m.introduces := by
  rw [made_append]
  simp [made, messages_took h, introductions]

/-- Taking an envelope yields nothing to anybody. -/
theorem yields_took (tr : ClientTrace) (e : Envelope) : yields (tr ++ [.took e]) = tr.yields := by
  funext k
  rw [yields_append]
  simp [yields, ClientEvent.yield?]

section

variable (h : Handle) (n? : Option (Notification ClientValue))

/-- A read takes no message. -/
theorem messages_yielded : messages (n?.map (ClientEvent.yielded h)).toList = [] := by
  cases n? <;> rfl

/-- A read sends nothing as closed. -/
theorem parted_yielded : parted (n?.map (ClientEvent.yielded h)).toList = [] := by
  cases n? <;> rfl

/-- A read asks for nothing. -/
theorem asks_yielded : asks (n?.map (ClientEvent.yielded h)).toList = [] := by
  cases n? <;> rfl

/-- A read yields to its own handle only. -/
theorem yields_yielded (tr : ClientTrace) :
    yields (tr ++ (n?.map (ClientEvent.yielded h)).toList) =
      fun k => if k = h.key then tr.yields k ++ n?.toList else tr.yields k := by
  funext k
  rw [yields_append]
  by_cases hk : k = h.key
  · cases n? <;> simp [hk, yields, ClientEvent.yield?]
  · cases n? <;> simp [hk, yields, ClientEvent.yield?]

end

/-- A handle made stays made. -/
theorem Given.mono {tr : ClientTrace} {h : Handle} (hg : tr.Given h) (more : ClientTrace) :
    Given (tr ++ more) h := by
  unfold Given at hg ⊢
  rw [made_append]
  exact Demux.Given.mono hg _

end ClientTrace

namespace Client

/-! ## What can be told of a step -/

/-- What is told of a step of the pump. -/
def pumpEvents (c : Client) (t : Transport) : ClientTrace :=
  match c.arrived, c.inbox.map t.receive with
  | none, some (.envelope e, _) => [.took e]
  | _, _ => []

/-- What is told of a step of the closer. -/
def closerEvents (c : Client) (t : Transport) : ClientTrace :=
  match (ClientMessage.closed c.demux.released).toEnvelope with
  | .ok e => [.told c.demux.released e (t.send c.correlator.serverQueue e).1.isOk]
  | .error _ => [.untold c.demux.released]

/-- What is told of making a call. -/
def submitEvents (c : Client) (method : String) (args : List PlainValue) (t : Transport) :
    ClientTrace :=
  match (c.submit method args t).1,
    (c.correlator.request c.correlator.nextId method args).toEnvelope with
  | .ok id, .ok e => [.asked id method args e]
  | _, _ => []

/-- What is told of looking for the outcome of a call. -/
def collectEvents (c : Client) (id : CallId) : ClientTrace :=
  match (c.collect id).1 with
  | .outcome r => [.collected id r]
  | _ => []

/-- What is told of reading a handle. -/
def readEvents (c : Client) (h : Handle) : ClientTrace :=
  match (c.demux.read h).1 with
  | .notification n => [.yielded h n]
  | _ => []

/-- A submit asks when it succeeds. -/
@[simp] theorem mem_submitEvents {c : Client} {method : String} {args : List PlainValue}
    {t : Transport} {x : ClientEvent} : x ∈ c.submitEvents method args t ↔
      ∃ id e, (c.submit method args t).1 = .ok id ∧
        (c.correlator.request c.correlator.nextId method args).toEnvelope = .ok e ∧
        x = .asked id method args e := by
  unfold submitEvents
  split
  · next id e hid he => simp [hid, he]
  · next hno =>
    refine iff_of_false List.not_mem_nil ?_
    -- A submission that fails, or cannot be written, is not told of.
    rintro ⟨id, e, hid, he, -⟩
    exact hno id e hid he

/-- A collection is noted when it returns an outcome. -/
@[simp] theorem mem_collectEvents {c : Client} {id : CallId} {x : ClientEvent} :
    x ∈ c.collectEvents id ↔ ∃ r, (c.collect id).1 = .outcome r ∧ x = .collected id r := by
  unfold collectEvents
  split
  · next r hr => simp [hr]
  · next hno =>
    refine iff_of_false List.not_mem_nil ?_
    rintro ⟨r, hr, -⟩
    exact hno r hr

/-- A read is noted when it returns a notification. -/
@[simp] theorem mem_readEvents {c : Client} {h : Handle} {x : ClientEvent} :
    x ∈ c.readEvents h ↔ ∃ n, (c.demux.read h).1 = .notification n ∧ x = .yielded h n := by
  unfold readEvents
  split
  · next n hn => simp [hn]
  · next hno =>
    refine iff_of_false List.not_mem_nil ?_
    rintro ⟨n, hn, -⟩
    exact hno n hn

/-! ## What the tasks of a client can do -/

/-- What dealing with a message from the server comes to. -/
inductive Accepts (c : Client) (e : Envelope) : Client → Prop where
  | illegible (silent : e.serverMessage? = none) : Accepts c e c
  | observe {id : StreamId} {event : Notification WireValue}
      (message : e.serverMessage? = some (.observation id event)) :
      Accepts c e { c with demux := (c.demux.observe id event).2 }
  | failure {id : CallId} {f : Failure} (message : e.serverMessage? = some (.reply id (.error f))) :
      Accepts c e { c with arrived := some (id, .error f) }
  | value {id : CallId} {v : WireValue} (message : e.serverMessage? = some (.reply id (.ok v))) :
      Accepts c e { c with
        demux := (c.demux.attach v).2
        arrived := some (id, .ok (c.demux.attach v).1) }

/-- An envelope is accepted in one of the ways `Accepts` lists. -/
theorem accepts (c : Client) (e : Envelope) : ∃ c', c.accept e = c' ∧ Accepts c e c' := by
  refine ⟨c.accept e, rfl, ?_⟩
  unfold accept
  -- The cases are those of the message the envelope carries, if it carries one.
  cases hm : ServerMessage.ofEnvelope e with
  | error err => exact .illegible (by simp [Envelope.serverMessage?, hm, Except.toOption])
  | ok m =>
    have hmessage : e.serverMessage? = some m := by
      simp [Envelope.serverMessage?, hm, Except.toOption]
    cases m with
    | observation id event => exact .observe hmessage
    | reply id r =>
      cases r with
      | error f => exact .failure hmessage
      | ok v => exact .value hmessage

/-- What a step of the pump can do. -/
inductive Pumps (c : Client) (t : Transport) : ClientTrace → Client → Transport → Prop where
  /-- The call gets the answer that came for it. -/
  | resolve {id : CallId} {result : Except Failure ClientValue}
      (arrived : c.arrived = some (id, result)) : Pumps c t [] (c.resolve id result) t
  | accept {inbox : MailboxId} {e : Envelope} {t' : Transport} (idle : c.arrived = none)
      (reads : c.inbox = some inbox) (letter : t.receive inbox = (.envelope e, t')) :
      Pumps c t [.took e] (c.accept e) t'
  /-- The reply queue is there no more, and the session ends. -/
  | lose {inbox : MailboxId} {t' : Transport} (idle : c.arrived = none)
      (reads : c.inbox = some inbox) (ended : t.receive inbox = (.ended, t')) :
      Pumps c t [] (disconnect { c with inbox := none } "reply queue closed") (t'.dropReader inbox)

/-- A pump step does one of the things `Pumps` lists. -/
theorem pumps {c c' : Client} {t t' : Transport} (go : c.pump? t = some (c', t')) :
    c.Pumps t (c.pumpEvents t) c' t' := by
  unfold pump? at go
  unfold pumpEvents
  split at go
  -- A reply that has arrived is resolved before the next message is received.
  · next id result harr =>
    cases go
    rw [harr]
    exact .resolve harr
  · next harr =>
    split at go
    · cases go
    · next inbox hin =>
      rw [harr, hin, Option.map_some]
      split at go
      · next e t' hr =>
        cases go
        rw [hr]
        exact .accept harr hin hr
      · cases go
      · next t' hr =>
        cases go
        rw [hr]
        exact .lose harr hin hr

/-- What a step of the closer can do with the streams that are not wanted any more. -/
inductive Closes (c : Client) (t : Transport) : ClientTrace → Client → Transport → Prop where
  | tell {e : Envelope} (written : (ClientMessage.closed c.demux.released).toEnvelope = .ok e) :
      Closes c t [.told c.demux.released e (t.send c.correlator.serverQueue e).1.isOk]
        { c with demux := c.demux.takeReleased.2 } (t.send c.correlator.serverQueue e).2
  /-- There are too many of them for a message, and the server is not told. -/
  | hush {err : CodecError}
      (unwritable : (ClientMessage.closed c.demux.released).toEnvelope = .error err) :
      Closes c t [.untold c.demux.released] { c with demux := c.demux.takeReleased.2 } t

/-- A closer step does one of the things `Closes` lists. -/
theorem closes {c c' : Client} {t t' : Transport} (go : c.closeReleased? t = some (c', t')) :
    c.Closes t (c.closerEvents t) c' t' := by
  unfold closeReleased? at go
  unfold closerEvents
  split at go
  · dsimp only [Demux.takeReleased] at go
    -- Either way the released ids are taken; only a notice that can be written is sent.
    cases he : (ClientMessage.closed c.demux.released).toEnvelope with
    | ok e =>
      rw [he] at go
      cases go
      exact .tell he
    | error err =>
      rw [he] at go
      cases go
      exact .hush he
  · cases go

/-- When the server's queue is there no more, the session ends. -/
theorem watch?_eq {c c' : Client} {t t' : Transport} (go : c.watch? t = some (c', t')) :
    ∃ watcher name t₁, c.departures = some watcher ∧ t.departure? watcher = some (name, t₁) ∧
      c' = disconnect { c with departures := none } "server departed" ∧
        t' = t₁.dropWatcher watcher := by
  obtain ⟨watcher, hwatcher, go⟩ := Option.bind_eq_some_iff.1 go
  obtain ⟨⟨name, t₁⟩, hdepart, go⟩ := Option.bind_eq_some_iff.1 go
  obtain ⟨rfl, rfl⟩ := Prod.mk.injEq .. ▸ Option.some.inj go
  exact ⟨watcher, name, t₁, hwatcher, hdepart, rfl, rfl⟩

/-! ## Runs -/

/-- One step of a client after what has been told so far. -/
inductive Step (tr : ClientTrace) : Client → ClientTrace → Client → Prop where
  | pump {c c' : Client} {t t' : Transport} (go : c.pump? t = some (c', t')) :
      Step tr c (c.pumpEvents t) c'
  | closer {c c' : Client} {t t' : Transport} (go : c.closeReleased? t = some (c', t')) :
      Step tr c (c.closerEvents t) c'
  | watch {c c' : Client} {t t' : Transport} (go : c.watch? t = some (c', t')) : Step tr c [] c'
  | submit (c : Client) (method : String) (args : List PlainValue) (t : Transport) :
      Step tr c (c.submitEvents method args t) (c.submit method args t).2.1
  | collect (c : Client) (id : CallId) : Step tr c (c.collectEvents id) (c.collect id).2
  | dropTicket (c : Client) (id : CallId) : Step tr c [] (c.dropTicket id)
  | giveUp (c : Client) (id : CallId) : Step tr c [] (c.giveUp id)
  | drop (c : Client) {hs : List Handle} (given : ∀ h ∈ hs, tr.Given h) :
      Step tr c [] (c.dropHandles hs)
  | read (c : Client) {h : Handle} (given : tr.Given h) :
      Step tr c (c.readEvents h) { c with demux := (c.demux.read h).2 }
  | close (c : Client) (t : Transport) : Step tr c [] (c.close t).2.1
  | abandon (c : Client) (t : Transport) : Step tr c [] (c.abandon t).1

/-- All that a step can do, with the steps of the tasks told apart. -/
inductive Does (tr : ClientTrace) (c : Client) : ClientTrace → Client → Prop where
  | resolve {id : CallId} {result : Except Failure ClientValue}
      (arrived : c.arrived = some (id, result)) : Does tr c [] (c.resolve id result)
  | accept {e : Envelope} (idle : c.arrived = none) : Does tr c [.took e] (c.accept e)
  | lose (idle : c.arrived = none) :
      Does tr c [] (disconnect { c with inbox := none } "reply queue closed")
  | tell {e : Envelope} {accepted : Bool}
      (written : (ClientMessage.closed c.demux.released).toEnvelope = .ok e) :
      Does tr c [.told c.demux.released e accepted] { c with demux := c.demux.takeReleased.2 }
  | hush : Does tr c [.untold c.demux.released] { c with demux := c.demux.takeReleased.2 }
  | depart : Does tr c [] (disconnect { c with departures := none } "server departed")
  | submit (method : String) (args : List PlainValue) (t : Transport) :
      Does tr c (c.submitEvents method args t) (c.submit method args t).2.1
  | collect (id : CallId) : Does tr c (c.collectEvents id) (c.collect id).2
  | dropTicket (id : CallId) : Does tr c [] (c.dropTicket id)
  | giveUp (id : CallId) : Does tr c [] (c.giveUp id)
  | drop {hs : List Handle} (given : ∀ h ∈ hs, tr.Given h) : Does tr c [] (c.dropHandles hs)
  | read {h : Handle} (given : tr.Given h) :
      Does tr c (c.readEvents h) { c with demux := (c.demux.read h).2 }
  | close (t : Transport) : Does tr c [] (c.close t).2.1
  | abandon (t : Transport) : Does tr c [] (c.abandon t).1

/-- Every step does one of the things `Does` lists. -/
theorem Step.does {tr es : ClientTrace} {c c' : Client} (next : Step tr c es c') :
    Does tr c es c' := by
  cases next with
  | @pump _ t _ go =>
    have goes := pumps go
    -- What is told is no variable yet, so the cases would not apply.
    generalize c.pumpEvents t = es at goes
    cases goes with
    | resolve arrived => exact .resolve arrived
    | accept idle => exact .accept idle
    | lose idle => exact .lose idle
  | @closer _ t _ go =>
    have goes := closes go
    generalize c.closerEvents t = es at goes
    cases goes with
    | tell written => exact .tell written
    | hush => exact .hush
  -- All that the watcher can hear is that the server has departed.
  | watch go =>
    obtain ⟨_, _, _, -, -, rfl, -⟩ := watch?_eq go
    exact .depart
  | submit method args t => exact .submit method args t
  | collect id => exact .collect id
  | dropTicket id => exact .dropTicket id
  | giveUp id => exact .giveUp id
  | drop given => exact .drop given
  | read given => exact .read given
  | close t => exact .close t
  | abandon t => exact .abandon t

/-- A run from the start of a session, with its trace. -/
inductive Run (c₀ : Client) : ClientTrace → Client → Prop where
  | refl : Run c₀ [] c₀
  | step {tr es : ClientTrace} {c c' : Client} (run : Run c₀ tr c) (next : Step tr c es c') :
      Run c₀ (tr ++ es) c'

/-- Every run up to here goes on like this. -/
def Extends (tr : ClientTrace) (c : Client) (es : ClientTrace) (c' : Client) : Prop :=
  ∀ c₀, Run c₀ tr c → Run c₀ (tr ++ es) c'

/-- Nothing done extends a run by nothing. -/
theorem Extends.refl (tr : ClientTrace) (c : Client) : Extends tr c [] c := fun _ run => by
  rwa [List.append_nil]

/-- A step extends a run. -/
theorem Step.extends {tr es : ClientTrace} {c c' : Client} (next : Step tr c es c') :
    Extends tr c es c' := fun _ run => run.step next

/-- Two extensions in a row are one. -/
theorem Extends.trans {tr es es' : ClientTrace} {c c' c'' : Client} (h : Extends tr c es c')
    (h' : Extends (tr ++ es) c' es' c'') : Extends tr c (es ++ es') c'' := fun c₀ run => by
  rw [← List.append_assoc]
  exact h' c₀ (h c₀ run)

/-- Reading a handle a number of times. -/
theorem extends_readUpTo {tr : ClientTrace} {c : Client} {h : Handle} (given : tr.Given h)
    (n : Nat) :
    Extends tr c ((c.demux.readUpTo h n).1.map fun x => .yielded h x)
      { c with demux := (c.demux.readUpTo h n).2.2 } := by
  induction n generalizing tr c with
  | zero => exact .refl tr c
  | succ n ih =>
    have next := (Step.read c given).extends
    have hrest := ih (given.mono (c.readEvents h)) (c := { c with demux := (c.demux.read h).2 })
    unfold readEvents at next hrest
    unfold Demux.readUpTo
    -- Reading goes on only after a notification.
    cases hr : c.demux.read h with
    | mk reading d =>
      rw [hr] at next hrest
      cases reading with
      | notification x => exact next.trans hrest
      | nothing => exact next
      | ended => exact next

/-- A session that has just started. -/
structure Fresh (c : Client) : Prop where
  demux : c.demux = {}
  arrived : c.arrived = none
  tickets : c.correlator.tickets = ∅
  pending : c.correlator.pending = ∅
  numbered : c.correlator.numbered = 0

/-- A client that got its session has a queue, its reader and a watcher. -/
theorem connect_eq {config : ClientConfig} {token : UInt64} {t t' : Transport} {c : Client}
    (h : Client.connect config token t = (.ok c, t')) :
    ∃ t₁ t₂ inbox departures, t.createQueue (config.replyAddress token) = (.ok (), t₁) ∧
      t₁.consume (config.replyAddress token) = (.ok inbox, t₂) ∧
      t₂.watchDisconnects config.serverQueue = (.ok departures, t') ∧
      c = {
        config
        correlator := {
          serverQueue := config.serverQueue, replyTo := config.replyAddress token }
        inbox := some inbox
        departures := some departures
        closing := true } := by
  dsimp only [Client.connect] at h
  -- Each of the three steps may fail, and then there is no client.
  split at h
  · simp at h
  · next t₁ h1 =>
    split at h
    · simp at h
    · next inbox t₂ h2 =>
      split at h
      · simp at h
      · next departures t₃ h3 =>
        obtain ⟨hc, rfl⟩ := Prod.mk.injEq .. ▸ h
        exact ⟨t₁, t₂, inbox, departures, h1, h2, h3, (Except.ok.inj hc).symm⟩

/-- A client that has just connected is fresh. -/
theorem fresh_of_connect {config : ClientConfig} {token : UInt64} {t t' : Transport} {c : Client}
    (h : Client.connect config token t = (.ok c, t')) : c.Fresh := by
  obtain ⟨_, _, _, _, -, -, -, rfl⟩ := connect_eq h
  exact ⟨rfl, rfl, rfl, rfl, rfl⟩

end Client

end StreamRpc
