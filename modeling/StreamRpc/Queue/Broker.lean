import StreamRpc.Envelope
import StreamRpc.Queue.Address
import StreamRpc.Queue.Error

/-! # The queue broker

Named queues of flattened envelopes.  A queue lives from its creation to its deletion; a queue
created later under the same name is another one.  Each queue may be read by one reader, who gets
what was sent before and after it came, and sees the end once the queue is deleted and empty.
Watchers are told the name of every queue that is deleted and matches their pattern.

An operation that is refused gives an error and no new broker, so it changes nothing.

* `Broker.create_ok_iff`    when a queue can be made
* `Broker.sendRaw_ok_iff`   when a queue takes a message
-/

namespace StreamRpc

open Wire (Bytes)

/-- Who reads a queue. -/
inductive Readership where
  /-- Nobody yet. -/
  | unclaimed
  /-- Somebody. -/
  | claimed
  /-- Somebody once, and nobody ever again. -/
  | abandoned
  deriving DecidableEq, Repr, Inhabited

/-- One life of a queue. -/
structure Mailbox where
  /-- What was accepted and not yet taken, oldest first. -/
  waiting : List Bytes := []
  readership : Readership := .unclaimed
  /-- Whether the queue has not been deleted. -/
  live : Bool := true
  deriving Repr, Inhabited

/-- Somebody who wants to know about deleted queues. -/
structure Watcher where
  pattern : String
  /-- Names not yet taken, oldest first. -/
  departures : List String := []
  /-- Whether there is still somebody to tell. -/
  listening : Bool := true
  deriving Repr, Inhabited

/-- Refers to one life of a queue. -/
structure MailboxId where
  index : Nat
  deriving DecidableEq, Repr, Inhabited

/-- Refers to a watcher. -/
structure WatcherId where
  index : Nat
  deriving DecidableEq, Repr, Inhabited

/-- All queues, the lives they are in, and the watchers. -/
structure Broker where
  /-- The queues that exist, each with the life it is in. -/
  queues : Std.ExtTreeMap String MailboxId := ∅
  /-- Every life of every queue so far. -/
  mailboxes : Std.ExtTreeMap Nat Mailbox := ∅
  /-- The number of the next life. -/
  nextMailbox : Nat := 0
  watchers : Std.ExtTreeMap Nat Watcher := ∅
  /-- The number of the next watcher. -/
  nextWatcher : Nat := 0

/-- What a reader finds. -/
inductive Arrival where
  | envelope (e : Envelope)
  /-- Nothing now, but there may be something later. -/
  | nothing
  /-- Nothing ever again. -/
  | ended

/-- Drops what does not parse until an envelope is found. -/
def nextEnvelope? : List Bytes → Option (Envelope × List Bytes)
  | [] => none
  | bs :: rest =>
    match Envelope.ofBytes bs with
    | .ok e => some (e, rest)
    | .error _ => nextEnvelope? rest

namespace Broker

/-- Whether there is a queue of this name. -/
def hasQueue (b : Broker) (name : String) : Bool :=
  b.queues.contains name

/-- How many queues there are. -/
def queueCount (b : Broker) : Nat :=
  b.queues.size

/-- The mailbox of a queue that exists. -/
def mailbox? (b : Broker) (name : String) : Option (MailboxId × Mailbox) := do
  let id ← b.queues[name]?
  let m ← b.mailboxes[id.index]?
  return (id, m)

/-- Replaces a mailbox. -/
def setMailbox (b : Broker) (id : MailboxId) (m : Mailbox) : Broker :=
  { b with mailboxes := b.mailboxes.insert id.index m }

/-- Makes a queue. -/
def create (b : Broker) (name : String) : Except TransportError Broker :=
  if b.queues.contains name then .error (.queueExists name)
  else
    .ok { b with
      queues := b.queues.insert name ⟨b.nextMailbox⟩
      mailboxes := b.mailboxes.insert b.nextMailbox {}
      nextMailbox := b.nextMailbox + 1 }

/-- Tells a watcher that the queue of this name is gone. -/
def Watcher.tell (name : String) (w : Watcher) : Watcher :=
  if addressMatches w.pattern name then { w with departures := w.departures ++ [name] } else w

/-- Whether a watcher is kept when the queue of this name goes: one that would be told and no
    longer listens is forgotten. -/
def Watcher.stays (name : String) (w : Watcher) : Bool :=
  w.listening || !addressMatches w.pattern name

/-- Removes a queue and tells the watchers. -/
def delete (b : Broker) (name : String) : Except TransportError Broker :=
  match b.mailbox? name with
  | none => .error (.unknownQueue name)
  | some (id, m) =>
    .ok { b with
      queues := b.queues.erase name
      mailboxes := b.mailboxes.insert id.index { m with live := false }
      watchers :=
        (b.watchers.filter fun _ w => Watcher.stays name w).map fun _ w => Watcher.tell name w }

/-- Puts bytes on a queue. -/
def sendRaw (b : Broker) (name : String) (bytes : Bytes) : Except TransportError Broker :=
  match b.mailbox? name with
  | none => .error (.unknownQueue name)
  | some (id, m) =>
    if m.readership = .abandoned then .error (.connectionLost ("queue '" ++ name ++ "' closed"))
    else .ok (b.setMailbox id { m with waiting := m.waiting ++ [bytes] })

/-- Flattens an envelope and puts it on a queue. -/
def send (b : Broker) (name : String) (e : Envelope) : Except TransportError Broker :=
  match e.toBytes with
  | .error err => .error (.io ("failed to flatten envelope: " ++ err.message))
  | .ok bytes => b.sendRaw name bytes

/-- Becomes the reader of a queue. -/
def consume (b : Broker) (name : String) : Except TransportError (MailboxId × Broker) :=
  match b.mailbox? name with
  | none => .error (.unknownQueue name)
  | some (id, m) =>
    if m.readership = .unclaimed then
      .ok (id, b.setMailbox id { m with readership := .claimed })
    else .error (.io ("queue '" ++ name ++ "' already has a consumer"))

/-- Takes the next envelope from a mailbox, passing over what does not parse. -/
def receive (b : Broker) (id : MailboxId) : Arrival × Broker :=
  match b.mailboxes[id.index]? with
  | none => (.ended, b)
  | some m =>
    match nextEnvelope? m.waiting with
    | some (e, rest) => (.envelope e, b.setMailbox id { m with waiting := rest })
    | none => (if m.live then .nothing else .ended, b.setMailbox id { m with waiting := [] })

/-- How many messages wait in a mailbox. -/
def waitingCount (b : Broker) (id : MailboxId) : Nat :=
  (b.mailboxes[id.index]?.getD {}).waiting.length

/-- Reads a mailbox so many times, or until there is nothing or the end, and says whether the end
    was seen. -/
def receiveUpTo (b : Broker) (id : MailboxId) : Nat → List Envelope × Bool × Broker
  | 0 => ([], false, b)
  | n + 1 =>
    match b.receive id with
    | (.envelope e, b) =>
      let (es, ended, b) := b.receiveUpTo id n
      (e :: es, ended, b)
    | (.nothing, b) => ([], false, b)
    | (.ended, b) => ([], true, b)

/-- Stops reading a mailbox for good. -/
def dropReader (b : Broker) (id : MailboxId) : Broker :=
  match b.mailboxes[id.index]? with
  | none => b
  | some m => b.setMailbox id { m with waiting := [], readership := .abandoned }

/-- Starts watching for deleted queues. -/
def watch (b : Broker) (pattern : String) : WatcherId × Broker :=
  (⟨b.nextWatcher⟩,
    { b with
      watchers := b.watchers.insert b.nextWatcher { pattern }
      nextWatcher := b.nextWatcher + 1 })

/-- Takes the next name from a watcher. -/
def departure? (b : Broker) (id : WatcherId) : Option (String × Broker) :=
  match b.watchers[id.index]? with
  | none => none
  | some w =>
    match w.departures with
    | [] => none
    | name :: rest =>
      some (name, { b with watchers := b.watchers.insert id.index { w with departures := rest } })

/-- Takes names from a watcher, so many at most. -/
def departuresUpTo (b : Broker) (id : WatcherId) : Nat → List String × Broker
  | 0 => ([], b)
  | n + 1 =>
    match b.departure? id with
    | some (name, b) =>
      let (names, b) := b.departuresUpTo id n
      (name :: names, b)
    | none => ([], b)

/-- How many names wait for a watcher. -/
def departureCount (b : Broker) (id : WatcherId) : Nat :=
  (b.watchers[id.index]?.map fun w => w.departures.length).getD 0

/-- Stops watching. -/
def dropWatcher (b : Broker) (id : WatcherId) : Broker :=
  match b.watchers[id.index]? with
  | none => b
  | some w =>
    { b with watchers := b.watchers.insert id.index { w with departures := [], listening := false } }

/-! ## When operations go through -/

/-- A queue can be created exactly when no queue of that name exists. -/
theorem create_ok_iff (b : Broker) (name : String) :
    (∃ b', b.create name = .ok b') ↔ b.hasQueue name = false := by
  simp only [create, hasQueue]
  cases h : b.queues.contains name <;> simp

/-- A queue takes bytes exactly when it exists and its reader has not left. -/
theorem sendRaw_ok_iff (b : Broker) (name : String) (bytes : Bytes) :
    (∃ b', b.sendRaw name bytes = .ok b') ↔
      ∃ id m, b.mailbox? name = some (id, m) ∧ m.readership ≠ .abandoned := by
  simp only [sendRaw]
  cases hm : b.mailbox? name with
  | none => simp
  | some p =>
    obtain ⟨id, m⟩ := p
    by_cases hr : m.readership = .abandoned
    · simp [hr]
    · simp only [hr, if_false, Except.ok.injEq, Option.some.injEq, Prod.mk.injEq]
      exact ⟨fun _ => ⟨id, m, ⟨rfl, rfl⟩, hr⟩, fun _ => ⟨_, rfl⟩⟩

end Broker

end StreamRpc
