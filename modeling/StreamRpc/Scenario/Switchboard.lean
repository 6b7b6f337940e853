import StreamRpc.Queue.Broker
import StreamRpc.Scenario.Answer

/-! # Steps with a broker

Readers and watchers are known by names of their own.
-/

namespace StreamRpc

open Wire (Bytes)

/-- A broker with readers and watchers by name. -/
structure Switchboard where
  broker : Broker := {}
  readers : Std.ExtTreeMap String MailboxId := ∅
  watchers : Std.ExtTreeMap String WatcherId := ∅

namespace Switchboard

/-- What is done to a broker. -/
inductive Step where
  | create (queue : String)
  | delete (queue : String)
  | send (queue : String) (e : Envelope)
  | sendRaw (queue : String) (bytes : Bytes)
  | has (queue : String)
  | consume (queue name : String)
  | watch (pattern name : String)
  | receive (name : String) (max? : Option Nat)
  | departures (name : String) (max? : Option Nat)
  /-- Drops a reader or a watcher. -/
  | drop (name : String)

/-- Drops a reader or a watcher, and says whether there was one. -/
def drop (s : Switchboard) (name : String) : Bool × Switchboard :=
  match s.readers[name]?, s.watchers[name]? with
  | some id, _ =>
    (true, { s with broker := s.broker.dropReader id, readers := s.readers.erase name })
  | none, some id =>
    (true, { s with broker := s.broker.dropWatcher id, watchers := s.watchers.erase name })
  | none, none => (false, s)

/-- Changes the broker, if it does not refuse. -/
def change (s : Switchboard) (r : Except TransportError Broker) : Answer × Switchboard :=
  Answer.ofTransport s (r.map fun broker => { s with broker })

/-- Takes a step. -/
def take (s : Switchboard) : Step → Answer × Switchboard
  | .create queue => s.change (s.broker.create queue)
  | .delete queue => s.change (s.broker.delete queue)
  | .send queue e => s.change (s.broker.send queue e)
  | .sendRaw queue bytes => s.change (s.broker.sendRaw queue bytes)
  | .has queue => (.flag (s.broker.hasQueue queue), s)
  | .consume queue name =>
    match s.broker.consume queue with
    | .error e => (.refused e, s)
    | .ok (id, broker) =>
      let (_, s) := { s with broker }.drop name
      (.done, { s with readers := s.readers.insert name id })
  | .watch pattern name =>
    let (id, broker) := s.broker.watch pattern
    let (_, s) := { s with broker }.drop name
    (.done, { s with watchers := s.watchers.insert name id })
  | .receive name max? =>
    match s.readers[name]? with
    | none => (.gone, s)
    | some id =>
      let (es, ended, broker) :=
        s.broker.receiveUpTo id (max?.getD (s.broker.waitingCount id + 1))
      (.envelopes es ended, { s with broker })
  | .departures name max? =>
    match s.watchers[name]? with
    | none => (.gone, s)
    | some id =>
      let (names, broker) := s.broker.departuresUpTo id (max?.getD (s.broker.departureCount id))
      (.departures names, { s with broker })
  | .drop name =>
    let (was, s) := s.drop name
    (.flag was, s)

end Switchboard

end StreamRpc
