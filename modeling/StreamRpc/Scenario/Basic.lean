import StreamRpc.Call.Script
import StreamRpc.Scenario.Answer
import StreamRpc.Scenario.Peer
import StreamRpc.World.Action

/-! # Scenarios

A scenario is a list of steps that are done to a world: servers are started, clients connected,
calls made, channels fed, and raw peers listen on queues of their own.  After a step everything goes
on until it has to wait for the clock, and then what can be seen is reported.

This module says what the steps and the reports are.
-/

namespace StreamRpc

open Wire (Bytes)

namespace Scenario

/-- What is done to the world. -/
inductive Step where
  | startServer (methods : List (String × Script)) (config : ServerConfig)
  /-- Stops the server and deletes its queue. -/
  | shutdown
  /-- Stops the server. -/
  | dropServer
  /-- Retires a stream of the server. -/
  | retire (id : StreamId)
  /-- A raw peer makes a queue and reads it. -/
  | listen (queue : String) (side : Side)
  | stopReading (queue : String)
  | deleteQueue (queue : String)
  | hasQueue (queue : String)
  /-- A raw peer sends what a client would send. -/
  | sendAsClient (queue : String) (m : ClientMessage)
  /-- A raw peer sends what a server would send. -/
  | sendAsServer (queue : String) (m : ServerMessage)
  | sendEnvelope (queue : String) (e : Envelope)
  | sendRaw (queue : String) (bytes : Bytes)
  /-- A call to the queues will fail. -/
  | fault (f : Fault)
  | connect (nickname : String) (config : ClientConfig)
  /-- Sends a call at once. -/
  | submit (client label method : String) (args : List PlainValue)
  /-- Makes a call that waits for a value. -/
  | call (client label method : String) (args : List PlainValue)
  /-- Makes a call that waits for a stream. -/
  | observe (client label method : String) (args : List PlainValue)
  | dropCall (label : String)
  | closeClient (client : String)
  /-- Drops a client; its queue is deleted if it is tidy. -/
  | dropClient (client : String) (tidy : Bool)
  /-- Reads a handle. -/
  | receive (handle : Nat) (max? : Option Nat)
  | dropHandles (handles : List Nat)
  /-- Shows a handle. -/
  | inspect (handle : Nat)
  /-- Pushes a value. -/
  | publish (p : PublisherId) (v : DraftValue)
  /-- Pushes a failure or the completion and drops the publisher. -/
  | finish (p : PublisherId) (n : Notification ServerValue)
  | dropPublisher (p : PublisherId)
  | clonePublisher (p : PublisherId)
  | inspectPublisher (p : PublisherId)
  /-- Gives numbers to the streams in a value, and keeps the subscriptions. -/
  | expose (client nickname : String) (v : DraftValue)
  /-- Starts subscriptions that were kept. -/
  | start (client nickname : String)
  /-- Answers a call. -/
  | reply (client : String) (id : CallId) (result : Except Failure DraftValue)
  | retireExposed (id : StreamId)
  | retireClient (client : String)
  | advance (ms : Nat)
  | rest

/-- The outcome of a call in a report. -/
inductive Outcome where
  | value (v : NumberedValue)
  | stream (h : NumberedHandle)
  | error (e : CallError)

/-- The streams that are active and the clients that have them. -/
structure Activity where
  active : Nat
  clients : Nat

/-- What can be seen of a client that is still held. -/
structure Standing where
  pending : Nat
  opened : Nat
  connected : Bool

/-- What can be seen of a session. -/
structure SessionState where
  nickname : String
  /-- Whether its reply queue exists. -/
  queue : Bool
  /-- Its streams that are active on the server, once there is one. -/
  active : Option Nat
  standing : Option Standing

/-- What can be seen of the world. -/
structure WorldState where
  queues : Nat
  server : Option Activity
  bench : Option Activity
  sessions : List SessionState

/-- What has happened since the last report. -/
structure Report where
  /-- The calls that ended, in the order in which they were made. -/
  done : List (String × Outcome)
  /-- What arrived at raw peers, in the order of their queues. -/
  arrivals : List (String × Side × Arrivals)
  state : WorldState

/-- A call that has not been reported. -/
structure Tracked where
  label : String
  /-- Which call of the world it is. -/
  call : Nat

/-- A client under its nickname. -/
structure Member where
  nickname : String
  /-- Which client of the world it is. -/
  client : Nat

end Scenario

/-- Whose handle it is. -/
structure OwnedHandle where
  client : Nat
  handle : Handle
  deriving DecidableEq, Repr, Inhabited

/-- A world and what a scenario remembers about it. -/
structure Scenario where
  world : World := {}
  /-- The tasks that steps have set going, in this order, since everything last came to rest. -/
  awake : List Task := []
  /-- The latest server. -/
  server : Option Nat := none
  /-- Whether the latest server is still held. -/
  serverHeld : Bool := false
  /-- The server that only passes on what it is told to. -/
  bench : Option Nat := none
  /-- Subscriptions that are kept. -/
  kept : List (String × List Subscription) := []
  peers : Std.ExtTreeMap String Peer := ∅
  /-- All clients so far. -/
  members : List Scenario.Member := []
  /-- How many addresses have been given out. -/
  tokens : Nat := 0
  /-- All calls that have not been reported, in the order in which they were made. -/
  tracked : List Scenario.Tracked := []
  handles : Numbering OwnedHandle := {}

end StreamRpc
