import Std.Data.HashSet
import StreamRpc.World.Basic

/-! # Taking turns

Tasks run one at a time.  Those that can go on stand in a queue, in the order in which they became
able to, and each takes a turn: it goes on until it has to wait.  So whatever one turn sets going is
there together when the next task looks, and a client whose pump has read many messages tells the
server about all streams that they release at once.

* `Agenda.note_of_noted`   a task stands in the queue only once
-/

namespace StreamRpc

/-- Tasks that are to take a turn, in the order in which they became able to go on. -/
structure Agenda where
  queue : Std.Queue Task := .empty
  /-- The tasks in the queue and the one whose turn it is. -/
  noted : Std.HashSet Task := ∅

namespace Agenda

/-- Puts a task at the end of the queue, unless it is noted already. -/
def note (a : Agenda) (t : Task) : Agenda :=
  if a.noted.contains t then a
  else { queue := a.queue.enqueue t, noted := a.noted.insert t }

/-- A task that is noted already keeps its place. -/
theorem note_of_noted (a : Agenda) (t : Task) (h : a.noted.contains t = true) : a.note t = a := by
  simp [note, h]

/-- The task whose turn is next. -/
def next? (a : Agenda) : Option (Task × Agenda) :=
  a.queue.dequeue?.map fun (t, queue) => (t, { a with queue })

/-- The turn of a task is over. -/
def finish (a : Agenda) (t : Task) : Agenda :=
  { a with noted := a.noted.erase t }

def ofList (ts : List Task) : Agenda :=
  ts.foldl note {}

/-- Notes those of the tasks that can go on. -/
def noteAble (w : World) (a : Agenda) (ts : List Task) : Agenda :=
  ts.foldl (fun a t => if !a.noted.contains t && w.able t then a.note t else a) a

end Agenda

namespace World

/-! ## Turns -/

/-- How many steps tasks may take before they are taken to go on for ever. -/
def patience : Nat := 1000000000

/-- How many messages a task may receive in one turn. -/
def longestTurn : Nat := 128

/-- How many messages the next step of a task receives. -/
def receipts (w : World) : Task → Nat
  | .pump client => if (w.clients[client]?).any (·.arrived.isNone) then 1 else 0
  | .serve _ => 1
  | .departure _ => 1
  | _ => 0

/-- The tasks that a server has started since it looked like this. -/
def startedTasks (server : Nat) (before after : Server) : List Task :=
  (List.range' before.nextTask (after.nextTask - before.nextTask)).map fun n =>
    if after.handlings.contains n then .handle server n else .forward server n

/-- The tasks that a step may have set going.  Requests and streams that were there before are left
    out, as looking at each of them takes long: they wait for the clock and for publishers, which no
    step moves, and a stream that was retired has nothing more to say. -/
def stirredTasks (before after : World) : List Task :=
  after.standingTasks ++
    ((before.servers.zip after.servers).zipIdx.flatMap fun ((s, s'), i) => startedTasks i s s')

/-- Lets a task take its turn: it goes on, for so many steps at most, until it has to wait or has
    received so many messages.  In the latter case it goes to the end of the queue.  After each step
    the tasks are noted that it has set going. -/
def takeTurn (t : Task) : (fuel left : Nat) → Agenda → World → Agenda × World
  | 0, _, a, w => (a.finish t, w)
  | fuel + 1, left, a, w =>
    let n := w.receipts t
    if left < n then ((a.finish t).note t, w)
    else
      match w.run? t with
      | none => (a.finish t, w)
      | some w' => takeTurn t fuel (left - n) (a.noteAble w' (w.stirredTasks w')) w'

/-- Lets tasks take so many turns at most.  Once nobody is noted, all tasks are looked at. -/
def takeTurns : Nat → Agenda → World → World
  | 0, _, w => w
  | fuel + 1, a, w =>
    match a.next? with
    | some (t, a) =>
      let (a, w) := takeTurn t patience longestTurn a w
      takeTurns fuel a w
    | none =>
      match w.ableTasks with
      | [] => w
      | ts => takeTurns fuel (.ofList ts) w

/-- Lets tasks go on until all of them have to wait.  Some may have become able to go on in this
    order; they go first. -/
def settle (w : World) (awake : List Task := []) : World :=
  takeTurns patience (.ofList awake) w

/-! ## Time -/

/-- When something goes on by itself. -/
def alarms (w : World) : List Nat :=
  w.servers.flatMap Server.alarms ++ w.calls.filterMap Calling.alarm?

/-- The next time at which something goes on by itself, up to a time. -/
def nextAlarm? (w : World) (till : Nat) : Option Nat :=
  (w.alarms.filter fun t => decide (w.clock < t) && decide (t ≤ till)).min?

/-- Lets the clock run up to a time, and tasks go on whenever it stops on the way. -/
def runUntil (till : Nat) : Nat → World → World
  | 0, w => w
  | fuel + 1, w =>
    match w.nextAlarm? till with
    | some t => runUntil till fuel { w with clock := t }.settle
    | none => { w with clock := till }.settle

/-- Lets some time pass.  The clock does not move before all tasks have to wait for it. -/
def elapse (ms : Nat) (w : World) (awake : List Task := []) : World :=
  runUntil (w.clock + ms) (ms + 1) (w.settle awake)

end World

end StreamRpc
