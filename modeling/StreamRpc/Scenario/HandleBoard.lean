import StreamRpc.Scenario.Answer

/-! # Steps with the handles of one session

Handles are known by number.
-/

namespace StreamRpc

/-- The handles of one session, by number. -/
structure HandleBoard where
  demux : Demux := {}
  given : Numbering Handle := {}

namespace HandleBoard

/-- What is done with handles. -/
inductive Step where
  /-- A stream is introduced. -/
  | introduce (id : StreamId)
  /-- A value with streams arrives. -/
  | attach (v : WireValue)
  /-- A value with streams arrives and is dropped at once. -/
  | attachDrop (v : WireValue)
  /-- Something happens on a stream. -/
  | observe (id : StreamId) (event : Notification WireValue)
  | read (handle : Nat) (max? : Option Nat)
  | drop (handles : List Nat)
  /-- Shows a handle. -/
  | inspect (handle : Nat)
  | release (id : StreamId)
  | failAll (f : Failure)
  /-- Takes the streams that are to be closed. -/
  | batch
  deriving Inhabited

/-- Hands out handles. -/
def handOut {α : Type} (b : HandleBoard) (run : StateM (Numbering Handle) α) : α × HandleBoard :=
  let (a, given) := StateT.run run b.given
  (a, { b with given })

/-- Reads a handle and hands out the handles in what it gives. -/
def read (b : HandleBoard) (handle : Nat) (max? : Option Nat) : Answer × HandleBoard :=
  match b.given.get? handle with
  | none => (.gone, b)
  | some h =>
    let (items, ended, demux) := b.demux.readUpTo h (max?.getD (b.demux.unreadCount h + 1))
    let (items, b) := { b with demux }.handOut (Numbering.handOutEvents id items)
    (.reading items ended, b)

/-- Drops handles in turn, and counts those that were there. -/
def drop (b : HandleBoard) : List Nat → Nat × HandleBoard
  | [] => (0, b)
  | i :: is =>
    match b.given.get? i with
    | none => b.drop is
    | some h =>
      let (n, b) := drop { demux := b.demux.drop h, given := b.given.take i } is
      (n + 1, b)

/-- Drops handles that nobody was given. -/
def dropUngiven (b : HandleBoard) (hs : List Handle) : HandleBoard :=
  { b with demux := b.demux.dropAll hs }

/-- Takes a step. -/
def take (b : HandleBoard) : Step → Answer × HandleBoard
  | .introduce id =>
    let (h, demux) := b.demux.introduce id
    let (h, b) := { b with demux }.handOut (Numbering.handOut (fun h => h) h)
    (.handle h, b)
  | .attach v =>
    let (v, demux) := b.demux.attach v
    let (v, b) := { b with demux }.handOut (Numbering.handOutValue id v)
    (.value v, b)
  | .attachDrop v =>
    let (v, demux) := b.demux.attach v
    (.dropped, { b with demux }.dropUngiven v.slots)
  | .observe id event =>
    let (was, demux) := b.demux.observe id event
    (.flag was, { b with demux })
  | .read handle max? => b.read handle max?
  | .drop handles =>
    let (n, b) := b.drop handles
    (.count n, b)
  | .inspect handle =>
    match b.given.get? handle with
    | some h => (.text (b.demux.display h), b)
    | none => (.nothing, b)
  | .release id => (.released, { b with demux := b.demux.release id })
  | .failAll f => (.failing, { b with demux := b.demux.failAll f })
  | .batch =>
    let (ids, demux) := b.demux.takeReleased
    (if ids.isEmpty then .nothing else .streams ids, { b with demux })

end HandleBoard

end StreamRpc
