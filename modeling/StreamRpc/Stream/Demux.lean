import Std.Data.ExtTreeMap
import StreamRpc.Message
import StreamRpc.Stream.Weight

/-! # Handles

The client's end of streams.  Every stream that the server introduces gets a handle with an inbox
of its own, and what happens on the stream is put into the inbox that is open under its number.
Dropping a handle takes its stream off the open ones and asks for it to be closed on the server;
then it drops the unread notifications with all the handles in them.

The streams to be closed wait in `released`, in the order they were released.

* `Demux.dropAll_not_held`      a dropped handle has no inbox any more
* `Demux.isOpen_release`        releasing takes out one stream and no other
-/

namespace StreamRpc

/-- Receives one stream.  A stream that is introduced twice has two handles. -/
structure Handle where
  key : Nat
  id : StreamId
  deriving DecidableEq, Repr, Inhabited

/-- A value as the client sees it. -/
abbrev ClientValue := Value Handle

/-- The handles in a notification. -/
def Notification.handles : Notification ClientValue → List Handle
  | next v => v.slots
  | _ => []

/-- What has arrived for a handle. -/
structure Inbox where
  /-- Not yet read, oldest first. -/
  unread : List (Notification ClientValue) := []
  /-- Whether the end has been read. -/
  done : Bool := false
  deriving Inhabited

/-- The handles in what has not been read. -/
def Inbox.held (box : Inbox) : List Handle :=
  box.unread.flatMap Notification.handles

/-- What reading a handle comes to. -/
inductive Reading where
  | notification (n : Notification ClientValue)
  /-- There is nothing more to come. -/
  | ended
  /-- Nothing now. -/
  | nothing

/-- The handles of one session. -/
structure Demux where
  /-- The streams that are open, each with the handle that receives it. -/
  opened : Std.ExtTreeMap StreamId Nat := ∅
  /-- The inboxes of the handles that have not been dropped. -/
  inboxes : Std.ExtTreeMap Nat Inbox := ∅
  /-- The key of the next handle. -/
  nextKey : Nat := 0
  /-- The streams to be closed on the server, oldest first. -/
  released : List StreamId := []

namespace Demux

/-- How many streams are open. -/
def openCount (d : Demux) : Nat :=
  d.opened.size

def isOpen (d : Demux) (id : StreamId) : Bool :=
  d.opened.contains id

/-- Makes the handle of a stream that has just been introduced. -/
def introduce (d : Demux) (id : StreamId) : Handle × Demux :=
  ({ key := d.nextKey, id },
    { d with
      opened := d.opened.insert id d.nextKey
      inboxes := d.inboxes.insert d.nextKey {}
      nextKey := d.nextKey + 1 })

/-- Makes handles for all streams in a value, depth first. -/
def attach (d : Demux) (v : WireValue) : ClientValue × Demux :=
  StateT.run (v.traverse (m := StateM Demux) fun id d => d.introduce id) d

/-- Takes a stream off the open ones and asks for it to be closed on the server. -/
def release (d : Demux) (id : StreamId) : Demux :=
  if d.opened.contains id then
    { d with opened := d.opened.erase id, released := d.released ++ [id] }
  else d

/-- Drops handles in turn: each releases its own stream, and then the handles in what it has not
    read are dropped. -/
def dropAll (d : Demux) : List Handle → Demux
  | [] => d
  | h :: hs =>
    match _found : d.inboxes[h.key]? with
    | none => d.dropAll hs
    | some box =>
      { d.release h.id with inboxes := d.inboxes.erase h.key }.dropAll (box.held ++ hs)
termination_by hs => weight (fun box => box.held.length + 1) d.inboxes + hs.length
decreasing_by
  · simp
  · rw [weight_erase _ _found, List.length_append, List.length_cons]
    omega

/-- Drops a handle. -/
def drop (d : Demux) (h : Handle) : Demux :=
  d.dropAll [h]

/-- Dropping one handle, but not what it has not read. -/
def dropOne (d : Demux) (h : Handle) : Demux :=
  { d.release h.id with inboxes := d.inboxes.erase h.key }

/-- A handle with no inbox is skipped: it has been dropped before. -/
theorem dropAll_of_absent {d : Demux} {h : Handle} (absent : d.inboxes[h.key]? = none)
    (hs : List Handle) : d.dropAll (h :: hs) = d.dropAll hs := by
  rw [dropAll]
  split
  · rfl
  · next hbox => rw [absent] at hbox; cases hbox

/-- Dropping a handle with an inbox puts the handles unread in it on top of the stack. -/
theorem dropAll_of_found {d : Demux} {h : Handle} {box : Inbox}
    (found : d.inboxes[h.key]? = some box) (hs : List Handle) :
    d.dropAll (h :: hs) = (d.dropOne h).dropAll (box.held ++ hs) := by
  rw [dropAll]
  split
  · next hnone => rw [found] at hnone; cases hnone
  · next box' hbox =>
    obtain rfl := Option.some.inj (found.symm.trans hbox)
    rfl

/-- What is shown of dropping one handle at a time, those that it has not read after it, holds of
    dropping all of them. -/
theorem dropAll_induct {motive : Demux → List Handle → Prop} (nil : ∀ d, motive d [])
    (absent : ∀ d h hs, d.inboxes[h.key]? = none → motive d hs → motive d (h :: hs))
    (found : ∀ d h hs box, d.inboxes[h.key]? = some box →
      motive (d.dropOne h) (box.held ++ hs) → motive d (h :: hs)) (d : Demux) (hs : List Handle) :
    motive d hs :=
  dropAll.induct motive nil absent found d hs

/-- Puts a notification into an inbox, or drops it if the handle is gone. -/
def deliver (d : Demux) (key : Nat) (n : Notification ClientValue) : Bool × Demux :=
  match d.inboxes[key]? with
  | some box =>
    (true, { d with inboxes := d.inboxes.insert key { box with unread := box.unread ++ [n] } })
  | none => (false, d.dropAll n.handles)

/-- Makes handles for all streams in a notification. -/
def attachEvent (d : Demux) : Notification WireValue → Notification ClientValue × Demux
  | .next v =>
    let (v, d) := d.attach v
    (.next v, d)
  | .error f => (.error f, d)
  | .completed => (.completed, d)

/-- Passes on what happened on a stream, and says whether the stream was open.  The streams that
    the notification introduces are opened first, so that dropping it closes them. -/
def observe (d : Demux) (id : StreamId) (event : Notification WireValue) : Bool × Demux :=
  let (n, d) := d.attachEvent event
  match d.opened[id]? with
  | none => (false, d.dropAll n.handles)
  | some key =>
    if n.terminal then { d with opened := d.opened.erase id }.deliver key n
    else d.deliver key n

/-- Whether something may still arrive for a handle. -/
def fed (d : Demux) (h : Handle) : Bool :=
  d.opened[h.id]? = some h.key

/-- Reads the next notification of a handle. -/
def read (d : Demux) (h : Handle) : Reading × Demux :=
  match d.inboxes[h.key]? with
  | none => (.ended, d)
  | some box =>
    if box.done then (.ended, d)
    else
      match box.unread with
      | n :: unread =>
        (.notification n,
          { d with inboxes := d.inboxes.insert h.key { unread, done := n.terminal } })
      | [] =>
        if d.fed h then (.nothing, d)
        else (.ended, { d with inboxes := d.inboxes.insert h.key { done := true } })

/-- How many notifications of a handle have not been read. -/
def unreadCount (d : Demux) (h : Handle) : Nat :=
  (d.inboxes[h.key]?.getD {}).unread.length

/-- Reads a handle so many times, or until there is nothing or the end, and says whether the end was
    seen. -/
def readUpTo (d : Demux) (h : Handle) : Nat → List (Notification ClientValue) × Bool × Demux
  | 0 => ([], false, d)
  | n + 1 =>
    match d.read h with
    | (.notification x, d) =>
      let (xs, ended, d) := d.readUpTo h n
      (x :: xs, ended, d)
    | (.nothing, d) => ([], false, d)
    | (.ended, d) => ([], true, d)

/-- Whether the end of a handle's stream has been read. -/
def done (d : Demux) (h : Handle) : Bool :=
  (d.inboxes[h.key]?.getD {}).done

/-- How a handle is shown. -/
def display (d : Demux) (h : Handle) : String :=
  "Observable \x7b id: ObservableId(" ++ Nat.repr h.id.val.toNat ++ "), done: " ++
    toString (d.done h) ++ " \x7d"

/-- Puts a failure into the inboxes of streams. -/
def failEach (d : Demux) (f : Failure) : List StreamId → Demux
  | [] => d
  | id :: ids =>
    match d.opened[id]? with
    | none => d.failEach f ids
    | some key => ({ d with opened := d.opened.erase id }.deliver key (.error f)).2.failEach f ids

/-- Ends every open stream with a failure, without asking for it to be closed. -/
def failAll (d : Demux) (f : Failure) : Demux :=
  d.failEach f d.opened.keys

/-- Takes all the streams that are to be closed. -/
def takeReleased (d : Demux) : List StreamId × Demux :=
  (d.released, { d with released := [] })

/-! ## What reading does -/

/-- What reading a handle comes to. -/
inductive Reads (d : Demux) (h : Handle) : Reading → Demux → Prop where
  /-- The handle was dropped, or has come to its end before. -/
  | ended (gone : ∀ box, d.inboxes[h.key]? = some box → box.done = true) : Reads d h .ended d
  | nothing {box : Inbox} (found : d.inboxes[h.key]? = some box) (going : box.done = false)
      (empty : box.unread = []) (fed : d.opened[h.id]? = some h.key) : Reads d h .nothing d
  | item {box : Inbox} {n : Notification ClientValue} {unread : List (Notification ClientValue)}
      (found : d.inboxes[h.key]? = some box) (going : box.done = false)
      (waiting : box.unread = n :: unread) :
      Reads d h (.notification n)
        { d with inboxes := d.inboxes.insert h.key { unread, done := n.terminal } }
  /-- Nothing is left, and nothing more will come. -/
  | last {box : Inbox} (found : d.inboxes[h.key]? = some box) (going : box.done = false)
      (empty : box.unread = []) (unfed : d.opened[h.id]? ≠ some h.key) :
      Reads d h .ended { d with inboxes := d.inboxes.insert h.key { done := true } }

/-- A read ends in one of the ways `Reads` lists. -/
theorem reads (d : Demux) (h : Handle) : ∃ r d', d.read h = (r, d') ∧ Reads d h r d' := by
  refine ⟨(d.read h).1, (d.read h).2, rfl, ?_⟩
  unfold read
  split
  · next absent =>
    refine .ended fun box found => ?_
    rw [absent] at found
    cases found
  · next box found =>
    split
    · next done =>
      refine .ended fun other hother => ?_
      obtain rfl := Option.some.inj (found.symm.trans hother)
      exact done
    · next going =>
      rw [Bool.not_eq_true] at going
      split
      · next waiting => exact .item found going waiting
      · next empty =>
        split
        · next fed => exact .nothing found going empty (by simpa [Demux.fed] using fed)
        · next unfed => exact .last found going empty (by simpa [Demux.fed] using unfed)

/-! ## What failing does -/

/-- The failure of one stream, which is closed before its handle gets the failure. -/
def failOne (d : Demux) (f : Failure) (id : StreamId) : Demux :=
  match d.opened[id]? with
  | none => d
  | some key => ({ d with opened := d.opened.erase id }.deliver key (.error f)).2

/-- Failing a list of ids fails its first one and then the others. -/
theorem failEach_cons (d : Demux) (f : Failure) (id : StreamId) (ids : List StreamId) :
    d.failEach f (id :: ids) = (d.failOne f id).failEach f ids := by
  rw [failEach, failOne]
  cases d.opened[id]? <;> rfl

/-- Failing an id that is not open changes nothing. -/
theorem failOne_of_shut {d : Demux} {id : StreamId} (shut : d.opened[id]? = none) (f : Failure) :
    d.failOne f id = d := by
  simp only [failOne, shut]

/-- Failing an open id removes its registration and queues the failure for its handle. -/
theorem failOne_of_open {d : Demux} {id : StreamId} {key : Nat} {box : Inbox}
    (ho : d.opened[id]? = some key) (found : d.inboxes[key]? = some box) (f : Failure) :
    d.failOne f id = { d with
      opened := d.opened.erase id
      inboxes := d.inboxes.insert key { box with unread := box.unread ++ [.error f] } } := by
  simp only [failOne, ho, deliver, found]

/-! ## What dropping does -/

/-- Releasing an id leaves every inbox as it is. -/
@[simp] theorem inboxes_release (d : Demux) (id : StreamId) :
    (d.release id).inboxes = d.inboxes := by
  unfold release; split <;> rfl

/-- Releasing takes out one stream and no other. -/
theorem isOpen_release (d : Demux) (id other : StreamId) :
    (d.release id).isOpen other = (d.isOpen other && other != id) := by
  by_cases ho : other = id
  · subst ho
    unfold release isOpen
    split
    · simp
    · rename_i hn
      simpa only [bne_self_eq_false, Bool.and_false, Bool.not_eq_true] using hn
  · have hc : (compare id other != .eq) = true := by
      simpa using fun hc => ho (Std.LawfulEqOrd.eq_of_compare hc).symm
    have ho' : (other != id) = true := by simpa using ho
    unfold release isOpen
    split
    · simp only [Std.ExtTreeMap.contains_erase, hc, ho', Bool.true_and, Bool.and_true]
    · simp [ho']

/-- Whether a handle has not been dropped. -/
def held (d : Demux) (h : Handle) : Bool :=
  d.inboxes.contains h.key

/-- A handle still in somebody's hands after a cascade was there before it. -/
theorem held_of_held_dropAll (d : Demux) (hs : List Handle) (h : Handle)
    (hh : (d.dropAll hs).held h = true) : d.held h = true := by
  induction d, hs using dropAll_induct with
  | nil d => simpa [dropAll] using hh
  | absent d g hs hg ih => exact ih (dropAll_of_absent hg hs ▸ hh)
  | found d g hs box hg ih =>
    have hone : (d.dropOne g).held h = true := ih (dropAll_of_found hg hs ▸ hh)
    simp only [held, dropOne, Std.ExtTreeMap.contains_erase, Bool.and_eq_true] at hone ⊢
    exact hone.2

/-- A dropped handle has no inbox any more. -/
theorem dropAll_not_held (d : Demux) (hs : List Handle) (h : Handle) (hm : h ∈ hs) :
    (d.dropAll hs).held h = false := by
  induction d, hs using dropAll_induct with
  | nil d => simp at hm
  | absent d g hs hg ih =>
    rw [dropAll_of_absent hg]
    rcases List.mem_cons.1 hm with rfl | hm
    · refine Bool.eq_false_iff.2 fun hh => ?_
      have := held_of_held_dropAll d hs h hh
      simp [held, Std.ExtTreeMap.contains_eq_isSome_getElem?, hg] at this
    · exact ih hm
  | found d g hs box hg ih =>
    rw [dropAll_of_found hg]
    rcases List.mem_cons.1 hm with rfl | hm
    · -- It is gone before what it has not read is dropped, and that makes no inbox.
      refine Bool.eq_false_iff.2 fun hh => ?_
      have := held_of_held_dropAll _ _ h hh
      simp [held, dropOne] at this
    · exact ih (List.mem_append_right _ hm)

end Demux

end StreamRpc
