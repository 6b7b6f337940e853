import StreamRpc.Proofs.Call.Overlap
import StreamRpc.Proofs.Client.Effects

/-! # Operations on a session that overlap

What is done to a session is not done at one stroke either.  The pump makes the handles for a message
one by one, looks for the stream that the message is about, and puts the notification into the inbox
that it found.  Ending the session asks whether it has been ended before, fails the calls, looks which
streams are open, and then takes these off one by one and tells each handle.  Handles are dropped one
after another.  Between any two of these steps others may take theirs.

An `Office` is the session of a client with all operations that have begun on it.  Its calls are at a
`Desk`.  An answer or a failure is put on the ticket of a call when the call is taken off the pending
ones, as nobody else can put anything there any more.

* `Office.Step`              one access to what the operations share, with what can be told of it
* `Office.Goes`              steps of any operations in any order
* `Office.Shows.accept`      a message without disturbance is `Client.accept`
* `Office.Shows.resolve`     an answer without disturbance is `Client.resolve`
* `Office.Shows.disconnect`  ending a session without disturbance is `Client.disconnect`
-/

namespace StreamRpc

open Client (callAt)

/-- What the pump of a session is doing. -/
inductive Pumping where
  | idle
  /-- It makes handles for the streams that a message introduces, and has made these. -/
  | attaching (m : ServerMessage) (made : List Handle)
  /-- It holds on to an inbox, and puts a notification there next. -/
  | sending (key : Nat) (n : Notification ClientValue)

/-- The handles that the pump has in hand. -/
def Pumping.handles : Pumping → List Handle
  | idle => []
  | attaching _ made => made
  | sending _ n => n.handles

/-- How far the ending of a session has come. -/
inductive Disconnecting where
  /-- The session had not ended when it was asked. -/
  | asked
  /-- The calls are being failed. -/
  | calls (sweep : Nat)
  /-- It was looked which streams are open, and these are still to be taken off. -/
  | streams (left : List StreamId)
  /-- A stream has been taken off, and its handle is told next. -/
  | telling (key : Nat) (left : List StreamId)
  | finished

/-- The streams that are still to be taken off, once it was looked which are open. -/
def Disconnecting.left? : Disconnecting → Option (List StreamId)
  | asked | calls _ => none
  | streams left | telling _ left => some left
  | finished => some []

/-- The ending of a session that had not ended when it was asked. -/
structure Disconnection where
  reason : String
  stage : Disconnecting := .asked

/-- What handles are told when the session ends. -/
def Disconnection.failure (reason : String) : Failure :=
  { kind := .disconnected, message := reason }

/-- The session of a client with the operations on it. -/
structure Office where
  desk : Desk
  demux : Demux := {}
  pumping : Pumping := .idle
  disconnections : List Disconnection := []
  /-- The handles that are being dropped. -/
  falling : List Handle := []
  /-- Those of them whose streams have been released, but which still have their inboxes. -/
  fallen : List Handle := []

/-- What can be told of a step. -/
inductive OfficeEvent where
  | call (x : CallEvent)
  /-- The pump took a message off the reply queue. -/
  | took (m : ServerMessage)
  | introduced (h : Handle)
  /-- The pump looked for the handle of a stream, to pass something on. -/
  | routed (id : StreamId) (n : Notification ClientValue) (key? : Option Nat)
  /-- A disconnection took a stream off. -/
  | struck (disconnection : Nat) (id : StreamId)
  /-- A handle that is being dropped released its stream. -/
  | released (h : Handle)
  | yielded (h : Handle) (n : Notification ClientValue)

namespace OfficeEvent

def call? : OfficeEvent → Option CallEvent
  | call x => some x
  | _ => none

def stream? : OfficeEvent → Option StreamId
  | introduced h => some h.id
  | _ => none

def yield? (key : Nat) : OfficeEvent → Option (Notification ClientValue)
  | yielded h n => if key = h.key then some n else none
  | _ => none

end OfficeEvent

/-- What a run can tell, the oldest first. -/
abbrev OfficeTrace := List OfficeEvent

namespace OfficeTrace

/-- What was told of calls, in order. -/
def calls (tr : OfficeTrace) : CallTrace :=
  tr.filterMap OfficeEvent.call?

/-- The streams that handles were made for, in order. -/
def made (tr : OfficeTrace) : List StreamId :=
  tr.filterMap OfficeEvent.stream?

/-- What the handle with this key yielded, in order. -/
def yields (tr : OfficeTrace) (key : Nat) : List (Notification ClientValue) :=
  tr.filterMap (OfficeEvent.yield? key)

/-- A program has got a handle, with the outcome of a call or from another handle. -/
inductive Got (tr : OfficeTrace) : Handle → Prop where
  | collected {id : CallId} {v : ClientValue} {h : Handle}
      (told : .call (.collected id (.ok v)) ∈ tr) (hh : h ∈ v.slots) : Got tr h
  | yielded {g h : Handle} {n : Notification ClientValue} (told : .yielded g n ∈ tr)
      (hh : h ∈ n.handles) : Got tr h

/-- The desk's events are read off a trace piece by piece. -/
@[simp] theorem calls_append (tr tr' : OfficeTrace) : calls (tr ++ tr') = calls tr ++ calls tr' :=
  List.filterMap_append

/-- Handles made are read off a trace piece by piece. -/
@[simp] theorem made_append (tr tr' : OfficeTrace) : made (tr ++ tr') = made tr ++ made tr' :=
  List.filterMap_append

/-- What a handle yields is read off a trace piece by piece. -/
@[simp] theorem yields_append (tr tr' : OfficeTrace) (key : Nat) :
    yields (tr ++ tr') key = yields tr key ++ yields tr' key :=
  List.filterMap_append

/-- The desk's events are all of a trace of the desk. -/
@[simp] theorem calls_map_call (es : CallTrace) : calls (es.map .call) = es := by
  rw [calls, List.filterMap_map]
  exact List.filterMap_some

/-- The desk's events make no handle. -/
@[simp] theorem made_map_call (es : CallTrace) : made (es.map .call) = [] := by
  rw [made, List.filterMap_map]
  exact List.filterMap_none es

/-- The desk's events yield nothing. -/
@[simp] theorem yields_map_call (es : CallTrace) (key : Nat) : yields (es.map .call) key = [] := by
  rw [yields, List.filterMap_map]
  exact List.filterMap_none es

/-- An event is among the desk's when the trace has it. -/
theorem mem_calls {tr : OfficeTrace} {x : CallEvent} : x ∈ tr.calls ↔ .call x ∈ tr := by
  constructor
  · intro h
    obtain ⟨y, hy, heq⟩ := List.mem_filterMap.1 h
    cases y with
    | call => exact Option.some.inj heq ▸ hy
    | _ => cases heq
  · exact fun h => List.mem_filterMap.2 ⟨_, h, rfl⟩

/-- A handle the caller got stays so as the trace grows. -/
theorem Got.mono {tr tr' : OfficeTrace} {h : Handle} (got : tr.Got h) (sub : tr ⊆ tr') :
    tr'.Got h := by
  cases got with
  | collected told hh => exact .collected (sub told) hh
  | yielded told hh => exact .yielded (sub told) hh

end OfficeTrace

/-- What is left of a session that ends. -/
private theorem Client.disconnect_of_open {c : Client} (going : c.correlator.closed = false)
    (reason : String) :
    c.disconnect reason =
      { c with
        correlator := c.correlator.failAll (.connectionLost reason)
        demux := c.demux.failAll { kind := .disconnected, message := reason } } := by
  simp [disconnect, going]

namespace Office

/-- Nothing has begun yet. -/
def opened (serverQueue replyTo : String) : Office where
  desk := .opened serverQueue replyTo

/-- Notes how far a disconnection has come. -/
def advance (o : Office) (i : Nat) (reason : String) (stage : Disconnecting) : Office :=
  { o with disconnections := o.disconnections.set i { reason, stage } }

/-- A notification is on its way to an inbox. -/
inductive Brings (o : Office) (key : Nat) : Notification ClientValue → Prop where
  | sending {n : Notification ClientValue} (busy : o.pumping = .sending key n) : Brings o key n
  | telling {i : Nat} {reason : String} {left : List StreamId}
      (busy : o.disconnections[i]? = some { reason, stage := .telling key left }) :
      Brings o key (.error (Disconnection.failure reason))

/-- One step of the pump. -/
inductive Pumps (o : Office) : OfficeTrace → Office → Prop where
  /-- The reply queue may bring any message. -/
  | take (idle : o.pumping = .idle) (m : ServerMessage) :
      Pumps o [.took m] { o with pumping := .attaching m [] }
  | attach {m : ServerMessage} {hs : List Handle} {id : StreamId}
      (busy : o.pumping = .attaching m hs) (next : m.introduces[hs.length]? = some id) :
      Pumps o [.introduced (o.demux.introduce id).1]
        { o with
          demux := (o.demux.introduce id).2
          pumping := .attaching m (hs ++ [(o.demux.introduce id).1]) }
  | answer {id : CallId} {wire : Except Failure WireValue} {hs : List Handle}
      {result : Except Failure ClientValue} (busy : o.pumping = .attaching (.reply id wire) hs)
      (reads : result.map (Value.map Handle.id) = wire)
      (handles : (Ticket.resolved (result.mapError .remote)).handles = hs) :
      Pumps o [.call (.attempted id (.answer result) (o.desk.correlator.resolve id result).1)]
        { o with
          desk := { o.desk with correlator := (o.desk.correlator.resolve id result).2.2 }
          pumping := .idle
          falling := (o.desk.correlator.resolve id result).2.1 ++ o.falling }
  /-- The end of a stream takes it off the open ones. -/
  | route {id : StreamId} {event : Notification WireValue} {hs : List Handle}
      {n : Notification ClientValue} {key : Nat}
      (busy : o.pumping = .attaching (.observation id event) hs) (reads : n.onWire = event)
      (handles : n.handles = hs) (found : o.demux.opened[id]? = some key) :
      Pumps o [.routed id n (some key)]
        { o with
          demux := { o.demux with
            opened := if n.terminal then o.demux.opened.erase id else o.demux.opened }
          pumping := .sending key n }
  | reject {id : StreamId} {event : Notification WireValue} {hs : List Handle}
      {n : Notification ClientValue} (busy : o.pumping = .attaching (.observation id event) hs)
      (reads : n.onWire = event) (handles : n.handles = hs)
      (absent : o.demux.opened[id]? = none) :
      Pumps o [.routed id n none] { o with pumping := .idle, falling := hs ++ o.falling }
  | send {key : Nat} {n : Notification ClientValue} {box : Inbox}
      (busy : o.pumping = .sending key n) (found : o.demux.inboxes[key]? = some box) :
      Pumps o []
        { o with
          demux := { o.demux with
            inboxes := o.demux.inboxes.insert key { box with unread := box.unread ++ [n] } }
          pumping := .idle }
  /-- The handle has been dropped in the meantime. -/
  | miss {key : Nat} {n : Notification ClientValue} (busy : o.pumping = .sending key n)
      (absent : o.demux.inboxes[key]? = none) :
      Pumps o [] { o with pumping := .idle, falling := n.handles ++ o.falling }

/-- One step of a disconnection. -/
inductive Disconnects (o : Office) (i : Nat) : OfficeTrace → Office → Prop where
  | close {reason : String} (ready : o.disconnections[i]? = some { reason }) :
      Disconnects o i []
        { o.advance i reason (.calls o.desk.sweeps.length) with
          desk := { o.desk with
            correlator := o.desk.correlator.close
            sweeps := o.desk.sweeps ++ [{ error := .connectionLost reason }] } }
  | look {reason : String} {sweep : Nat} {e : CallError}
      (ready : o.disconnections[i]? = some { reason, stage := .calls sweep })
      (through : o.desk.sweeps[sweep]? = some { error := e, left := some [] }) :
      Disconnects o i [] (o.advance i reason (.streams o.demux.opened.keys))
  /-- The streams are taken off in any order. -/
  | strike {reason : String} {left : List StreamId} {id : StreamId} {key : Nat}
      (ready : o.disconnections[i]? = some { reason, stage := .streams left }) (next : id ∈ left)
      (found : o.demux.opened[id]? = some key) :
      Disconnects o i [.struck i id]
        { o.advance i reason (.telling key (left.erase id)) with
          demux := { o.demux with opened := o.demux.opened.erase id } }
  | skip {reason : String} {left : List StreamId} {id : StreamId}
      (ready : o.disconnections[i]? = some { reason, stage := .streams left }) (next : id ∈ left)
      (absent : o.demux.opened[id]? = none) :
      Disconnects o i [] (o.advance i reason (.streams (left.erase id)))
  | tell {reason : String} {left : List StreamId} {key : Nat} {box : Inbox}
      (ready : o.disconnections[i]? = some { reason, stage := .telling key left })
      (found : o.demux.inboxes[key]? = some box) :
      Disconnects o i []
        { o.advance i reason (.streams left) with
          demux := { o.demux with
            inboxes := o.demux.inboxes.insert key
              { box with unread := box.unread ++ [.error (Disconnection.failure reason)] } } }
  | miss {reason : String} {left : List StreamId} {key : Nat}
      (ready : o.disconnections[i]? = some { reason, stage := .telling key left })
      (absent : o.demux.inboxes[key]? = none) :
      Disconnects o i [] (o.advance i reason (.streams left))
  | finish {reason : String} (ready : o.disconnections[i]? = some { reason, stage := .streams [] }) :
      Disconnects o i [] (o.advance i reason .finished)

/-- One step of a program, of the failing of calls or of the closer, after so much was told. -/
inductive Uses (tr : OfficeTrace) (o : Office) : OfficeTrace → Office → Prop where
  /-- Something happens at the desk that is no answer, and no failing of all calls begins. -/
  | call {es : CallTrace} {b : Desk} (next : o.desk.Step es b)
      (same : b.sweeps.length = o.desk.sweeps.length)
      (unanswered : ∀ id result found, .attempted id (.answer result) found ∉ es) :
      Uses tr o (es.map .call)
        { o with
          desk := b
          falling := es.flatMap (CallEvent.leftover o.desk.correlator) ++ o.falling }
  /-- A handle does not come to its end while something is on its way to it. -/
  | read {h : Handle} {r : Reading} {d : Demux} (got : tr.Got h) (reads : o.demux.Reads h r d)
      (waits : r = .ended → (∃ n, o.Brings h.key n) → d = o.demux) :
      Uses tr o ((Demux.Reading.notification? r).map (.yielded h)).toList { o with demux := d }
  | drop {h : Handle} (got : tr.Got h) : Uses tr o [] { o with falling := h :: o.falling }
  | release {h : Handle} {box : Inbox} (falls : h ∈ o.falling)
      (found : o.demux.inboxes[h.key]? = some box) :
      Uses tr o [.released h]
        { o with
          demux := o.demux.release h.id
          falling := o.falling.erase h
          fallen := h :: o.fallen }
  /-- The handles in what has not been read are dropped next. -/
  | discard {h : Handle} {box : Inbox} (falls : h ∈ o.fallen)
      (found : o.demux.inboxes[h.key]? = some box) :
      Uses tr o []
        { o with
          demux := { o.demux with inboxes := o.demux.inboxes.erase h.key }
          falling := box.held ++ o.falling
          fallen := o.fallen.erase h }
  /-- The handle had been dropped before. -/
  | skip {h : Handle} (absent : o.demux.inboxes[h.key]? = none) :
      Uses tr o [] { o with falling := o.falling.erase h, fallen := o.fallen.erase h }
  | part : Uses tr o [] { o with demux := o.demux.takeReleased.2 }

/-- One step of one operation, after so much was told. -/
inductive Step (tr : OfficeTrace) (o : Office) : OfficeTrace → Office → Prop where
  | pump {es : OfficeTrace} {o' : Office} (next : o.Pumps es o') : Step tr o es o'
  | use {es : OfficeTrace} {o' : Office} (next : o.Uses tr es o') : Step tr o es o'
  /-- A disconnection begins, unless the session is over. -/
  | leave (going : o.desk.correlator.closed = false) (reason : String) :
      Step tr o [] { o with disconnections := o.disconnections ++ [{ reason }] }
  | disconnect {i : Nat} {es : OfficeTrace} {o' : Office} (next : o.Disconnects i es o') :
      Step tr o es o'

/-- Steps in turn, after so much was told. -/
inductive Goes (tr : OfficeTrace) (o : Office) : OfficeTrace → Office → Prop where
  | refl : Goes tr o [] o
  | step {es es' : OfficeTrace} {o' o'' : Office} (goes : Goes tr o es o')
      (next : Step (tr ++ es) o' es' o'') : Goes tr o (es ++ es') o''

/-- A run from the start of a session. -/
def Run (serverQueue replyTo : String) (tr : OfficeTrace) (o : Office) : Prop :=
  Goes [] (opened serverQueue replyTo) tr o

/-- Two stretches of steps in a row are one. -/
theorem Goes.trans {tr es es' : OfficeTrace} {o o' o'' : Office} (goes : Goes tr o es o')
    (after : Goes (tr ++ es) o' es' o'') : Goes tr o (es ++ es') o'' := by
  induction after with
  | refl => rwa [List.append_nil]
  | step _ next ih =>
    rw [← List.append_assoc]
    exact ih.step (by rwa [← List.append_assoc])

/-- A step is a stretch of one. -/
private theorem Step.goes {tr es : OfficeTrace} {o o' : Office} (next : Step tr o es o') :
    Goes tr o es o' := by
  have step := (@Goes.refl tr o).step (by rwa [List.append_nil])
  rwa [List.nil_append] at step

/-- After a step it goes on. -/
private theorem Step.before {tr es : OfficeTrace} {o o' o'' : Office} (next : Step tr o es o')
    (rest : ∃ es', Goes (tr ++ es) o' es' o'') : ∃ es', Goes tr o es' o'' := by
  obtain ⟨es', goes⟩ := rest
  exact ⟨_, next.goes.trans goes⟩

/-! ## Operations that nobody disturbs -/

/-- Handles are dropped one after another, those that they have not read after them. -/
private theorem drop_alone (tr : OfficeTrace) (o : Office) (fallen : o.fallen = [])
    (hs : List Handle) :
    ∃ es, Goes tr { o with falling := hs } es
      { o with demux := o.demux.dropAll hs, falling := [] } := by
  obtain ⟨desk, d, pumping, disconnections, falling, _⟩ := o
  obtain rfl : _ = [] := fallen
  induction d, hs using Demux.dropAll_induct generalizing tr with
  | nil d =>
    rw [Demux.dropAll]
    exact ⟨[], .refl⟩
  | absent d h hs habsent ih =>
    rw [Demux.dropAll_of_absent habsent]
    refine Step.before (.use (.skip habsent)) ?_
    rw [List.erase_cons_head]
    exact ih _
  | found d h hs box hfound ih =>
    rw [Demux.dropAll_of_found hfound]
    have hbox : (d.release h.id).inboxes[h.key]? = some box := by rwa [Demux.inboxes_release]
    -- The stream is released, and then the inbox is emptied.
    refine Step.before (.use (.release (List.mem_cons_self ..) hfound)) ?_
    refine Step.before (.use (.discard (List.mem_cons_self ..) hbox)) ?_
    simp only [List.erase_cons_head, Demux.inboxes_release]
    exact ih _

/-- The handles for a message are made one after another. -/
private theorem attach_alone (tr : OfficeTrace) (o : Office) {m : ServerMessage} {hs : List Handle}
    (busy : o.pumping = .attaching m hs) {ids : List StreamId}
    (next : m.introduces.drop hs.length = ids) :
    ∃ es, Goes tr o es
      { o with
        demux := (o.demux.introduceAll ids).2
        pumping := .attaching m (hs ++ (o.demux.introduceAll ids).1) } := by
  induction ids generalizing tr o hs with
  | nil =>
    refine ⟨[], ?_⟩
    rw [Demux.introduceAll, List.append_nil, ← busy]
    exact .refl
  | cons id ids ih =>
    have hid : m.introduces[hs.length]? = some id := by
      rw [← List.head?_drop, next]
      rfl
    -- The induction is on what is left of the message, so the handles made so far are general.
    have hrest : m.introduces.drop (hs ++ [(o.demux.introduce id).1]).length = ids := by
      rw [List.length_append, List.length_singleton, ← List.drop_drop, next]
      rfl
    refine Step.before (.pump (.attach busy hid)) ?_
    -- The handle just made is told of before the others.
    have rest := ih (tr ++ [.introduced (o.demux.introduce id).1])
      { o with
        demux := (o.demux.introduce id).2
        pumping := .attaching m (hs ++ [(o.demux.introduce id).1]) } rfl hrest
    rwa [List.append_assoc] at rest

/-- The streams that were open are taken off one after another, and each handle is told. -/
private theorem strike_alone (tr : OfficeTrace) (o : Office) {i : Nat} {reason : String}
    (ids : List StreamId)
    (ready : o.disconnections[i]? = some { reason, stage := .streams ids }) :
    ∃ es, Goes tr o es
      { o.advance i reason (.streams []) with
        demux := o.demux.failEach (Disconnection.failure reason) ids } := by
  induction ids generalizing tr o with
  | nil =>
    obtain ⟨hlt, heq⟩ := List.getElem?_eq_some_iff.1 ready
    refine ⟨[], ?_⟩
    rw [advance, ← heq, List.set_getElem_self]
    exact .refl
  | cons id ids ih =>
    have hset : ∀ stage, (o.advance i reason stage).disconnections[i]? = some { reason, stage } :=
      fun stage => List.getElem?_set_self (List.getElem?_eq_some_iff.1 ready).1
    -- Whatever becomes of the first, the rest follows.
    have hrest : ∀ tr' d, ∃ es, Goes tr' { o.advance i reason (.streams ids) with demux := d } es
        { o.advance i reason (.streams []) with
          demux := d.failEach (Disconnection.failure reason) ids } := fun tr' d => by
      have rest := ih tr' { o.advance i reason (.streams ids) with demux := d } (hset _)
      simp only [advance, List.set_set] at rest ⊢
      exact rest
    rw [Demux.failEach]
    -- The stream may have been closed, and its handle may have been dropped, before its turn.
    cases ho : o.demux.opened[id]? with
    | none =>
      refine Step.before (.disconnect (.skip ready (List.mem_cons_self ..) ho)) ?_
      rw [List.erase_cons_head]
      exact hrest _ _
    | some key =>
      refine Step.before (.disconnect (.strike ready (List.mem_cons_self ..) ho)) ?_
      simp only [List.erase_cons_head, Demux.deliver]
      cases hbox : o.demux.inboxes[key]? with
      | none =>
        have hnothing : Notification.handles (.error (Disconnection.failure reason)) = [] := rfl
        refine Step.before (.disconnect (.miss (hset _) hbox)) ?_
        simp only [advance, List.set_set, hnothing, Demux.dropAll]
        exact hrest _ _
      | some box =>
        refine Step.before (.disconnect (.tell (hset _) hbox)) ?_
        simp only [advance, List.set_set]
        exact hrest _ _

/-- Calls are failed one after another. -/
private theorem fail_alone (tr : OfficeTrace) (o : Office) {i : Nat} {e : CallError}
    (ids : List CallId)
    (ready : o.desk.sweeps[i]? = some { error := e, left := some ids }) :
    ∃ es, Goes tr o es
      { o with
        desk := { o.desk with
          correlator := ids.foldl (fun c id => c.fail e id) o.desk.correlator
          sweeps := o.desk.sweeps.set i { error := e, left := some [] } } } := by
  induction ids generalizing tr o with
  | nil =>
    obtain ⟨hlt, heq⟩ := List.getElem?_eq_some_iff.1 ready
    refine ⟨[], ?_⟩
    rw [← heq, List.set_getElem_self]
    exact .refl
  | cons id ids ih =>
    refine Step.before (.use (.call (.fail ready (List.mem_cons_self ..)) List.length_set
      (by simp))) ?_
    -- Taking the calls in order, the one just failed is the head of what is left.
    rw [List.erase_cons_head]
    have rest := ih (tr ++ [.call (.attempted id (.failure e) (o.desk.correlator.isPending id))])
      { o with
        desk := { o.desk with
          correlator := o.desk.correlator.fail e id
          sweeps := o.desk.sweeps.set i { error := e, left := some ids } } }
      (List.getElem?_set_self (List.getElem?_eq_some_iff.1 ready).1)
    rw [List.set_set] at rest
    exact rest

/-- What the pump of a client is doing that has taken in this answer. -/
def holding : Option (CallId × Except Failure ClientValue) → Pumping
  | none => .idle
  | some (id, result) => .attaching (.reply id (result.map (Value.map Handle.id)))
    (Ticket.resolved (result.mapError .remote)).handles

/-- Nothing is going on but what this client says. -/
structure Shows (o : Office) (c : Client) : Prop where
  correlator : o.desk.correlator = c.correlator
  demux : o.demux = c.demux
  pumping : o.pumping = holding c.arrived
  falling : o.falling = []
  fallen : o.fallen = []

section

variable (tr : OfficeTrace) {o : Office} {c : Client} (shows : o.Shows c)

include shows

/-- Dropping handles without disturbance is what the client does at one stroke. -/
private theorem Shows.drop (hs : List Handle) :
    ∃ es o', Goes tr { o with falling := hs } es o' ∧ o'.Shows (c.dropHandles hs) := by
  obtain ⟨es, dropped⟩ := drop_alone tr o shows.fallen hs
  refine ⟨es, _, dropped, shows.correlator, ?_, shows.pumping, rfl, shows.fallen⟩
  show o.demux.dropAll hs = c.demux.dropAll hs
  rw [shows.demux]

/-- Giving an answer to its call without disturbance is what the client does at one stroke. -/
theorem Shows.resolve {id : CallId} {result : Except Failure ClientValue}
    (arrived : c.arrived = some (id, result)) :
    ∃ es o', Goes tr o es o' ∧ o'.Shows (c.resolve id result) := by
  have busy := shows.pumping
  rw [arrived] at busy
  have answered := (Step.pump (.answer busy rfl rfl) : Step tr _ _ _).goes
  rw [shows.falling, List.append_nil] at answered
  -- Handles in an answer that nobody waits for are dropped one by one afterwards.
  obtain ⟨es, o', dropped, hshows⟩ := Shows.drop
    (tr ++ [.call (.attempted id (.answer result) (o.desk.correlator.resolve id result).1)])
    (o := { o with
      desk := { o.desk with correlator := (o.desk.correlator.resolve id result).2.2 }
      pumping := .idle })
    (c := { c with correlator := (c.correlator.resolve id result).2.2, arrived := none })
    ⟨by rw [shows.correlator], shows.demux, rfl, shows.falling, shows.fallen⟩
    (o.desk.correlator.resolve id result).2.1
  refine ⟨_, o', answered.trans dropped, ?_⟩
  rw [shows.correlator] at hshows
  exact hshows

/-- A message without disturbance is dealt with as the client does it at one stroke. -/
theorem Shows.accept (idle : c.arrived = none) (e : Envelope) :
    ∃ es o', Goes tr o es o' ∧ o'.Shows (c.accept e) := by
  have hquiet : Pumping.idle = holding c.arrived := by rw [idle]; rfl
  have hidle : o.pumping = .idle := shows.pumping.trans hquiet.symm
  obtain ⟨c', heq, accepts⟩ := c.accepts e
  rw [heq]
  cases accepts with
  | illegible => exact ⟨[], o, .refl, shows⟩
  | @failure id f message =>
    exact ⟨_, _, (Step.pump (.take hidle (.reply id (.error f)))).goes,
      ⟨shows.correlator, shows.demux, rfl, shows.falling, shows.fallen⟩⟩
  | @value id v message =>
    have took := (Step.pump (.take hidle (.reply id (.ok v))) : Step tr _ _ _).goes
    obtain ⟨es, attached⟩ := @attach_alone (tr ++ [.took (.reply id (.ok v))])
      { o with pumping := .attaching (.reply id (.ok v)) [] } _ _ rfl v.slots rfl
    obtain ⟨hslots, hd, hwire⟩ := c.demux.attach_eq v
    refine ⟨_, _, took.trans attached, ⟨shows.correlator, ?_, ?_, shows.falling, shows.fallen⟩⟩
    · show (o.demux.introduceAll v.slots).2 = (c.demux.attach v).2
      rw [hd, shows.demux]
    · show Pumping.attaching (.reply id (.ok v)) (o.demux.introduceAll v.slots).1 =
        .attaching (.reply id (.ok ((c.demux.attach v).1.map Handle.id))) (c.demux.attach v).1.slots
      rw [hwire, hslots, shows.demux]
  | @observe id event message =>
    have took := (Step.pump (.take hidle (.observation id event)) : Step tr _ _ _).goes
    obtain ⟨es, attached⟩ := @attach_alone (tr ++ [.took (.observation id event)])
      { o with pumping := .attaching (.observation id event) [] } _ _ rfl event.ids
      (ServerMessage.introduces_observation id event)
    have attached := took.trans attached
    rw [List.nil_append] at attached
    obtain ⟨b, d', heq, observes⟩ := c.demux.observes id event
    rw [heq]
    rw [← shows.demux] at observes
    cases observes with
    | shut ho =>
      -- Nobody gets it, and the new handles are dropped.
      obtain ⟨hwire, hhandles, -⟩ := o.demux.attachEvent_eq event
      have rejected := attached.step (.pump (.reject rfl hwire hhandles ho))
      rw [shows.falling, List.append_nil] at rejected
      obtain ⟨es', dropped⟩ := drop_alone _
        { o with demux := (o.demux.introduceAll event.ids).2, pumping := .idle } shows.fallen
        (o.demux.introduceAll event.ids).1
      exact ⟨_, _, rejected.trans dropped,
        ⟨shows.correlator, rfl, hquiet, rfl, shows.fallen⟩⟩
    | @opened key n rest ho wire handles hrest =>
      have routed := attached.step (.pump (.route rfl wire handles ho))
      have hterm : n.terminal = event.terminal := by rw [← wire, Notification.terminal_onWire]
      rw [hterm, ← hrest] at routed
      simp only [Demux.deliver]
      cases hbox : (o.demux.introduceAll event.ids).2.inboxes[key]? with
      | some box =>
        exact ⟨_, _, routed.step (.pump (.send rfl hbox)),
          ⟨shows.correlator, rfl, hquiet, shows.falling, shows.fallen⟩⟩
      | none =>
        -- The handle has no inbox, so the new handles are dropped as well.
        have missed := routed.step (.pump (.miss rfl hbox))
        simp only [shows.falling, List.append_nil] at missed
        obtain ⟨es', dropped⟩ := drop_alone _
          { o with
            demux := { (o.demux.introduceAll event.ids).2 with opened := rest }
            pumping := .idle } shows.fallen n.handles
        refine ⟨_, _, missed.trans dropped, ?_⟩
        exact ⟨shows.correlator, rfl, hquiet, rfl, shows.fallen⟩

/-- Ending a session without disturbance is what the client does at one stroke. -/
theorem Shows.disconnect (reason : String) :
    ∃ es o', Goes tr o es o' ∧ o'.Shows (c.disconnect reason) := by
  cases hclosed : c.correlator.closed with
  | true =>
    rw [c.disconnect_of_closed reason hclosed]
    exact ⟨[], o, .refl, shows⟩
  | false =>
    have going : o.desk.correlator.closed = false := by rw [shows.correlator, hclosed]
    rw [Client.disconnect_of_open hclosed]
    obtain ⟨desk, d, pumping, ends, _, _⟩ := o
    obtain ⟨hcorr, rfl, hpumping, rfl, rfl⟩ := shows
    -- The new disconnection and its failing of the calls are the last ones, however far they are.
    have hlast : ∀ x : Disconnection, (ends ++ [x])[ends.length]? = some x := by simp
    have hset : ∀ x x' : Disconnection, (ends ++ [x]).set ends.length x' = ends ++ [x'] := by simp
    have hsweep : ∀ s, (desk.sweeps ++ [s])[desk.sweeps.length]? = some s := by simp
    have hsweeps : ∀ s s', (desk.sweeps ++ [s]).set desk.sweeps.length s' = desk.sweeps ++ [s'] := by
      simp
    -- The steps follow each other: fail the calls, look, strike the streams, finish.
    have closed := (Step.leave going reason : Step tr _ _ _).goes.step (.disconnect (.close (hlast _)))
    simp only [advance, hset] at closed
    have looked := closed.step (.use (.call (.look (hsweep _)) List.length_set (by simp)))
    simp only [hsweeps] at looked
    obtain ⟨es, failed⟩ := fail_alone _
      { desk := { desk with
          correlator := desk.correlator.close
          sweeps := desk.sweeps ++
            [{ error := .connectionLost reason, left := some desk.correlator.pending.toList }] }
        demux := c.demux, pumping
        disconnections := ends ++ [{ reason, stage := .calls desk.sweeps.length }] }
      desk.correlator.pending.toList (hsweep _)
    simp only [hsweeps] at failed
    have found := (looked.trans failed).step (.disconnect (.look (hlast _) (hsweep _)))
    simp only [advance, hset] at found
    have hstreams : ∀ b, ({ desk := b, demux := c.demux, pumping, disconnections := ends ++
        [{ reason, stage := .streams c.demux.opened.keys }] } : Office).disconnections[ends.length]? =
        some { reason, stage := .streams c.demux.opened.keys } := fun _ => hlast _
    obtain ⟨es', struck⟩ := strike_alone _ _ c.demux.opened.keys (hstreams _)
    simp only [advance, hset] at struck
    have finished := (found.trans struck).step (.disconnect (.finish (hlast _)))
    refine ⟨_, _, finished, ?_, rfl, hpumping, rfl, rfl⟩
    show Correlator.failAll _ _ = _
    rw [hcorr]

end

end Office

end StreamRpc
