import Std.Data.ExtTreeSet
import StreamRpc.Call.Error
import StreamRpc.Queue.Transport
import StreamRpc.Stream.Demux

/-! # Pending calls

The correlator of a session numbers its calls, sends them to the server, and gives each answer to
the call it belongs to.  A call is *pending* from its submission until it is answered, given up or
failed; whoever makes it holds a ticket, which keeps the outcome until it is taken.

A submission has three parts, `reserve`, `permit` and `post`, and one that fails is retracted.

* `Correlator.isPending_resolve`   an answer takes out one call and no other
-/

namespace StreamRpc

/-- What has become of a call. -/
inductive Ticket where
  | waiting
  | resolved (outcome : Except CallError ClientValue)
  deriving Inhabited

/-- The handles in an outcome. -/
def Ticket.handles : Ticket → List Handle
  | resolved (.ok v) => v.slots
  | _ => []

/-- What looking at a ticket comes to. -/
inductive Collection where
  | outcome (r : Except CallError ClientValue)
  | pending
  /-- There is no such ticket. -/
  | gone

/-- The calls of one session. -/
structure Correlator where
  /-- The queue that requests are sent to. -/
  serverQueue : String
  /-- The address that answers come to. -/
  replyTo : String
  /-- How many calls have been given a number. -/
  numbered : Nat := 0
  pending : Std.ExtTreeSet CallId := ∅
  /-- Whether new calls are refused. -/
  closed : Bool := false
  /-- The tickets that have been neither taken nor dropped. -/
  tickets : Std.ExtTreeMap CallId Ticket := ∅

namespace Correlator

def isPending (c : Correlator) (id : CallId) : Bool :=
  c.pending.contains id

/-- How many calls are pending. -/
def pendingCount (c : Correlator) : Nat :=
  c.pending.size

/-! ## Submitting -/

/-- The number of the next call. -/
def nextId (c : Correlator) : CallId :=
  ⟨UInt64.ofNat c.numbered⟩

/-- Takes a number and a ticket for a call and makes it pending. -/
def reserve (c : Correlator) : CallId × Correlator :=
  (c.nextId,
    { c with
      numbered := c.numbered + 1
      pending := c.pending.insert c.nextId
      tickets := c.tickets.insert c.nextId .waiting })

/-- Forgets that a call is pending. -/
def withdraw (c : Correlator) (id : CallId) : Correlator :=
  { c with pending := c.pending.erase id }

/-- Forgets a call that could not be sent, and its ticket. -/
def retract (c : Correlator) (id : CallId) : Correlator :=
  { c.withdraw id with tickets := c.tickets.erase id }

/-- Whether a call may be sent. -/
def permit (c : Correlator) : Except CallError Unit :=
  if c.closed then .error (.connectionLost "session closed") else .ok ()

/-- The request for a call. -/
def request (c : Correlator) (id : CallId) (method : String) (args : List PlainValue) :
    ClientMessage :=
  .request { replyTo := c.replyTo, id, method, args := args.map Value.widen }

/-- Sends the request for a call. -/
def post (c : Correlator) (id : CallId) (method : String) (args : List PlainValue)
    (t : Transport) : Except CallError Unit × Transport :=
  match (c.request id method args).toEnvelope with
  | .error e => (.error (.codec e), t)
  | .ok e =>
    let (r, t) := t.send c.serverQueue e
    (r.mapError .transport, t)

/-- Makes a call and says its number.  A call that cannot be sent is not pending. -/
def submit (c : Correlator) (method : String) (args : List PlainValue) (t : Transport) :
    Except CallError CallId × Correlator × Transport :=
  let (id, c) := c.reserve
  match c.permit with
  | .error e => (.error e, c.retract id, t)
  | .ok () =>
    match c.post id method args t with
    | (.error e, t) => (.error e, c.retract id, t)
    | (.ok (), t) => (.ok id, c, t)

/-! ## Resolving -/

/-- Puts an outcome on a ticket.  If nobody holds it any more, the handles in the outcome are left
    over. -/
def settle (c : Correlator) (id : CallId) (outcome : Except CallError ClientValue) :
    List Handle × Correlator :=
  match c.tickets[id]? with
  | some .waiting => ([], { c with tickets := c.tickets.insert id (.resolved outcome) })
  | _ => ((Ticket.resolved outcome).handles, c)

/-- Gives an answer to the call it belongs to, and says whether there is one.  The handles that
    nobody gets are left over. -/
def resolve (c : Correlator) (id : CallId) (result : Except Failure ClientValue) :
    Bool × List Handle × Correlator :=
  if c.isPending id then
    let (leftover, c) := (c.withdraw id).settle id (result.mapError .remote)
    (true, leftover, c)
  else
    (false, (Ticket.resolved (result.mapError .remote)).handles, c)

/-- Gives up a call, and says whether it was pending. -/
def cancel (c : Correlator) (id : CallId) : Bool × Correlator :=
  (c.isPending id, c.withdraw id)

/-- Refuses all calls from now on. -/
def close (c : Correlator) : Correlator :=
  { c with closed := true }

/-- Fails a call, if it is pending. -/
def fail (c : Correlator) (e : CallError) (id : CallId) : Correlator :=
  if c.isPending id then ((c.withdraw id).settle id (.error e)).2 else c

/-- Refuses new calls and fails the pending ones. -/
def failAll (c : Correlator) (e : CallError) : Correlator :=
  c.pending.toList.foldl (fun c id => c.fail e id) c.close

/-! ## Tickets -/

/-- Looks at a ticket, and takes it if the call is over.  A call that was given up has lost its
    connection. -/
def collect (c : Correlator) (id : CallId) : Collection × Correlator :=
  match c.tickets[id]? with
  | none => (.gone, c)
  | some (.resolved r) => (.outcome r, { c with tickets := c.tickets.erase id })
  | some .waiting =>
    if c.isPending id then (.pending, c)
    else
      (.outcome (.error (.connectionLost "reply channel closed")),
        { c with tickets := c.tickets.erase id })

/-- Drops a ticket, and says whether there was one.  The handles in its outcome are left over. -/
def dropTicket (c : Correlator) (id : CallId) : Bool × List Handle × Correlator :=
  match c.tickets[id]? with
  | none => (false, [], c)
  | some t => (true, t.handles, { c with tickets := c.tickets.erase id })

/-! ## What submitting does -/

/-- What making a call comes to.  A call is sent or it is taken back. -/
inductive Submits (c : Correlator) (method : String) (args : List PlainValue) (t : Transport) :
    Except CallError CallId → Correlator → Transport → Prop where
  | barred (closed : c.closed = true) :
      Submits c method args t (.error (.connectionLost "session closed"))
        (c.reserve.2.retract c.nextId) t
  | unwritable {e : CodecError} (opened : c.closed = false)
      (unwritten : (c.request c.nextId method args).toEnvelope = .error e) :
      Submits c method args t (.error (.codec e)) (c.reserve.2.retract c.nextId) t
  | untaken {e : Envelope} {err : TransportError} {t' : Transport} (opened : c.closed = false)
      (written : (c.request c.nextId method args).toEnvelope = .ok e)
      (refused : t.send c.serverQueue e = (.error err, t')) :
      Submits c method args t (.error (.transport err)) (c.reserve.2.retract c.nextId) t'
  | sent {e : Envelope} {t' : Transport} (opened : c.closed = false)
      (written : (c.request c.nextId method args).toEnvelope = .ok e)
      (taken : t.send c.serverQueue e = (.ok (), t')) :
      Submits c method args t (.ok c.nextId) c.reserve.2 t'

/-- A submit ends in one of the three ways `Submits` lists. -/
theorem submits (c : Correlator) (method : String) (args : List PlainValue) (t : Transport) :
    ∃ r c' t', c.submit method args t = (r, c', t') ∧ Submits c method args t r c' t' := by
  have hid : c.reserve.1 = c.nextId := rfl
  have hrequest : c.reserve.2.request = c.request := rfl
  have hqueue : c.reserve.2.serverQueue = c.serverQueue := rfl
  have hclosed : c.reserve.2.closed = c.closed := rfl
  refine ⟨(c.submit method args t).1, (c.submit method args t).2.1, (c.submit method args t).2.2,
    rfl, ?_⟩
  simp only [submit, permit, post, hid, hrequest, hqueue, hclosed]
  cases hc : c.closed with
  | true => exact .barred hc
  | false =>
    cases he : (c.request c.nextId method args).toEnvelope with
    | error e => exact .unwritable hc he
    | ok e =>
      dsimp only
      cases hs : t.send c.serverQueue e with
      | mk r t' =>
        cases r with
        | error err => exact .untaken hc he hs
        | ok u => exact .sent hc he hs

/-! ## What resolving does -/

/-- An outcome is put on a ticket that waits for it, or it is left over. -/
theorem settle_cases (c : Correlator) (id : CallId) (outcome : Except CallError ClientValue) :
    c.tickets[id]? = some .waiting ∧ c.settle id outcome =
        ([], { c with tickets := c.tickets.insert id (.resolved outcome) }) ∨
      c.tickets[id]? ≠ some .waiting ∧
        c.settle id outcome = ((Ticket.resolved outcome).handles, c) := by
  unfold settle
  split
  · next h => exact .inl ⟨h, rfl⟩
  · next h => exact .inr ⟨h, rfl⟩

/-- Withdrawing a call makes its own id not pending and leaves the others as they were. -/
theorem isPending_withdraw (c : Correlator) (id other : CallId) :
    (c.withdraw id).isPending other = (c.isPending other && other != id) := by
  by_cases ho : other = id
  · subst ho; simp [withdraw, isPending]
  · have hc : (compare id other != .eq) = true := by
      simpa using fun hc => ho (Std.LawfulEqOrd.eq_of_compare hc).symm
    have ho' : (other != id) = true := by simpa using ho
    simp only [withdraw, isPending, Std.ExtTreeSet.contains_erase, hc, ho', Bool.true_and,
      Bool.and_true]

/-- Settling a ticket does not touch the pending map. -/
@[simp] theorem isPending_settle (c : Correlator) (id other : CallId)
    (outcome : Except CallError ClientValue) :
    (c.settle id outcome).2.isPending other = c.isPending other := by
  rcases c.settle_cases id outcome with ⟨-, h⟩ | ⟨-, h⟩ <;> rw [h]
  rfl

/-- An answer takes out one call and no other, and says whether that call was pending. -/
theorem isPending_resolve (c : Correlator) (id other : CallId)
    (result : Except Failure ClientValue) :
    (c.resolve id result).1 = c.isPending id ∧
      (c.resolve id result).2.2.isPending other = (c.isPending other && other != id) := by
  unfold resolve
  split
  · rename_i h
    simp [h, isPending_withdraw]
  · rename_i h
    refine ⟨by simpa using h, ?_⟩
    by_cases ho : other = id
    · subst ho; simpa using h
    · simp [ho]

/-! ## What looking at a ticket does -/

/-- What looking at a ticket comes to. -/
inductive Collects (c : Correlator) (id : CallId) : Collection → Correlator → Prop where
  | gone (ticket : c.tickets[id]? = none) : Collects c id .gone c
  | pending (ticket : c.tickets[id]? = some .waiting) (waits : c.isPending id = true) :
      Collects c id .pending c
  | taken {r : Except CallError ClientValue} (ticket : c.tickets[id]? = some (.resolved r)) :
      Collects c id (.outcome r) { c with tickets := c.tickets.erase id }
  /-- The call was given up. -/
  | lost (ticket : c.tickets[id]? = some .waiting) (shut : c.isPending id = false) :
      Collects c id (.outcome (.error (.connectionLost "reply channel closed")))
        { c with tickets := c.tickets.erase id }

/-- A collection ends in one of the ways `Collects` lists. -/
theorem collects (c : Correlator) (id : CallId) :
    ∃ r c', c.collect id = (r, c') ∧ Collects c id r c' := by
  refine ⟨(c.collect id).1, (c.collect id).2, rfl, ?_⟩
  unfold collect
  split
  · next ticket => exact .gone ticket
  · next ticket => exact .taken ticket
  · next ticket =>
    split
    · next waits => exact .pending ticket waits
    · next shut => exact .lost ticket (by simpa using shut)

end Correlator

end StreamRpc
