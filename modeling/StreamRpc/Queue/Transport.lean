import StreamRpc.Queue.Broker

/-! # The way to the queues

Clients and servers reach the broker through a `Transport`, on which single calls can fail.  A
`Fault` names the calls it is meant for and how many of them it lets pass first; then one call
fails with its error and never reaches the broker.  Each call meets at most one fault, the oldest
that is meant for it.

Without faults every operation is the broker's own (`Transport.send_of_no_faults` and its likes).
-/

namespace StreamRpc

/-- The calls that can fail. -/
inductive Operation where
  | createQueue
  | deleteQueue
  | send
  | consume
  | watchDisconnects
  deriving DecidableEq, Repr, Inhabited

/-- One failure that lies in wait. -/
structure Fault where
  operation : Operation
  /-- The queue or pattern it is meant for; any, if there is none. -/
  target : Option String := none
  /-- How many calls it lets pass. -/
  skip : Nat := 0
  error : TransportError
  deriving DecidableEq, Repr, Inhabited

/-- Whether a fault is meant for a call. -/
def Fault.meets (f : Fault) (op : Operation) (target : String) : Bool :=
  f.operation == op && (f.target.isNone || f.target == some target)

/-- What the faults, oldest first, do to a call, and which faults are left. -/
def Fault.strike (op : Operation) (target : String) :
    List Fault → Option TransportError × List Fault
  | [] => (none, [])
  | f :: fs =>
    if f.meets op target then
      match f.skip with
      | 0 => (some f.error, fs)
      | n + 1 => (none, { f with skip := n } :: fs)
    else
      let (e, rest) := Fault.strike op target fs
      (e, f :: rest)

/-- The broker, and the faults on the way to it. -/
structure Transport where
  broker : Broker := {}
  faults : List Fault := []

namespace Transport

/-- Makes a call that the faults may strike. -/
def call {α : Type} (t : Transport) (op : Operation) (target : String)
    (run : Broker → Except TransportError (α × Broker)) : Except TransportError α × Transport :=
  match Fault.strike op target t.faults with
  | (some e, faults) => (.error e, { t with faults })
  | (none, faults) =>
    match run t.broker with
    | .error e => (.error e, { t with faults })
    | .ok (a, broker) => (.ok a, { broker, faults })

def createQueue (t : Transport) (name : String) : Except TransportError Unit × Transport :=
  t.call .createQueue name fun b => (b.create name).map fun b => ((), b)

def deleteQueue (t : Transport) (name : String) : Except TransportError Unit × Transport :=
  t.call .deleteQueue name fun b => (b.delete name).map fun b => ((), b)

def send (t : Transport) (name : String) (e : Envelope) : Except TransportError Unit × Transport :=
  t.call .send name fun b => (b.send name e).map fun b => ((), b)

def consume (t : Transport) (name : String) : Except TransportError MailboxId × Transport :=
  t.call .consume name fun b => b.consume name

def watchDisconnects (t : Transport) (pattern : String) :
    Except TransportError WatcherId × Transport :=
  t.call .watchDisconnects pattern fun b => .ok (b.watch pattern)

/-! Readers take what has arrived without a call that could fail. -/

def receive (t : Transport) (id : MailboxId) : Arrival × Transport :=
  let (a, broker) := t.broker.receive id
  (a, { t with broker })

def departure? (t : Transport) (id : WatcherId) : Option (String × Transport) :=
  (t.broker.departure? id).map fun (name, broker) => (name, { t with broker })

def dropReader (t : Transport) (id : MailboxId) : Transport :=
  { t with broker := t.broker.dropReader id }

def dropWatcher (t : Transport) (id : WatcherId) : Transport :=
  { t with broker := t.broker.dropWatcher id }

/-! ## Without faults -/

/-- Without injected faults a send is the broker's own. -/
theorem send_of_no_faults (b : Broker) (name : String) (e : Envelope) :
    ({ broker := b } : Transport).send name e =
      match b.send name e with
      | .ok b' => (.ok (), { broker := b' })
      | .error err => (.error err, { broker := b }) := by
  simp only [send, call, Fault.strike]
  cases b.send name e <;> rfl

/-- Without injected faults a deletion is the broker's own. -/
theorem deleteQueue_of_no_faults (b : Broker) (name : String) :
    ({ broker := b } : Transport).deleteQueue name =
      match b.delete name with
      | .ok b' => (.ok (), { broker := b' })
      | .error err => (.error err, { broker := b }) := by
  simp only [deleteQueue, call, Fault.strike]
  cases b.delete name <;> rfl

end Transport

end StreamRpc
