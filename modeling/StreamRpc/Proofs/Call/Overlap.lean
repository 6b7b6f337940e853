import StreamRpc.Proofs.Client.Answers

/-! # Operations on calls that overlap

What a correlator does is not done at one stroke.  Making a call takes a number, asks whether the
session is closed, sends the request, and takes the call back if something went wrong; failing all
calls closes the session, looks which calls are pending, and fails these one by one.  Between any
two of these steps others may take theirs, and anybody may answer, give up, collect or drop a call.

A `Desk` is a correlator with all operations that have ever begun on it.  The call made after `k`
others has the number `callAt k`.

* `Desk.Step`              one access to what the operations share, with what can be told of it
* `Desk.Run`               steps of any operations in any order
* `Desk.submit_alone`      making a call without disturbance is `Correlator.submit`
* `Desk.failAll_alone`     failing all calls without disturbance is `Correlator.failAll`
-/

namespace StreamRpc

open Client (callAt)

/-- How far the making of a call has come. -/
inductive Making where
  /-- The call has its number. -/
  | reserved (method : String) (args : List PlainValue)
  /-- The session was not closed when it was asked. -/
  | permitted (method : String) (args : List PlainValue)
  | sent
  /-- Something went wrong, and the call is still to be taken back. -/
  | failed (e : CallError)
  /-- Whoever makes the call has been given the ticket, or the error. -/
  | over (result : Except CallError Unit)

/-- A failing of all calls that has closed the session. -/
structure Sweep where
  error : CallError
  /-- The calls still to be failed, once it was looked which are pending. -/
  left : Option (List CallId) := none

/-- What can end a pending call. -/
inductive Resolution where
  | answer (result : Except Failure ClientValue)
  | cancel
  | failure (e : CallError)

/-- What a call comes to that is ended in this way. -/
def Resolution.outcome : Resolution → Except CallError ClientValue
  | answer result => result.mapError .remote
  | cancel => .error (.connectionLost "reply channel closed")
  | failure e => .error e

/-- What can be told of a step. -/
inductive CallEvent where
  | reserved (id : CallId)
  /-- The request of a call was handed to the transport. -/
  | posted (id : CallId) (e : Envelope)
  /-- Whoever made the call got its ticket. -/
  | given (id : CallId)
  /-- Whoever made the call got an error. -/
  | refused (id : CallId) (e : CallError)
  /-- Somebody tried to end a call, and it was pending or not. -/
  | attempted (id : CallId) (how : Resolution) (found : Bool)
  | collected (id : CallId) (outcome : Except CallError ClientValue)
  | dropped (id : CallId)

namespace CallEvent

/-- The call whose request was handed to the transport. -/
def post? : CallEvent → Option CallId
  | posted id _ => some id
  | _ => none

/-- The attempt to end this call, and whether it was pending. -/
def attempt? (id : CallId) : CallEvent → Option (Resolution × Bool)
  | attempted other how found => if id = other then some (how, found) else none
  | _ => none

/-- The outcome of this call that was taken. -/
def outcome? (id : CallId) : CallEvent → Option (Except CallError ClientValue)
  | collected other r => if id = other then some r else none
  | _ => none

/-- The call that something happened to. -/
def about? : CallEvent → Option CallId
  | reserved id | posted id _ | given id | refused id _ | collected id _ | dropped id => some id
  | attempted id _ found => if found then some id else none

/-- The handles that are left over when this happens: those of a ticket that is dropped, and those
    of an answer that nobody waits for. -/
def leftover (c : Correlator) : CallEvent → List Handle
  | dropped id | refused id _ => (c.dropTicket id).2.1
  | attempted id (.answer result) _ => (c.resolve id result).2.1
  | _ => []

end CallEvent

/-- What a run can tell, the oldest first. -/
abbrev CallTrace := List CallEvent

namespace CallTrace

/-- The calls whose requests were handed to the transport, in order. -/
def posts (tr : CallTrace) : List CallId :=
  tr.filterMap CallEvent.post?

/-- The attempts to end a call, in order. -/
def attempts (tr : CallTrace) (id : CallId) : List (Resolution × Bool) :=
  tr.filterMap (CallEvent.attempt? id)

/-- The outcomes of a call that were taken, in order. -/
def outcomes (tr : CallTrace) (id : CallId) : List (Except CallError ClientValue) :=
  tr.filterMap (CallEvent.outcome? id)

/-- Posts are read off a trace piece by piece. -/
@[simp] theorem posts_append (tr tr' : CallTrace) : posts (tr ++ tr') = posts tr ++ posts tr' :=
  List.filterMap_append

/-- Attempts are read off a trace piece by piece. -/
@[simp] theorem attempts_append (tr tr' : CallTrace) (id : CallId) :
    attempts (tr ++ tr') id = attempts tr id ++ attempts tr' id :=
  List.filterMap_append

/-- Outcomes are read off a trace piece by piece. -/
@[simp] theorem outcomes_append (tr tr' : CallTrace) (id : CallId) :
    outcomes (tr ++ tr') id = outcomes tr id ++ outcomes tr' id :=
  List.filterMap_append

/-- An id is among the posts when a request was posted under it. -/
theorem mem_posts {tr : CallTrace} {id : CallId} : id ∈ tr.posts ↔ ∃ e, .posted id e ∈ tr := by
  constructor
  · intro h
    obtain ⟨x, hx, heq⟩ := List.mem_filterMap.1 h
    cases x with
    | posted other e => exact ⟨e, Option.some.inj heq ▸ hx⟩
    | _ => cases heq
  · rintro ⟨e, h⟩
    exact List.mem_filterMap.2 ⟨_, h, rfl⟩

/-- An attempt is among a call's attempts when the trace has it. -/
theorem mem_attempts {tr : CallTrace} {id : CallId} {how : Resolution} {found : Bool} :
    (how, found) ∈ tr.attempts id ↔ .attempted id how found ∈ tr := by
  constructor
  · intro h
    obtain ⟨x, hx, heq⟩ := List.mem_filterMap.1 h
    -- An event yields this attempt only if it is the attempt, for this call.
    cases x with
    | attempted other how' found' =>
      simp only [CallEvent.attempt?] at heq
      split at heq
      · next hid =>
        obtain ⟨rfl, rfl⟩ := Prod.mk.injEq .. ▸ Option.some.inj heq
        exact hid ▸ hx
      · cases heq
    | _ => cases heq
  · exact fun h => List.mem_filterMap.2 ⟨_, h, if_pos rfl⟩

/-- An outcome is among a call's outcomes when the trace has its collection. -/
theorem mem_outcomes {tr : CallTrace} {id : CallId} {r : Except CallError ClientValue} :
    r ∈ tr.outcomes id ↔ .collected id r ∈ tr := by
  constructor
  · intro h
    obtain ⟨x, hx, heq⟩ := List.mem_filterMap.1 h
    -- An event yields this outcome only if it is the collection, of this call.
    cases x with
    | collected other r' =>
      simp only [CallEvent.outcome?] at heq
      split at heq
      · next hid =>
        obtain rfl := Option.some.inj heq
        exact hid ▸ hx
      · cases heq
    | _ => cases heq
  · exact fun h => List.mem_filterMap.2 ⟨_, h, if_pos rfl⟩

end CallTrace

/-- A correlator with the operations on it. -/
structure Desk where
  correlator : Correlator
  /-- The makings of calls that have begun, in the order of the numbers. -/
  makings : List Making := []
  /-- The failings of all calls that have begun. -/
  sweeps : List Sweep := []

namespace Desk

/-- Nothing has begun yet. -/
def opened (serverQueue replyTo : String) : Desk where
  correlator := { serverQueue, replyTo }

/-- Notes how far the making of a call has come. -/
def advance (b : Desk) (k : Nat) (m : Making) : Desk :=
  { b with makings := b.makings.set k m }

/-- What is told of sending a request. -/
def postEvents (c : Correlator) (id : CallId) (method : String) (args : List PlainValue) :
    CallTrace :=
  match (c.request id method args).toEnvelope with
  | .ok e => [.posted id e]
  | .error _ => []

/-- What is told of looking for the outcome of a call. -/
def collectEvents (c : Correlator) (id : CallId) : CallTrace :=
  match (c.collect id).1 with
  | .outcome r => [.collected id r]
  | _ => []

/-- One step of one operation. -/
inductive Step : Desk → CallTrace → Desk → Prop where
  | reserve (b : Desk) (method : String) (args : List PlainValue) :
      Step b [.reserved b.correlator.nextId]
        { b with
          correlator := b.correlator.reserve.2
          makings := b.makings ++ [.reserved method args] }
  | permit {b : Desk} {k : Nat} {method : String} {args : List PlainValue}
      (ready : b.makings[k]? = some (.reserved method args)) :
      Step b [] (b.advance k
        (match b.correlator.permit with
        | .ok () => .permitted method args
        | .error e => .failed e))
  /-- The transport may be in any state when the request is sent. -/
  | post {b : Desk} {k : Nat} {method : String} {args : List PlainValue}
      (ready : b.makings[k]? = some (.permitted method args)) (t : Transport) :
      Step b (postEvents b.correlator (callAt k) method args) (b.advance k
        (match (b.correlator.post (callAt k) method args t).1 with
        | .ok () => .sent
        | .error e => .failed e))
  | give {b : Desk} {k : Nat} (ready : b.makings[k]? = some .sent) :
      Step b [.given (callAt k)] (b.advance k (.over (.ok ())))
  | retract {b : Desk} {k : Nat} {e : CallError} (ready : b.makings[k]? = some (.failed e)) :
      Step b [.refused (callAt k) e]
        { b.advance k (.over (.error e)) with correlator := b.correlator.retract (callAt k) }
  /-- The answer may be for a call that was never made. -/
  | answer (b : Desk) (id : CallId) (result : Except Failure ClientValue) :
      Step b [.attempted id (.answer result) (b.correlator.resolve id result).1]
        { b with correlator := (b.correlator.resolve id result).2.2 }
  | cancel (b : Desk) (id : CallId) :
      Step b [.attempted id .cancel (b.correlator.cancel id).1]
        { b with correlator := (b.correlator.cancel id).2 }
  | collect {b : Desk} {k : Nat} (given : b.makings[k]? = some (.over (.ok ()))) :
      Step b (collectEvents b.correlator (callAt k))
        { b with correlator := (b.correlator.collect (callAt k)).2 }
  | drop {b : Desk} {k : Nat} (given : b.makings[k]? = some (.over (.ok ()))) :
      Step b [.dropped (callAt k)]
        { b with correlator := (b.correlator.dropTicket (callAt k)).2.2 }
  | close (b : Desk) (e : CallError) :
      Step b []
        { b with correlator := b.correlator.close, sweeps := b.sweeps ++ [{ error := e }] }
  | look {b : Desk} {i : Nat} {e : CallError} (ready : b.sweeps[i]? = some { error := e }) :
      Step b []
        { b with
          sweeps := b.sweeps.set i { error := e, left := some b.correlator.pending.toList } }
  /-- The calls are failed in any order. -/
  | fail {b : Desk} {i : Nat} {e : CallError} {ids : List CallId} {id : CallId}
      (ready : b.sweeps[i]? = some { error := e, left := some ids }) (next : id ∈ ids) :
      Step b [.attempted id (.failure e) (b.correlator.isPending id)]
        { b with
          correlator := b.correlator.fail e id
          sweeps := b.sweeps.set i { error := e, left := some (ids.erase id) } }

/-- Steps in turn, with all that can be told of them. -/
inductive Run (b₀ : Desk) : CallTrace → Desk → Prop where
  | refl : Run b₀ [] b₀
  | step {tr es : CallTrace} {b b' : Desk} (run : Run b₀ tr b) (next : Step b es b') :
      Run b₀ (tr ++ es) b'

/-- Two runs in a row are one run with the traces in a row. -/
theorem Run.trans {b₀ b b' : Desk} {tr tr' : CallTrace} (run : Run b₀ tr b) (after : Run b tr' b') :
    Run b₀ (tr ++ tr') b' := by
  induction after with
  | refl => rwa [List.append_nil]
  | step _ next ih =>
    rw [← List.append_assoc]
    exact ih.step next

/-! ## Operations that nobody disturbs -/

/-- Making a call without disturbance is what the correlator does at one stroke. -/
theorem submit_alone (b : Desk) (numbers : b.makings.length = b.correlator.numbered)
    (method : String) (args : List PlainValue) (t : Transport) :
    ∃ tr, Run b tr
      { b with
        correlator := (b.correlator.submit method args t).2.1
        makings := b.makings ++ [.over ((b.correlator.submit method args t).1.map fun _ => ())] } := by
  have hid : callAt b.makings.length = b.correlator.reserve.1 := by
    rw [numbers]
    rfl
  have hlast : ∀ m, (b.makings ++ [m])[b.makings.length]? = some m := by simp
  have hset : ∀ m m', (b.makings ++ [m]).set b.makings.length m' = b.makings ++ [m'] := by simp
  -- The steps of the making follow one another, and each finds it last in the list.
  have reserved := Run.refl.step (.reserve b method args)
  have permitted := reserved.step (.permit (hlast _))
  unfold Correlator.submit
  simp only [advance, hset] at permitted ⊢
  cases hp : b.correlator.reserve.2.permit with
  -- Where one of them fails, the number is taken back, as it is at one stroke.
  | error e =>
    rw [hp] at permitted
    have retracted := permitted.step (.retract (hlast _))
    rw [advance, hset, hid] at retracted
    exact ⟨_, retracted⟩
  | ok u =>
    rw [hp] at permitted
    have posted := permitted.step (.post (hlast _) t)
    simp only [advance, hset, hid] at posted
    cases hr : b.correlator.reserve.2.post b.correlator.reserve.1 method args t with
    | mk r t' =>
      rw [hr] at posted
      cases r with
      | error e =>
        have retracted := posted.step (.retract (hlast _))
        rw [advance, hset, hid] at retracted
        exact ⟨_, retracted⟩
      | ok u =>
        have given := posted.step (.give (hlast _))
        rw [advance, hset] at given
        exact ⟨_, given⟩

/-- Failing calls one after another. -/
private theorem fail_alone (b : Desk) {i : Nat} {e : CallError} (ids : List CallId)
    (ready : b.sweeps[i]? = some { error := e, left := some ids }) :
    ∃ tr, Run b tr
      { b with
        correlator := ids.foldl (fun c id => c.fail e id) b.correlator
        sweeps := b.sweeps.set i { error := e, left := some [] } } := by
  -- By induction on the calls that are left to fail, each one step of the sweep.
  induction ids generalizing b with
  | nil =>
    have hsame : b.sweeps.set i { error := e, left := some [] } = b.sweeps := by
      obtain ⟨hlt, heq⟩ := List.getElem?_eq_some_iff.1 ready
      rw [← heq, List.set_getElem_self]
    refine ⟨[], ?_⟩
    rw [hsame]
    exact .refl
  | cons id ids ih =>
    have hlt : i < b.sweeps.length := (List.getElem?_eq_some_iff.1 ready).1
    -- Any id of the list may come next; here they are taken in order.
    have first := Run.refl.step (.fail ready (List.mem_cons_self ..))
    rw [List.erase_cons_head] at first
    obtain ⟨tr, rest⟩ := ih
      { b with
        correlator := b.correlator.fail e id
        sweeps := b.sweeps.set i { error := e, left := some ids } }
      (List.getElem?_set_self hlt)
    rw [List.set_set] at rest
    exact ⟨_, first.trans rest⟩

/-- Failing all calls without disturbance is what the correlator does at one stroke. -/
theorem failAll_alone (b : Desk) (e : CallError) :
    ∃ tr, Run b tr
      { b with
        correlator := b.correlator.failAll e
        sweeps := b.sweeps ++ [{ error := e, left := some [] }] } := by
  have hlast : ∀ s, (b.sweeps ++ [s])[b.sweeps.length]? = some s := by simp
  have hset : ∀ s s', (b.sweeps ++ [s]).set b.sweeps.length s' = b.sweeps ++ [s'] := by simp
  have closed := Run.refl.step (.close b e)
  have looked := closed.step (.look (hlast _))
  rw [hset] at looked
  -- Nobody comes between, so the calls that it saw are those that it fails.
  obtain ⟨tr, failed⟩ := fail_alone
    { b with
      correlator := b.correlator.close
      sweeps := b.sweeps ++ [{ error := e, left := some b.correlator.pending.toList }] }
    b.correlator.pending.toList (hlast _)
  rw [hset] at failed
  exact ⟨_, looked.trans failed⟩

end Desk

end StreamRpc
