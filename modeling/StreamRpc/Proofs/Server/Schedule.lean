import StreamRpc.Proofs.Queue.History
import StreamRpc.Proofs.Server.Introduction
import StreamRpc.Proofs.Server.Requests

/-! # Schedules

A schedule says who has a turn after whom: the tasks of a server, those who send to its queue, and
whoever does anything else around the server.  Who cannot do anything when it has a turn does
nothing, so that every schedule can be carried out.

Anything may stand on the queue of a server.  A payload is legible if a message to the server can be
read from it.  The turn in which the server reads its queue takes it past what is not.

* `Stage.carry`         carries out a schedule
* `Stage.carry_run`     which is a run
* `Stage.turn_of_serve` every step in which the server reads its queue is a turn
-/

namespace StreamRpc

open Wire (Bytes)

/-- Whether a message to a server can be read from an envelope. -/
def Envelope.legible (e : Envelope) : Bool :=
  (ClientMessage.ofEnvelope e).isOk

/-- Whether a message to a server can be read from a payload. -/
def legible (bs : Bytes) : Bool :=
  match Envelope.ofBytes bs with
  | .ok e => e.legible
  | .error _ => false

/-- The next envelope is taken off the front, and what stands before it does not parse. -/
theorem filter_legible_of_nextEnvelope {ws rest : List Bytes} {e : Envelope}
    (h : nextEnvelope? ws = some (e, rest)) : rest.length < ws.length ∧
      ∃ bs, Envelope.ofBytes bs = .ok e ∧
        ws.filter legible = [bs].filter legible ++ rest.filter legible := by
  induction ws with
  | nil => cases h
  | cons bs ws ih =>
    unfold nextEnvelope? at h
    -- What cannot be read is passed by, and it is not legible either.
    cases hbs : Envelope.ofBytes bs with
    | ok e' =>
      simp only [hbs, Option.some.injEq, Prod.mk.injEq] at h
      obtain ⟨rfl, rfl⟩ := h
      exact ⟨Nat.lt_succ_self _, bs, hbs, List.filter_append [bs] ws⟩
    | error err =>
      simp only [hbs] at h
      obtain ⟨hlen, bs', hbs', hfilter⟩ := ih h
      have hnot : legible bs = false := by simp only [legible, hbs]
      refine ⟨Nat.lt_succ_of_lt hlen, bs', hbs', ?_⟩
      rw [List.filter_cons_of_neg (by simp [hnot]), hfilter]

/-- A queue without a next envelope holds nothing legible. -/
theorem filter_legible_of_none {ws : List Bytes} (h : nextEnvelope? ws = none) :
    ws.filter legible = [] := by
  induction ws with
  | nil => rfl
  | cons bs ws ih =>
    unfold nextEnvelope? at h
    -- Were the first one legible, it would be the next envelope.
    cases hbs : Envelope.ofBytes bs with
    | ok e => simp [hbs] at h
    | error err =>
      simp only [hbs] at h
      have hnot : legible bs = false := by simp only [legible, hbs]
      rw [List.filter_cons_of_neg (by simp [hnot]), ih h]

/-- Whether this is done with a reader that somebody else has. -/
def Broker.Deed.uses (reader : MailboxId) : Broker.Deed → Bool
  | .receive r => r = reader
  | .dropReader r => r = reader
  | _ => false

namespace Stage

variable {st st' : Stage} {e : Envelope}

/-! ## Passing over envelopes -/

/-- Takes the next envelope off the server's queue, if no message can be read from it. -/
def pass? (st : Stage) : Option (Envelope × Stage) := do
  let inbox ← st.server.inbox
  match st.transport.receive inbox with
  | (.envelope e, transport) => if e.legible then none else some (e, { st with transport })
  | _ => none

/-- How much stands on the server's queue. -/
def backlog (st : Stage) : Nat :=
  st.server.inbox.elim 0 st.transport.broker.waitingCount

/-- The server's queue with so much left on it. -/
def withBacklog (st : Stage) (id : MailboxId) (m : Mailbox) (rest : List Bytes) : Stage :=
  { st with transport := { st.transport with
      broker := st.transport.broker.setMailbox id { m with waiting := rest } } }

/-- What was passed over stood in front of the rest. -/
theorem pass_eq (h : st.pass? = some (e, st')) :
    ∃ id m rest, st.server.inbox = some id ∧ st.transport.broker.mailboxes[id.index]? = some m ∧
      nextEnvelope? m.waiting = some (e, rest) ∧ e.legible = false ∧
        st' = st.withBacklog id m rest := by
  obtain ⟨id, hid, h⟩ := Option.bind_eq_some_iff.1 h
  unfold Transport.receive Broker.receive at h
  cases hm : st.transport.broker.mailboxes[id.index]? with
  | none => simp [hm] at h
  | some m =>
    simp only [hm] at h
    cases hn : nextEnvelope? m.waiting with
    | none =>
      simp only [hn] at h
      cases hlive : m.live <;> simp [hlive] at h
    | some p =>
      obtain ⟨e', rest⟩ := p
      simp only [hn] at h
      -- An envelope that can be read is left where it is.
      split at h
      · cases h
      · next hnot =>
        obtain ⟨rfl, rfl⟩ := Prod.mk.injEq .. ▸ Option.some.inj h
        exact ⟨id, m, rest, hid, hm, hn, Bool.not_eq_true _ ▸ hnot, rfl⟩

/-- Reading past a payload leaves fewer of them. -/
private theorem backlog_pass (h : st.pass? = some (e, st')) : st'.backlog < st.backlog := by
  obtain ⟨id, m, rest, hid, hm, hn, -, rfl⟩ := pass_eq h
  have hlen := (filter_legible_of_nextEnvelope hn).1
  simpa [backlog, withBacklog, hid, Broker.waitingCount, Broker.setMailbox, hm] using hlen

/-- The server takes the next envelope off its queue. -/
theorem serve_of_next {id : MailboxId} {m : Mailbox} {rest : List Bytes}
    (hid : st.server.inbox = some id) (hm : st.transport.broker.mailboxes[id.index]? = some m)
    (hn : nextEnvelope? m.waiting = some (e, rest)) :
    st.serve? = some ((st.withBacklog id m rest).accept e) ∧
      st.serveEvents = st.acceptEvents e := by
  have hreceive : st.transport.receive id = (.envelope e, (st.withBacklog id m rest).transport) := by
    simp only [Transport.receive, Broker.receive, hm, hn, withBacklog]
  constructor
  · simp only [serve?, hid, hreceive, Option.bind_eq_bind, Option.bind_some]
    rfl
  · simp only [serveEvents, hid, hreceive, Option.map_some]

/-- Passing over an envelope is a step in which the server reads its queue. -/
private theorem serve_of_pass (h : st.pass? = some (e, st')) :
    st.serve? = some st' ∧ st.serveEvents = [.served e] := by
  obtain ⟨id, m, rest, hid, hm, hn, hnot, rfl⟩ := pass_eq h
  obtain ⟨go, hes⟩ := serve_of_next hid hm hn
  -- What is passed by is an envelope without a client's message in it.
  unfold Envelope.legible at hnot
  cases he : ClientMessage.ofEnvelope e with
  | ok message =>
    rw [he] at hnot
    cases hnot
  | error err =>
    exact ⟨by simp only [go, accept, he], by simp only [hes, acceptEvents, he]⟩

/-- Passes over what stands before the next message on the server's queue. -/
def passAll (st : Stage) : ServerTrace × Stage :=
  match _passed : st.pass? with
  | some (e, st') => (.served e :: st'.passAll.1, st'.passAll.2)
  | none => ([], st)
termination_by st.backlog
decreasing_by all_goals exact backlog_pass _passed

/-- What is shown of passing over one envelope at a time holds of passing over all of them. -/
theorem passAll_induct {P : Stage → ServerTrace → Stage → Prop}
    (stay : ∀ st, st.pass? = none → P st [] st)
    (pass : ∀ st e st₁ es st₂, st.pass? = some (e, st₁) → P st₁ es st₂ →
      P st (.served e :: es) st₂) (st : Stage) : P st st.passAll.1 st.passAll.2 := by
  -- What is left on the queue gets shorter with each envelope.
  induction hk : st.backlog using Nat.strongRecOn generalizing st with
  | ind k ih =>
    unfold passAll
    split
    · next e st₁ h => exact pass st e st₁ _ _ h (ih _ (hk ▸ backlog_pass h) st₁ rfl)
    · next h => exact stay st h

/-- Reading past all that is illegible is a run. -/
private theorem passAll_run (st : Stage) : Run st st.passAll.1 st.passAll.2 := by
  refine passAll_induct (fun st _ => .refl) (fun st e st₁ es st₂ h run => ?_) st
  obtain ⟨go, hes⟩ := serve_of_pass h
  have first : Run st ([] ++ st.serveEvents) st₁ := Run.refl.step (.serve go)
  rw [List.nil_append, hes] at first
  exact first.trans run

/-- No more is passed over than has to be. -/
theorem pass_passAll (st : Stage) : st.passAll.2.pass? = none :=
  passAll_induct (P := fun _ _ st' => st'.pass? = none) (fun _ h => h) (fun _ _ _ _ _ _ h => h) st

/-! ## Turns -/

/-- Whose turn it is. -/
inductive Turn where
  /-- The server takes the next message off its queue, and passes over what stands before it. -/
  | serve
  /-- The server passes over an envelope that no message can be read from. -/
  | pass
  /-- The server hears that a client is gone. -/
  | depart
  | handle (clock n : Nat)
  | forward (n : Nat)
  | withdraw (id : StreamId)
  /-- A payload comes in on the server's queue. -/
  | arrive (bytes : Bytes)
  /-- The server stops reading. -/
  | halt
  /-- Somebody else does something with the queues. -/
  | deed (d : Broker.Deed)
  /-- From now on these faults lie in wait. -/
  | faults (fs : List Fault)
  /-- Sources have items, or end, or others come to be. -/
  | sources (change : Sources → Sources)
  /-- Methods change what they do. -/
  | methods (router : Router)

/-- Puts a payload on the server's queue, while the server reads it. -/
def arrive (st : Stage) (bytes : Bytes) : Stage :=
  if st.transport.broker.queues[st.server.queue]? = st.server.inbox then
    match st.transport.broker.sendRaw st.server.queue bytes with
    | .ok broker => { st with transport := { st.transport with broker } }
    | .error _ => st
  else st

/-- Does something with the queues, but not with the server's own reader. -/
def deed (st : Stage) (d : Broker.Deed) : Stage :=
  if st.server.inbox.any fun reader => d.uses reader then st
  else { st with transport := { st.transport with broker := (st.transport.broker.perform d).2 } }

/-- Makes a move, or none if it cannot be made. -/
def tryMove (st : Stage) (m : Move) : ServerTrace × Stage :=
  (st.move? m).getD ([], st)

/-- What happens in a turn, and what it leaves. -/
def turn (st : Stage) : Turn → ServerTrace × Stage
  | .serve => (st.passAll.1 ++ (st.passAll.2.tryMove .serve).1, (st.passAll.2.tryMove .serve).2)
  | .pass =>
    match st.pass? with
    | some (e, st') => ([.served e], st')
    | none => ([], st)
  | .depart => st.tryMove .depart
  | .handle clock n => st.tryMove (.handle clock n)
  | .forward n => st.tryMove (.forward n)
  | .withdraw id => st.tryMove (.withdraw id)
  | .arrive bytes => ([], st.arrive bytes)
  | .halt => ([], st.halt)
  | .deed d => ([], st.deed d)
  | .faults fs => ([], { st with transport := { st.transport with faults := fs } })
  | .sources change => ([], { st with sources := change st.sources })
  | .methods router => ([], st.setServer { st.server with router })

/-- Carries out a schedule. -/
def carry (st : Stage) : List Turn → ServerTrace × Stage
  | [] => ([], st)
  | t :: ts => ((st.turn t).1 ++ ((st.turn t).2.carry ts).1, ((st.turn t).2.carry ts).2)

/-- Two schedules in a row are carried out one after the other. -/
theorem carry_append (st : Stage) (ts ts' : List Turn) :
    st.carry (ts ++ ts') =
      ((st.carry ts).1 ++ ((st.carry ts).2.carry ts').1, ((st.carry ts).2.carry ts').2) := by
  induction ts generalizing st with
  | nil => rfl
  | cons t ts ih => simp only [List.cons_append, carry, ih, List.append_assoc]

/-! ## Turns are steps -/

/-- A move that may not be possible is a run of one step or none. -/
private theorem tryMove_run (st : Stage) (m : Move) : Run st (st.tryMove m).1 (st.tryMove m).2 := by
  unfold tryMove
  cases h : st.move? m with
  | none => exact .refl
  | some p =>
    have first : Run st ([] ++ p.1) p.2 := Run.refl.step (move_step h)
    rwa [List.nil_append] at first

/-- A payload that arrives changes nothing of the server's work. -/
private theorem sameWork_arrive (st : Stage) (bytes : Bytes) : st.SameWork (st.arrive bytes) := by
  unfold arrive
  split
  · split <;> exact ⟨rfl, rfl, rfl, rfl⟩
  · exact ⟨rfl, rfl, rfl, rfl⟩

/-- What is done to the broker changes nothing of the server's work. -/
private theorem sameWork_deed (st : Stage) (d : Broker.Deed) : st.SameWork (st.deed d) := by
  unfold deed
  split <;> exact ⟨rfl, rfl, rfl, rfl⟩

/-- A change around the server is a run without events. -/
private theorem Run.around {st st' : Stage} (same : st.SameWork st') : Run st [] st' :=
  Run.refl.step (.around same)

/-- What happens in a turn is a run. -/
theorem turn_run (st : Stage) (t : Turn) : Run st (st.turn t).1 (st.turn t).2 := by
  -- A turn is at most one move of the server after what it passes by; all else is the surroundings.
  cases t with
  | serve => exact st.passAll_run.trans (st.passAll.2.tryMove_run .serve)
  | pass =>
    simp only [turn]
    split
    · next e st' h =>
      obtain ⟨go, hes⟩ := serve_of_pass h
      have first : Run st ([] ++ st.serveEvents) st' := Run.refl.step (.serve go)
      rwa [List.nil_append, hes] at first
    · exact .refl
  | depart => exact st.tryMove_run .depart
  | handle clock n => exact st.tryMove_run (.handle clock n)
  | forward n => exact st.tryMove_run (.forward n)
  | withdraw id => exact st.tryMove_run (.withdraw id)
  | arrive bytes => exact .around (st.sameWork_arrive bytes)
  | halt => exact .around ⟨rfl, rfl, rfl, rfl⟩
  | deed d => exact .around (st.sameWork_deed d)
  | faults fs => exact .around ⟨rfl, rfl, rfl, rfl⟩
  | sources change => exact .around ⟨rfl, rfl, rfl, rfl⟩
  | methods router => exact .around ⟨rfl, rfl, rfl, rfl⟩

/-- Carrying out a schedule is a run. -/
theorem carry_run (st : Stage) (ts : List Turn) : Run st (st.carry ts).1 (st.carry ts).2 := by
  induction ts generalizing st with
  | nil => exact .refl
  | cons t ts ih => exact (st.turn_run t).trans (ih _)

/-- Whenever the server reads its queue, it is its turn, or it passes over an envelope. -/
theorem turn_of_serve (go : st.serve? = some st') :
    ∃ t, (t = .serve ∨ t = .pass) ∧ st.turn t = (st.serveEvents, st') := by
  cases h : st.pass? with
  | some p =>
    obtain ⟨e, st₁⟩ := p
    obtain ⟨go', hes⟩ := serve_of_pass h
    obtain rfl := Option.some.inj (go.symm.trans go')
    exact ⟨.pass, .inr rfl, by simp only [turn, h, hes]⟩
  | none =>
    refine ⟨.serve, .inl rfl, ?_⟩
    -- Nothing stands before the message, so nothing is passed over.
    have hstay : st.passAll = ([], st) := by
      unfold passAll
      split
      · next h' => simp [h] at h'
      · rfl
    simp only [turn, hstay, tryMove, move?, go, Option.map_some, Option.getD_some,
      List.nil_append]

end Stage

end StreamRpc
