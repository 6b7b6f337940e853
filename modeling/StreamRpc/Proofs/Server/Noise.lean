import StreamRpc.Proofs.Server.Likeness
import StreamRpc.Proofs.Server.Settling

/-! # Noise on the server's queue

What cannot be read on the server's queue is passed over and changes nothing.  Two stages are alike
if they differ in nothing else.  Every turn does the same in both: it tells the same, but for what is
passed over, and leaves stages that are alike.

* `Stage.Alike.turn`     every turn
* `Stage.Alike.noise`    a turn in which noise comes in or is passed over
* `Stage.carry_noise`    schedules that differ in noise only
-/

namespace StreamRpc

open Wire (Bytes)

namespace Stage

/-- Two stages differ only in what cannot be read on the server's queue. -/
structure Alike (st st' : Stage) : Prop where
  server : st'.server = st.server
  sources : st'.sources = st.sources
  transport : st.transport.Alike st.server.inbox st'.transport

/-- What a step of a task tells or comes to is the same, and what it leaves is alike. -/
structure AlikeStep {α : Type} (p p' : α × Stage) : Prop where
  same : p'.1 = p.1
  alike : p.2.Alike p'.2

namespace Alike

variable {st st' st'' : Stage}

/-- A stage is like itself. -/
theorem refl (st : Stage) : st.Alike st :=
  ⟨rfl, rfl, rfl, .refl _⟩

/-- Likeness of stages goes both ways. -/
theorem symm (h : st.Alike st') : st'.Alike st :=
  ⟨h.server.symm, h.sources.symm, h.transport.faults.symm, h.server ▸ h.transport.broker.symm⟩

/-- Likeness of stages carries on. -/
theorem trans (h : st.Alike st') (h' : st'.Alike st'') : st.Alike st'' :=
  ⟨h'.server.trans h.server, h'.sources.trans h.sources,
    h'.transport.faults.trans h.transport.faults,
    h.transport.broker.trans (h.server ▸ h'.transport.broker)⟩

/-- Only the ways to the queues differ. -/
private theorem eq_with (h : st.Alike st') : st' = { st with transport := st'.transport } := by
  obtain ⟨server, sources, transport⟩ := st
  obtain ⟨server', sources', transport'⟩ := st'
  obtain rfl : server' = server := h.server
  obtain rfl : sources' = sources := h.sources
  rfl

end Alike

/-- The same stage with another way to the queues is alike, if the ways are. -/
private theorem alike_with {st : Stage} {t : Transport} (h : st.transport.Alike st.server.inbox t) :
    st.Alike { st with transport := t } :=
  ⟨rfl, rfl, h⟩

/-! ## Tasks -/

section

variable (st : Stage) (t : Transport) (alike : st.transport.Alike st.server.inbox t)

/-- Starting tasks does not change the server's queue. -/
theorem inbox_start (client : String) (subs : List Subscription) :
    (st.start client subs).server.inbox = st.server.inbox := by
  unfold start
  generalize st.server = s
  induction subs generalizing s with
  | nil => rfl
  | cons sub subs ih => exact ih _

include alike

/-- On transports that are alike a send comes to the same. -/
private theorem alike_send (client : String) (e : Envelope) :
    AlikeStep (st.send client e) (({ st with transport := t } : Stage).send client e) := by
  obtain ⟨same, alike'⟩ := alike.send client e
  exact ⟨same, rfl, rfl, alike'⟩

/-- An answer does the same. -/
private theorem alike_reply (client : String) (id : CallId) (r : Reply) :
    AlikeStep (r.step client id st) (r.step client id { st with transport := t }) := by
  cases r with
  | answered result =>
    cases result with
    | ok v => exact ⟨rfl, rfl, rfl, alike⟩
    | error f => exact ⟨rfl, rfl, rfl, alike⟩
  | exposed result subs =>
    simp only [Reply.step]
    split
    · exact ⟨rfl, rfl, rfl, alike⟩
    · split <;> exact ⟨rfl, rfl, rfl, alike⟩
  | encoded e subs =>
    have h := st.alike_send t alike client e
    simp only [Reply.step]
    generalize st.send client e = p at h ⊢
    generalize ({ st with transport := t } : Stage).send client e = p' at h ⊢
    obtain ⟨result, st₁⟩ := p
    obtain ⟨result', st₁'⟩ := p'
    -- Sending comes to the same on both transports, so both replies go on alike.
    obtain rfl : result' = result := h.same
    cases result' with
    | ok u => exact ⟨rfl, h.alike⟩
    | error err => exact ⟨rfl, h.alike⟩
  -- Starting tasks leaves the transport and the inbox alone.
  | accepted subs =>
    refine ⟨rfl, rfl, rfl, ?_⟩
    show Transport.Alike (st.start client subs).server.inbox st.transport t
    rwa [inbox_start]
  | refused err subs => exact ⟨rfl, rfl, rfl, alike⟩

/-- What is told of a reply's step does not depend on the noise. -/
private theorem alike_replyEvents (w : Worker) (client : String) (id : CallId) (r : Reply) :
    ({ st with transport := t } : Stage).replyEvents w client id r =
      st.replyEvents w client id r := by
  cases r with
  | answered result => cases result <;> rfl
  | encoded e subs =>
    simp only [replyEvents, sending]
    rw [(alike.send client e).1]
  | _ => rfl

/-- A request does the same. -/
private theorem alike_advance (clock : Nat) (h : Handling) :
    Option.Rel AlikeStep (st.advance? clock h)
      (({ st with transport := t } : Stage).advance? clock h) := by
  obtain ⟨client, id, method, phase⟩ := h
  cases phase with
  | received args =>
    simp only [advance?]
    cases plainArgs args <;> exact .some ⟨rfl, rfl, rfl, alike⟩
  | running b =>
    cases b with
    | ends e =>
      simp only [advance?, answer]
      cases e.result method <;> exact .some ⟨rfl, rfl, rfl, alike⟩
    | waits ms after => exact .some ⟨rfl, rfl, rfl, alike⟩
    | hangs => exact .none
  | sleeping till after =>
    simp only [advance?]
    -- Whether the task has slept long enough depends on the clock alone.
    split
    · exact .some ⟨rfl, rfl, rfl, alike⟩
    · exact .none
  -- Only a reply touches the queues; every other phase leaves them as they are.
  | replying r =>
    have h := st.alike_reply t alike client id r
    simp only [advance?]
    generalize r.step client id st = p at h ⊢
    generalize r.step client id { st with transport := t } = p' at h ⊢
    obtain ⟨next, st₁⟩ := p
    obtain ⟨next', st₁'⟩ := p'
    obtain rfl : next' = next := h.same
    cases next' <;> exact .some ⟨rfl, h.alike⟩

/-- What is told of a request's step does not depend on the noise. -/
private theorem alike_handlingEvents (n : Nat) (h : Handling) :
    ({ st with transport := t } : Stage).handlingEvents n h = st.handlingEvents n h := by
  obtain ⟨client, id, method, phase⟩ := h
  cases phase with
  | replying r => exact st.alike_replyEvents t alike _ client id r
  | running b => cases b <;> rfl
  | _ => rfl

/-- What a step of passing on a stream leaves is alike, and the rest is the same. -/
structure AlikeOutcome (o o' : Forwarding.Outcome) : Prop where
  phase : o'.phase = o.phase
  retires : o'.retires = o.retires
  alike : o.stage.Alike o'.stage

/-- Passing on a stream does the same. -/
private theorem alike_pass (f : Forwarding) :
    Option.Rel AlikeOutcome (f.step? st) (f.step? { st with transport := t }) := by
  obtain ⟨client, id, source, signal, phase⟩ := f
  cases phase with
  -- The tracker decides, which the queues are not part of.
  | waiting =>
    simp only [Forwarding.step?, Forwarding.pull?]
    by_cases armed : st.tracker.signal signal = .armed
    · have armed' : ({ st with transport := t } : Stage).tracker.signal signal = .armed := armed
      rw [if_pos armed, if_pos armed']
      cases st.sources.poll source with
      | mk poll sources =>
        cases poll with
        | pending => exact .none
        | item e => exact .some ⟨rfl, rfl, rfl, rfl, alike⟩
        | ended => exact .some ⟨rfl, rfl, rfl, rfl, alike⟩
    · have armed' : ¬ ({ st with transport := t } : Stage).tracker.signal signal = .armed := armed
      rw [if_neg armed, if_neg armed']
      exact .some ⟨rfl, rfl, rfl, rfl, alike⟩
  | pulled event =>
    simp only [Forwarding.step?]
    by_cases active : st.tracker.isActive id = true
    · have active' : ({ st with transport := t } : Stage).tracker.isActive id = true := active
      rw [if_pos active, if_pos active']
      exact .some ⟨rfl, rfl, rfl, rfl, alike⟩
    · have active' : ¬ ({ st with transport := t } : Stage).tracker.isActive id = true := active
      rw [if_neg active, if_neg active']
      exact .some ⟨rfl, rfl, rfl, rfl, alike⟩
  | cleared event => cases event <;> exact .some ⟨rfl, rfl, rfl, rfl, alike⟩
  | exposed event nested =>
    simp only [Forwarding.step?, Forwarding.encode]
    split <;> exact .some ⟨rfl, rfl, rfl, rfl, alike⟩
  -- A phase that sends: the other queues answer in the same way, so it goes on in the same way.
  | encoded e terminal nested =>
    have h := st.alike_send t alike client e
    simp only [Forwarding.step?]
    generalize st.send client e = p at h ⊢
    generalize ({ st with transport := t } : Stage).send client e = p' at h ⊢
    obtain ⟨result, st₁⟩ := p
    obtain ⟨result', st₁'⟩ := p'
    obtain rfl : result' = result := h.same
    cases result' <;> exact .some ⟨rfl, rfl, h.alike⟩
  | accepted terminal nested =>
    refine .some ⟨rfl, rfl, rfl, rfl, ?_⟩
    show Transport.Alike (st.start client nested).server.inbox st.transport t
    rwa [inbox_start]
  | refused nested => exact .some ⟨rfl, rfl, rfl, rfl, alike⟩
  | failing failure =>
    simp only [Forwarding.step?, Forwarding.tell]
    split
    · next e _ => exact .some ⟨rfl, rfl, (st.alike_send t alike client e).alike⟩
    · exact .some ⟨rfl, rfl, rfl, rfl, alike⟩
  | closing => exact .some ⟨rfl, rfl, rfl, rfl, alike⟩

/-- What is told of a stream's step does not depend on the noise. -/
private theorem alike_forwardingEvents (n : Nat) (f : Forwarding) :
    ({ st with transport := t } : Stage).forwardingEvents n f = st.forwardingEvents n f := by
  obtain ⟨client, id, source, signal, phase⟩ := f
  -- Only the two phases that send look at the transport.
  cases phase with
  | cleared event => cases event <;> rfl
  | encoded e terminal nested =>
    simp only [forwardingEvents, sending]
    rw [(alike.send client e).1]
  | failing failure =>
    simp only [forwardingEvents]
    split
    · simp only [sending]
      rw [(alike.send client _).1]
    · rfl
  | _ => rfl

/-! ## Moves -/

/-- The same client is heard to be gone. -/
private theorem alike_depart : Option.Rel AlikeStep (st.move? .depart)
    (({ st with transport := t } : Stage).move? .depart) := by
  simp only [move?, depart?, departEvents, Transport.departure?]
  cases st.server.departures with
  | none => exact .none
  | some watcher =>
    -- The departure watcher hears the same on both sides.
    obtain ⟨hd, hd'⟩ | ⟨name, c, c', hd, hd', hcc⟩ := alike.broker.departure watcher
    · simp only [Option.bind_eq_bind, Option.bind_some, hd, hd']
      exact .none
    · simp only [Option.bind_eq_bind, Option.bind_some, Transport.departure?, hd, hd',
        Option.map_some]
      exact .some ⟨rfl, rfl, rfl, alike.faults, hcc⟩

/-- The task of a request does the same in its turn. -/
private theorem alike_handle (clock n : Nat) : Option.Rel AlikeStep (st.move? (.handle clock n))
    (({ st with transport := t } : Stage).move? (.handle clock n)) := by
  simp only [move?, handle?]
  cases st.server.handlings[n]? with
  | none => exact .none
  | some task =>
    have hstep := st.alike_advance t alike clock task
    simp only [Option.bind_eq_bind, Option.bind_some, st.alike_handlingEvents t alike n task]
    -- The tasks are the same on both sides; what is left is to write the phase back.
    generalize st.advance? clock task = o at hstep ⊢
    generalize ({ st with transport := t } : Stage).advance? clock task = o' at hstep ⊢
    cases hstep with
    | none => exact .none
    | @some p p' hp =>
      obtain ⟨phase, st₁⟩ := p
      obtain ⟨phase', st₁'⟩ := p'
      obtain rfl : phase' = phase := hp.same
      have hs : st₁'.server = st₁.server := hp.alike.server
      simp only [Option.bind_some, Option.map_some, Option.pure_def, hs]
      exact .some ⟨rfl, rfl, hp.alike.sources, hp.alike.transport⟩

/-- The task of a stream does the same in its turn. -/
private theorem alike_forward (n : Nat) : Option.Rel AlikeStep (st.move? (.forward n))
    (({ st with transport := t } : Stage).move? (.forward n)) := by
  simp only [move?, forward?]
  cases st.server.forwardings[n]? with
  | none => exact .none
  | some task =>
    have hstep := st.alike_pass t alike task
    simp only [Option.bind_eq_bind, Option.bind_some, st.alike_forwardingEvents t alike n task]
    -- The two steps are compared as they come out, without looking into the task.
    generalize task.step? st = o at hstep ⊢
    generalize task.step? { st with transport := t } = o' at hstep ⊢
    cases hstep with
    | none => exact .none
    | @some p p' hp =>
      obtain ⟨phase, st₁, retires⟩ := p
      obtain ⟨phase', st₁', retires'⟩ := p'
      obtain rfl : phase' = phase := hp.phase
      have hs : st₁'.server = st₁.server := hp.alike.server
      simp only [Option.bind_some, Option.map_some, Option.pure_def, hs]
      exact .some ⟨rfl, rfl, hp.alike.sources, hp.alike.transport⟩

end

/-- The moves that tasks make, but for reading the server's queue. -/
inductive Tasked : Move → Prop where
  | depart : Tasked .depart
  | handle (clock n : Nat) : Tasked (.handle clock n)
  | forward (n : Nat) : Tasked (.forward n)
  | withdraw (id : StreamId) : Tasked (.withdraw id)

/-- Every move of a task does the same. -/
private theorem Alike.move {st st' : Stage} (h : st.Alike st') {m : Move} (tasked : Tasked m) :
    Option.Rel AlikeStep (st.move? m) (st'.move? m) := by
  rw [h.eq_with]
  have alike := h.transport
  cases tasked with
  | depart => exact st.alike_depart _ alike
  | handle clock n => exact st.alike_handle _ alike clock n
  | forward n => exact st.alike_forward _ alike n
  | withdraw id => exact .some ⟨rfl, rfl, rfl, alike⟩

/-- Stages that are alike make a task's move alike. -/
private theorem Alike.tryMove {st st' : Stage} (h : st.Alike st') {m : Move} (tasked : Tasked m) :
    AlikeStep (st.tryMove m) (st'.tryMove m) := by
  have hm := h.move tasked
  unfold Stage.tryMove
  generalize st.move? m = o at hm ⊢
  generalize st'.move? m = o' at hm ⊢
  cases hm with
  | none => exact ⟨rfl, h⟩
  | some hp => exact hp

/-! ## The server's queue -/

/-- Passing over an envelope changes nothing else. -/
private theorem alike_pass? {st st' : Stage} {e : Envelope} (h : st.pass? = some (e, st')) :
    st.Alike st' := by
  obtain ⟨id, m, rest, hid, hm, hn, hnot, rfl⟩ := pass_eq h
  have hfront : rest.filter legible = m.waiting.filter legible := front_of_illegible hn hnot
  have hmm : m.Alike (st.server.inbox = some id) { m with waiting := rest } :=
    .of_legible hid hfront
  exact alike_with ⟨rfl, rfl, .replace hm hmm, rfl, rfl, rfl⟩

/-- A stage is like what is left of it when it has read past what is illegible. -/
private theorem alike_passAll (st : Stage) : st.Alike st.passAll.2 :=
  passAll_induct (P := fun st _ st' => st.Alike st') (fun st _ => .refl st)
    (fun _ _ _ _ _ h ih => (alike_pass? h).trans ih) st

/-- What is read after everything has been passed over is legible. -/
theorem legible_of_passed {st : Stage} (passed : st.pass? = none) {id : MailboxId}
    (hid : st.server.inbox = some id) {m : Mailbox} {e : Envelope} {rest : List Bytes}
    (hm : st.transport.broker.mailboxes[id.index]? = some m)
    (hn : nextEnvelope? m.waiting = some (e, rest)) : e.legible = true := by
  refine Bool.not_eq_false _ ▸ fun hnot => ?_
  simp [pass?, hid, Transport.receive, Broker.receive, hm, hn, hnot] at passed

/-- Stages that are alike deal with an envelope alike. -/
private theorem alike_accept {st st' : Stage} (h : st.Alike st') (e : Envelope) :
    AlikeStep (st.acceptEvents e, st.accept e) (st'.acceptEvents e, st'.accept e) := by
  rw [h.eq_with]
  have alike := h.transport
  generalize st'.transport = t at alike ⊢
  unfold accept acceptEvents
  cases ClientMessage.ofEnvelope e with
  | error err => exact ⟨rfl, rfl, rfl, alike⟩
  | ok m => cases m <;> exact ⟨rfl, rfl, rfl, alike⟩

/-- A server that has passed over what it cannot read finds the same message. -/
private theorem Alike.serve {st st' : Stage} (h : st.Alike st') (passed : st.pass? = none)
    (passed' : st'.pass? = none) : AlikeStep (st.tryMove .serve) (st'.tryMove .serve) := by
  have hinbox' : st'.server.inbox = st.server.inbox := by rw [h.server]
  unfold Stage.tryMove
  simp only [move?, serve?, serveEvents]
  cases hinbox : st.server.inbox with
  | none =>
    rw [hinbox] at hinbox'
    simp only [hinbox']
    exact ⟨rfl, h⟩
  | some id =>
    rw [hinbox] at hinbox'
    simp only [hinbox', Option.bind_eq_bind, Option.bind_some, Option.map_some]
    -- Neither has anything left to pass over, so the next envelope is legible on both sides, and
    -- legible envelopes are the same.
    have alike := h.transport
    rw [hinbox] at alike
    obtain ⟨same, hreceive⟩ := alike.broker.receiveOwn
      (fun m e rest hm hn => legible_of_passed passed hinbox hm hn)
      (fun m e rest hm hn => legible_of_passed passed' hinbox' hm hn)
    unfold Transport.receive
    generalize st.transport.broker.receive id = p at same hreceive ⊢
    generalize st'.transport.broker.receive id = p' at same hreceive ⊢
    obtain ⟨arrival, b⟩ := p
    obtain ⟨arrival', b'⟩ := p'
    obtain rfl : arrival' = arrival := same
    cases arrival' with
    | envelope e =>
      have hread : ({ st with transport := { st.transport with broker := b } } : Stage).Alike
          { st' with transport := { st'.transport with broker := b' } } := by
        refine ⟨h.server, h.sources, alike.faults, ?_⟩
        show Broker.Alike st.server.inbox b b'
        rwa [hinbox]
      exact alike_accept hread e
    | nothing => exact ⟨rfl, h⟩
    | ended =>
      -- the server stops reading, and with its mailbox the difference goes
      simp only [Option.map_some, Option.getD_some, h.server]
      exact ⟨rfl, rfl, h.sources, alike.faults, hreceive.dropOwn⟩

/-! ## Turns -/

end Stage

/-- Whether an event tells of more than that something was passed over. -/
def ServerEvent.telling : ServerEvent → Bool
  | served e => e.legible
  | _ => true

namespace Stage

/-- Whether more can happen in a turn than that noise comes in or is passed over. -/
def Turn.telling : Turn → Bool
  | .pass => false
  | .arrive bytes => legible bytes
  | _ => true

/-- What is told is the same but for what was passed over, and what is left is alike. -/
structure AlikeTurn (p p' : ServerTrace × Stage) : Prop where
  same : p'.1.filter ServerEvent.telling = p.1.filter ServerEvent.telling
  alike : p.2.Alike p'.2

/-- Steps that are alike are turns that are alike. -/
private theorem AlikeStep.turn {p p' : ServerTrace × Stage} (h : AlikeStep p p') : AlikeTurn p p' :=
  ⟨by rw [h.same], h.alike⟩

/-- Nothing is told when envelopes are passed over. -/
private theorem silent_passAll (st : Stage) : st.passAll.1.filter ServerEvent.telling = [] := by
  refine passAll_induct (P := fun _ es _ => es.filter ServerEvent.telling = []) (fun _ _ => rfl)
    (fun st e st₁ es st₂ h ih => ?_) st
  obtain ⟨_, _, _, _, _, _, hnot, _⟩ := pass_eq h
  rw [List.filter_cons_of_neg (by simp [ServerEvent.telling, hnot]), ih]

/-- Stages stay alike when the same payload arrives. -/
private theorem Alike.sendRaw {st st' : Stage} (h : st.Alike st') (bytes : Bytes) :
    (st.arrive bytes).Alike (st'.arrive bytes) := by
  have hs := h.transport.broker.sendRaw st.server.queue bytes
  unfold arrive
  rw [h.server, h.transport.broker.queues]
  split
  · generalize st.transport.broker.sendRaw st.server.queue bytes = r at hs ⊢
    generalize st'.transport.broker.sendRaw st.server.queue bytes = r' at hs ⊢
    cases hs with
    | refused e => exact h
    | done hd => exact ⟨rfl, h.sources, h.transport.faults, hd⟩
  · exact h

/-- Stages stay alike when both are halted. -/
private theorem Alike.halt {st st' : Stage} (h : st.Alike st') : st.halt.Alike st'.halt := by
  have alike := h.transport
  unfold Stage.halt
  rw [h.server]
  refine ⟨rfl, h.sources, ?_⟩
  -- With its queue goes all that the two may differ in.
  cases hinbox : st.server.inbox with
  | none =>
    rw [hinbox] at alike
    cases st.server.departures with
    | none => exact alike
    | some w => exact alike.dropWatcher w
  | some id =>
    rw [hinbox] at alike
    cases st.server.departures with
    | none => exact alike.dropOwn
    | some w => exact alike.dropOwn.dropWatcher w

/-- Stages stay alike when the same is done around them. -/
private theorem Alike.deed {st st' : Stage} (h : st.Alike st') (d : Broker.Deed) :
    (st.deed d).Alike (st'.deed d) := by
  unfold Stage.deed
  rw [h.server]
  split
  · exact h
  · next hfree =>
    refine ⟨rfl, h.sources, h.transport.faults, h.transport.broker.perform fun id hid => ?_⟩
    rw [hid, Option.any_some] at hfree
    exact Bool.not_eq_true _ ▸ hfree

/-- What cannot be read may come in on the server's queue. -/
private theorem alike_arrive (st : Stage) {bytes : Bytes} (noise : legible bytes = false) :
    st.Alike (st.arrive bytes) := by
  unfold arrive Broker.sendRaw Broker.mailbox?
  split
  · next hqueue =>
    -- Without a queue or a mailbox the bytes are refused.
    cases hq : st.transport.broker.queues[st.server.queue]? with
    | none => exact .refl st
    | some id =>
      have hid : st.server.inbox = some id := hqueue.symm.trans hq
      simp only [Option.bind_eq_bind, Option.bind_some]
      cases hm : st.transport.broker.mailboxes[id.index]? with
      | none => exact .refl st
      | some m =>
        simp only [Option.bind_some, Option.pure_def]
        split
        -- The bytes are put at the end of the mailbox, where they do not count.
        · next hgo =>
          split at hgo
          · cases hgo
          · obtain rfl := Except.ok.inj hgo
            have hmm : m.Alike (st.server.inbox = some id)
                { m with waiting := m.waiting ++ [bytes] } := by
              refine .of_legible hid ?_
              rw [List.filter_append, List.filter_singleton, noise]
              exact List.append_nil _
            exact alike_with ⟨rfl, rfl, .replace hm hmm, rfl, rfl, rfl⟩
        · exact .refl st
  · exact .refl st

/-- Noise changes nothing else, neither when it comes in nor when it is passed over. -/
private theorem alike_noise (st : Stage) {t : Turn} (noise : t.telling = false) :
    AlikeTurn ([], st) (st.turn t) := by
  -- A silent turn passes over a message or lets one arrive; neither changes what is legible.
  cases t with
  | pass =>
    simp only [turn]
    split
    · next e st₁ hp =>
      obtain ⟨_, _, _, _, _, _, hnot, _⟩ := pass_eq hp
      exact ⟨by simp [ServerEvent.telling, hnot], alike_pass? hp⟩
    · exact ⟨rfl, .refl st⟩
  | arrive bytes => exact ⟨rfl, st.alike_arrive noise⟩
  | _ => cases noise

/-- Every turn does the same, but for what is passed over. -/
theorem Alike.turn {st st' : Stage} (h : st.Alike st') (t : Turn) :
    AlikeTurn (st.turn t) (st'.turn t) := by
  cases t with
  | serve =>
    -- the two may have to pass over different things, but then they find the same message
    have hpassed := st.alike_passAll.symm.trans (h.trans st'.alike_passAll)
    have hserve := hpassed.serve st.pass_passAll st'.pass_passAll
    refine ⟨?_, hserve.alike⟩
    simp only [Stage.turn, List.filter_append, silent_passAll, hserve.same]
  | pass =>
    have hnoise := st.alike_noise (t := .pass) rfl
    have hnoise' := st'.alike_noise (t := .pass) rfl
    exact ⟨hnoise'.same.trans hnoise.same.symm, hnoise.alike.symm.trans (h.trans hnoise'.alike)⟩
  | depart => exact (h.tryMove .depart).turn
  | handle clock n => exact (h.tryMove (.handle clock n)).turn
  | forward n => exact (h.tryMove (.forward n)).turn
  | withdraw id => exact (h.tryMove (.withdraw id)).turn
  | arrive bytes => exact ⟨rfl, h.sendRaw bytes⟩
  | halt => exact ⟨rfl, h.halt⟩
  | deed d => exact ⟨rfl, h.deed d⟩
  | faults fs => exact ⟨rfl, h.server, h.sources, rfl, h.transport.broker⟩
  | sources change => exact ⟨rfl, h.server, congrArg change h.sources, h.transport⟩
  | methods router =>
    exact ⟨rfl, by simp only [Stage.turn, setServer, h.server], h.sources, h.transport⟩

/-- Carrying out a schedule comes to the same without the turns in which there is nothing but
    noise. -/
private theorem Alike.carry {st st' : Stage} (h : st.Alike st') (ts : List Turn) :
    AlikeTurn (st'.carry (ts.filter Turn.telling)) (st.carry ts) := by
  -- noise is skipped on one side only, so the stages are alike and not the same
  induction ts generalizing st st' with
  | nil => exact ⟨rfl, h.symm⟩
  | cons t ts ih =>
    cases ht : t.telling with
    | true =>
      have hturn := h.turn t
      have hrest := ih hturn.alike
      rw [List.filter_cons_of_pos ht]
      refine ⟨?_, hrest.alike⟩
      simp only [Stage.carry, List.filter_append, hturn.same, hrest.same]
    | false =>
      have hnoise := st.alike_noise ht
      have hrest := ih (hnoise.alike.symm.trans h)
      rw [List.filter_cons_of_neg (by simp [ht])]
      refine ⟨?_, hrest.alike⟩
      simp only [Stage.carry, List.filter_append, hnoise.same, hrest.same, List.filter_nil,
        List.nil_append]

/-- A stage without what cannot be read on the server's queue. -/
def cleansed (st : Stage) : Stage :=
  { st with transport := { st.transport with
      broker := st.transport.broker.cleansed st.server.inbox } }

/-- Stages that are alike come to the same without the noise. -/
private theorem Alike.cleansed {st st' : Stage} (h : st.Alike st') :
    st'.cleansed = st.cleansed := by
  obtain ⟨server, sources, broker, faults⟩ := st
  obtain ⟨server', sources', broker', faults'⟩ := st'
  obtain rfl : server' = server := h.server
  obtain rfl : sources' = sources := h.sources
  obtain rfl : faults' = faults := h.transport.faults
  have hbroker : broker'.cleansed server'.inbox = broker.cleansed server'.inbox :=
    h.transport.broker.cleansed
  simp only [Stage.cleansed, hbroker]

/-- Schedules that differ only in noise come to the same. -/
theorem carry_noise (st : Stage) {ts ts' : List Turn}
    (same : ts'.filter Turn.telling = ts.filter Turn.telling) :
    (st.carry ts').1.filter ServerEvent.telling = (st.carry ts).1.filter ServerEvent.telling ∧
      (st.carry ts').2.cleansed = (st.carry ts).2.cleansed := by
  have h := (Alike.refl st).carry ts
  have h' := (Alike.refl st).carry ts'
  rw [same] at h'
  exact ⟨h'.same.trans h.same.symm, h'.alike.cleansed.trans h.alike.cleansed.symm⟩

end Stage

end StreamRpc
