import StreamRpc.Proofs.Server.Run

/-! # What a step can do

Each case says in which phase a task can do a thing, what has to hold for it, what is told of it and
what it leaves.  What is to be shown of every step of a task is shown case by case.

* `Reply.does`        an answer on its way
* `Handling.does`     a request
* `Forwarding.does`   the passing on of a stream
* `Stage.Step.does`   the whole server, its tasks among others
* `Stage.Step.sent`   a send that is told of is the send that the transport makes
-/

namespace StreamRpc

/-- What a step of an answer can do: what is told of it, what comes next and what it leaves. -/
inductive Reply.Does (w : Worker) (client : String) (id : CallId) (st : Stage) :
    Reply → ServerTrace → Reply ⊕ Except CallError Unit → Stage → Prop where
  /-- The streams in a value get numbers. -/
  | expose (v : ServerValue) :
      Does w client id st (.answered (.ok v)) [.numbered w client (st.expose client v).2.1]
        (.inl (.exposed (.ok (st.expose client v).1) (st.expose client v).2.1))
        (st.expose client v).2.2
  | exposeNone (f : Failure) :
      Does w client id st (.answered (.error f)) [.numbered w client []]
        (.inl (.exposed (.error f) [])) st
  | write {result : Except Failure WireValue} {subs : List Subscription} {e : Envelope}
      (written : (ServerMessage.reply id result).toEnvelope = .ok e) :
      Does w client id st (.exposed result subs) [] (.inl (.encoded e subs)) st
  /-- A failure takes the place of an answer that cannot be written. -/
  | excuse {result : Except Failure WireValue} {subs : List Subscription} {err : CodecError}
      {e : Envelope} (unwritable : (ServerMessage.reply id result).toEnvelope = .error err)
      (written : (ServerMessage.reply id (.error (.unwritable "reply" err))).toEnvelope = .ok e) :
      Does w client id st (.exposed result subs)
        [.unwritable w client (.reply id result) err, .dropped w subs] (.inl (.encoded e []))
        (st.abandon subs)
  /-- Not even the failure can be written. -/
  | lose {result : Except Failure WireValue} {subs : List Subscription} {err err' : CodecError}
      (unwritable : (ServerMessage.reply id result).toEnvelope = .error err)
      (unwritable' : (ServerMessage.reply id (.error (.unwritable "reply" err))).toEnvelope =
        .error err') :
      Does w client id st (.exposed result subs)
        [.unwritable w client (.reply id result) err, .dropped w subs] (.inr (.error (.codec err')))
        (st.abandon subs)
  | accept {e : Envelope} {subs : List Subscription} {t : Transport}
      (taken : st.transport.send client e = (.ok (), t)) :
      Does w client id st (.encoded e subs) [.sent w client e true] (.inl (.accepted subs))
        { st with transport := t }
  | refuse {e : Envelope} {subs : List Subscription} {err : TransportError} {t : Transport}
      (refused : st.transport.send client e = (.error err, t)) :
      Does w client id st (.encoded e subs) [.sent w client e false] (.inl (.refused err subs))
        { st with transport := t }
  | start (subs : List Subscription) :
      Does w client id st (.accepted subs)
        (.started w subs :: begun client st.server.nextTask subs) (.inr (.ok ()))
        (st.start client subs)
  | drop (err : TransportError) (subs : List Subscription) :
      Does w client id st (.refused err subs) [.dropped w subs] (.inr (.error (.transport err)))
        (st.abandon subs)

/-- These are all the things that a step of an answer does. -/
theorem Reply.does {w : Worker} {client : String} {id : CallId} {st st' : Stage} {reply : Reply}
    {next : Reply ⊕ Except CallError Unit} (go : reply.step client id st = (next, st')) :
    reply.Does w client id st (st.replyEvents w client id reply) next st' := by
  cases reply with
  | answered result =>
    cases result with
    | ok v => cases go; exact .expose v
    | error f => cases go; exact .exposeNone f
  | exposed result subs =>
    simp only [step] at go
    simp only [Stage.replyEvents, ServerMessage.writing]
    cases hw : (ServerMessage.reply id result).toEnvelope with
    | ok e =>
      rw [hw] at go
      cases go
      exact .write hw
    | error err =>
      -- The reply cannot be written, so its failure is sent, if that can be.
      simp only [hw] at go
      cases hw' : (ServerMessage.reply id (.error (.unwritable "reply" err))).toEnvelope with
      | ok e =>
        rw [hw'] at go
        cases go
        exact .excuse hw hw'
      | error err' =>
        rw [hw'] at go
        cases go
        exact .lose hw hw'
  | encoded e subs =>
    simp only [step, Stage.send] at go
    simp only [Stage.replyEvents, Stage.sending]
    -- The transport decides between the two ways on.
    cases hs : st.transport.send client e with
    | mk result t =>
      rw [hs] at go
      cases result with
      | ok u => cases go; exact .accept hs
      | error err => cases go; exact .refuse hs
  | accepted subs => cases go; exact .start subs
  | refused err subs => cases go; exact .drop err subs

/-- What a step of a request can do: what is told of it, its next phase, if it is not over, and what
    it leaves. -/
inductive Handling.Does (clock n : Nat) (h : Handling) (st : Stage) :
    ServerTrace → Option Handling.Phase → Stage → Prop where
  | call {args : List WireValue} {plain : List PlainValue} (phase : h.phase = .received args)
      (good : plainArgs args = .ok plain) :
      Does clock n h st
        [.invoked n { client := h.client, method := h.method, args := plain }
          (st.server.router.invoke { client := h.client, method := h.method, args := plain })]
        (some (.running
          (st.server.router.invoke { client := h.client, method := h.method, args := plain }))) st
  | reject {args : List WireValue} {f : Failure} (phase : h.phase = .received args)
      (bad : plainArgs args = .error f) :
      Does clock n h st [.answered n (.error f) (.error f)]
        (some (.replying (.answered (.error f)))) st
  /-- The method has ended; the sources in its answer are made. -/
  | answer {e : Ending} (phase : h.phase = .running (.ends e)) :
      Does clock n h st [.answered n (e.result h.method) (st.made (e.result h.method))]
        (some (.replying (.answered (st.made (e.result h.method)))))
        (st.answer (e.result h.method)).2
  | sleep {ms : Nat} {after : Behaviour} (phase : h.phase = .running (.waits ms after)) :
      Does clock n h st [] (some (.sleeping (clock + ms) after)) st
  | wake {till : Nat} {after : Behaviour} (phase : h.phase = .sleeping till after)
      (due : till ≤ clock) : Does clock n h st [] (some (.running after)) st
  | reply {r r' : Reply} {es : ServerTrace} {st' : Stage} (phase : h.phase = .replying r)
      (does : r.Does (.handling n) h.client h.id st es (.inl r') st') :
      Does clock n h st es (some (.replying r')) st'
  | finish {r : Reply} {outcome : Except CallError Unit} {es : ServerTrace} {st' : Stage}
      (phase : h.phase = .replying r)
      (does : r.Does (.handling n) h.client h.id st es (.inr outcome) st') :
      Does clock n h st es none st'

/-- The step of an answer is that of what was made of the result. -/
theorem Stage.answer_fst (st : Stage) (result : Except Failure DraftValue) :
    (st.answer result).1 = .answered (st.made result) := by
  cases result <;> rfl

/-- An answer leaves the server as it is. -/
theorem Stage.server_answer (st : Stage) (result : Except Failure DraftValue) :
    (st.answer result).2.server = st.server := by
  cases result <;> rfl

/-- These are all the things that a step of a request does. -/
theorem Handling.does {clock : Nat} (n : Nat) {h : Handling} {st st' : Stage}
    {phase : Option Handling.Phase} (go : st.advance? clock h = some (phase, st')) :
    h.Does clock n st (st.handlingEvents n h) phase st' := by
  unfold Stage.advance? at go
  unfold Stage.handlingEvents
  split at go
  · next args hp =>
    rw [hp]
    cases ha : plainArgs args with
    | ok plain =>
      rw [ha] at go
      cases go
      simpa only [ha] using Does.call hp ha
    | error f =>
      rw [ha] at go
      cases go
      simpa only [ha] using Does.reject hp ha
  · next e hp =>
    rw [hp]
    have hreply := st.answer_fst (e.result h.method)
    cases hs : st.answer (e.result h.method) with
    | mk reply st₁ =>
      rw [hs] at go hreply
      cases go
      have hreply' : reply = .answered (st.made (e.result h.method)) := hreply
      -- The phase and the stage come as one pair, so the rule is matched with both at once.
      have hdoes : h.Does clock n st _ _ _ := .answer hp
      rw [hs] at hdoes
      rw [hreply']
      exact hdoes
  · next ms after hp =>
    rw [hp]
    cases go
    exact .sleep hp
  · cases go
  · next till after hp =>
    rw [hp]
    split at go
    · next due =>
      cases go
      exact .wake hp due
    · cases go
  · next r hp =>
    rw [hp]
    cases hs : r.step h.client h.id st with
    | mk next st₁ =>
      have hdoes := Reply.does (w := .handling n) hs
      rw [hs] at go
      cases next with
      -- The reply goes on, or it is done and the task with it.
      | inl r' => cases go; exact .reply hp hdoes
      | inr outcome => cases go; exact .finish hp hdoes

/-- What a step of passing on a stream can do: what is told of it, and what comes of it. -/
inductive Forwarding.Does (n : Nat) (f : Forwarding) (st : Stage) :
    ServerTrace → Forwarding.Outcome → Prop where
  | pull {e : Emission} {sources : Sources} (phase : f.phase = .waiting)
      (armed : st.tracker.signal f.signal = .armed)
      (item : st.sources.poll f.source = (.item e, sources)) :
      Does n f st [.pulled n f.source (eventOf e)]
        { phase := some (.pulled (eventOf e)), stage := { st with sources }, retires := e.retires }
  | dry {sources : Sources} (phase : f.phase = .waiting)
      (armed : st.tracker.signal f.signal = .armed)
      (ended : st.sources.poll f.source = (.ended, sources)) :
      Does n f st [.pulled n f.source .completed]
        { phase := some (.pulled .completed), stage := { st with sources } }
  /-- The stream was retired while the task waited. -/
  | stop (phase : f.phase = .waiting) (off : st.tracker.signal f.signal ≠ .armed) :
      Does n f st [] (f.finish st [])
  | clear {event : Notification ServerValue} (phase : f.phase = .pulled event)
      (active : st.tracker.isActive f.id = true) :
      Does n f st [] { phase := some (.cleared event), stage := st }
  /-- The stream was retired when the task had just got an item. -/
  | halt {event : Notification ServerValue} (phase : f.phase = .pulled event)
      (inactive : st.tracker.isActive f.id = false) : Does n f st [] (f.finish st event.sources)
  | expose {event : Notification ServerValue} (phase : f.phase = .cleared event) :
      Does n f st [.numbered (.forwarding n) f.client (exposeEvent st f.client event).2.1]
        { phase := some (.exposed (exposeEvent st f.client event).1
            (exposeEvent st f.client event).2.1)
          stage := (exposeEvent st f.client event).2.2 }
  | write {event : Notification WireValue} {nested : List Subscription} {e : Envelope}
      (phase : f.phase = .exposed event nested)
      (written : (ServerMessage.observation f.id event).toEnvelope = .ok e) :
      Does n f st [] { phase := some (.encoded e event.terminal nested), stage := st }
  /-- An item that cannot be written fails the stream. -/
  | fail {event : Notification WireValue} {nested : List Subscription} {err : CodecError}
      (phase : f.phase = .exposed event nested)
      (unwritable : (ServerMessage.observation f.id event).toEnvelope = .error err) :
      Does n f st
        [.unwritable (.forwarding n) f.client (.observation f.id event) err,
          .dropped (.forwarding n) nested]
        { phase := some (.failing (.unwritable "observation" err)), stage := st.abandon nested }
  | accept {e : Envelope} {terminal : Bool} {nested : List Subscription} {t : Transport}
      (phase : f.phase = .encoded e terminal nested)
      (taken : st.transport.send f.client e = (.ok (), t)) :
      Does n f st [.sent (.forwarding n) f.client e true]
        { phase := some (.accepted terminal nested), stage := { st with transport := t } }
  | refuse {e : Envelope} {terminal : Bool} {nested : List Subscription} {err : TransportError}
      {t : Transport} (phase : f.phase = .encoded e terminal nested)
      (refused : st.transport.send f.client e = (.error err, t)) :
      Does n f st [.sent (.forwarding n) f.client e false]
        { phase := some (.refused nested), stage := { st with transport := t } }
  | start {terminal : Bool} {nested : List Subscription}
      (phase : f.phase = .accepted terminal nested) :
      Does n f st
        (.started (.forwarding n) nested :: begun f.client st.server.nextTask nested)
        { phase := some (if terminal then .closing else .waiting), stage := st.start f.client nested }
  | drop {nested : List Subscription} (phase : f.phase = .refused nested) :
      Does n f st [.dropped (.forwarding n) nested]
        { phase := some .closing, stage := st.abandon nested }
  | tell {failure : Failure} {e : Envelope} (phase : f.phase = .failing failure)
      (written : (ServerMessage.observation f.id (.error failure)).toEnvelope = .ok e) :
      Does n f st [st.sending (.forwarding n) f.client e]
        { phase := some .closing, stage := (st.send f.client e).2 }
  /-- Not even the failure can be written. -/
  | hush {failure : Failure} {err : CodecError} (phase : f.phase = .failing failure)
      (unwritable : (ServerMessage.observation f.id (.error failure)).toEnvelope = .error err) :
      Does n f st [] { phase := some .closing, stage := st }
  | close (phase : f.phase = .closing) :
      Does n f st [.finished n f.id] (f.finish (st.retire f.id) [])

/-- These are all the things that a step of passing on a stream does. -/
theorem Forwarding.does (n : Nat) {f : Forwarding} {st : Stage} {o : Forwarding.Outcome}
    (go : f.step? st = some o) : f.Does n st (st.forwardingEvents n f) o := by
  unfold step? at go
  unfold Stage.forwardingEvents
  -- What is told is read off the phase as well, so each case fixes it.
  cases hp : f.phase with
  | waiting =>
    simp only [hp, Stage.pullEvents] at go ⊢
    unfold pull? at go
    -- A signal that is not armed comes before anything the source has.
    by_cases armed : st.tracker.signal f.signal = .armed
    · rw [if_pos armed] at go ⊢
      cases hpoll : st.sources.poll f.source with
      | mk polled sources =>
        rw [hpoll] at go
        cases polled with
        | pending => cases go
        | item e =>
          cases go
          exact .pull hp armed hpoll
        | ended =>
          cases go
          exact .dry hp armed hpoll
    · rw [if_neg armed] at go ⊢
      cases go
      exact .stop hp armed
  | pulled event =>
    simp only [hp] at go ⊢
    cases active : st.tracker.isActive f.id with
    | true =>
      rw [if_pos active] at go
      cases go
      exact .clear hp active
    | false =>
      rw [if_neg (Bool.eq_false_iff.1 active)] at go
      cases go
      exact .halt hp active
  | cleared event =>
    simp only [hp] at go ⊢
    cases go
    exact .expose hp
  | exposed event nested =>
    simp only [hp, ServerMessage.writing] at go ⊢
    cases go
    unfold encode
    cases hw : (ServerMessage.observation f.id event).toEnvelope with
    | ok e => exact .write hp hw
    | error err => exact .fail hp hw
  | encoded e terminal nested =>
    simp only [hp, Stage.sending, Stage.send] at go ⊢
    cases hs : st.transport.send f.client e with
    | mk result t =>
      rw [hs] at go
      cases result with
      | ok u => cases go; exact .accept hp hs
      | error err => cases go; exact .refuse hp hs
  | accepted terminal nested =>
    simp only [hp] at go ⊢
    cases go
    exact .start hp
  | refused nested =>
    simp only [hp] at go ⊢
    cases go
    exact .drop hp
  | failing failure =>
    simp only [hp] at go ⊢
    cases go
    unfold tell
    cases hw : (ServerMessage.observation f.id (.error failure)).toEnvelope with
    | ok e => exact .tell hp hw
    | error err => exact .hush hp hw
  | closing =>
    simp only [hp] at go ⊢
    cases go
    exact .close hp

/-! ## The whole server -/

namespace Stage

/-- Puts a request back in its next phase, or takes it off if it is over. -/
def putHandling (st : Stage) (n : Nat) (h : Handling) (phase : Option Handling.Phase) : Stage :=
  st.setServer { st.server with
    handlings := match phase with
      | some phase => st.server.handlings.insert n { h with phase }
      | none => st.server.handlings.erase n }

/-- Puts a stream back in its next phase, or takes it off if it is over. -/
def putForwarding (st : Stage) (n : Nat) (f : Forwarding) (phase : Option Forwarding.Phase) :
    Stage :=
  st.setServer { st.server with
    forwardings := match phase with
      | some phase => st.server.forwardings.insert n { f with phase }
      | none => st.server.forwardings.erase n }

/-- A request put back changes its own place only. -/
theorem handlings_putHandling (st : Stage) (n m : Nat) (h : Handling)
    (phase : Option Handling.Phase) : (st.putHandling n h phase).server.handlings[m]? =
      if n = m then phase.map fun phase => { h with phase } else st.server.handlings[m]? := by
  cases phase <;> simp [putHandling, setServer, Std.ExtTreeMap.getElem?_insert,
    Std.ExtTreeMap.getElem?_erase]

/-- A stream put back changes its own place only. -/
theorem forwardings_putForwarding (st : Stage) (n m : Nat) (f : Forwarding)
    (phase : Option Forwarding.Phase) : (st.putForwarding n f phase).server.forwardings[m]? =
      if n = m then phase.map fun phase => { f with phase } else st.server.forwardings[m]? := by
  cases phase <;> simp [putForwarding, setServer, Std.ExtTreeMap.getElem?_insert,
    Std.ExtTreeMap.getElem?_erase]

/-- The step of a request that was found, and what it leaves. -/
theorem handle_eq {st st' : Stage} {clock n : Nat} {h : Handling}
    (found : st.server.handlings[n]? = some h) (go : st.handle? clock n = some st') :
    ∃ phase st₁, st.advance? clock h = some (phase, st₁) ∧ st' = st₁.putHandling n h phase := by
  unfold handle? at go
  rw [found] at go
  simp only [Option.bind_eq_bind, Option.bind_some, Option.bind_eq_some_iff] at go
  obtain ⟨⟨phase, st₁⟩, hadv, hst⟩ := go
  exact ⟨phase, st₁, hadv, (Option.some.inj hst).symm⟩

/-- The step of a stream that was found, and what it leaves. -/
theorem forward_eq {st st' : Stage} {n : Nat} {f : Forwarding} {retires : Option StreamId}
    (found : st.server.forwardings[n]? = some f) (go : st.forward? n = some (st', retires)) :
    ∃ o, f.step? st = some o ∧ retires = o.retires ∧ st' = o.stage.putForwarding n f o.phase := by
  unfold forward? at go
  rw [found] at go
  simp only [Option.bind_eq_bind, Option.bind_some, Option.bind_eq_some_iff] at go
  obtain ⟨o, hstep, hst⟩ := go
  obtain ⟨rfl, rfl⟩ := Prod.mk.injEq .. ▸ Option.some.inj hst
  exact ⟨o, hstep, rfl, rfl⟩

/-- A server that reads its queue takes an envelope in, or finds the queue gone. -/
theorem serve_eq {st st' : Stage} (go : st.serve? = some st') :
    ∃ inbox, st.server.inbox = some inbox ∧
      ((∃ e t, st.transport.receive inbox = (.envelope e, t) ∧
          st.serveEvents = st.acceptEvents e ∧ st' = ({ st with transport := t } : Stage).accept e) ∨
        (∃ t, st.transport.receive inbox = (.ended, t) ∧ st.serveEvents = [] ∧
          st' = { st with
            server := { st.server with inbox := none }, transport := t.dropReader inbox })) := by
  unfold serve? at go
  obtain ⟨inbox, hin, go⟩ := Option.bind_eq_some_iff.1 go
  refine ⟨inbox, hin, ?_⟩
  simp only [serveEvents, hin, Option.map_some]
  -- With nothing to receive there is no step.
  split at go
  · next e t hr =>
    refine .inl ⟨e, t, hr, by rw [hr], (Option.some.inj go).symm⟩
  · cases go
  · next t hr =>
    refine .inr ⟨t, hr, by rw [hr], (Option.some.inj go).symm⟩

/-- A server that hears of a departure retires what the client had. -/
theorem depart_eq {st st' : Stage} (go : st.depart? = some st') :
    ∃ watcher client t, st.server.departures = some watcher ∧
      st.transport.departure? watcher = some (client, t) ∧
      st.departEvents = [.departed client] ∧
      st' = { (st.setMux { st.server.mux with
        tracker := (st.tracker.retireClient client).2 }) with transport := t } := by
  unfold depart? at go
  obtain ⟨watcher, hw, go⟩ := Option.bind_eq_some_iff.1 go
  obtain ⟨⟨client, t⟩, hd, go⟩ := Option.bind_eq_some_iff.1 go
  refine ⟨watcher, client, t, hw, hd, ?_, (Option.some.inj go).symm⟩
  simp only [departEvents, hw, Option.bind_some, hd]

/-- What a step of a server can do, or a change around it: what is told of it and what it leaves. -/
inductive Does (st : Stage) : ServerTrace → Stage → Prop where
  /-- A request becomes a task. -/
  | request {inbox : MailboxId} {e : Envelope} {r : Request} {t : Transport}
      (reads : st.server.inbox = some inbox) (taken : st.transport.receive inbox = (.envelope e, t))
      (means : ClientMessage.ofEnvelope e = .ok (.request r)) :
      Does st [.served e, .requested st.server.nextTask r]
        { st with
          transport := t
          server := { st.server with
            handlings := st.server.handlings.insert st.server.nextTask
              { client := r.replyTo, id := r.id, method := r.method, phase := .received r.args }
            nextTask := st.server.nextTask + 1 } }
  /-- Streams that are not wanted any more are retired. -/
  | cancel {inbox : MailboxId} {e : Envelope} {ids : List StreamId} {t : Transport}
      (reads : st.server.inbox = some inbox) (taken : st.transport.receive inbox = (.envelope e, t))
      (means : ClientMessage.ofEnvelope e = .ok (.closed ids)) :
      Does st [.served e, .closed ids]
        { (st.setMux (st.server.mux.retireAll ids)) with transport := t }
  /-- A message that cannot be read is passed over. -/
  | ignore {inbox : MailboxId} {e : Envelope} {err : CodecError} {t : Transport}
      (reads : st.server.inbox = some inbox) (taken : st.transport.receive inbox = (.envelope e, t))
      (illegible : ClientMessage.ofEnvelope e = .error err) :
      Does st [.served e] { st with transport := t }
  /-- The queue is gone, and the server gives up its reader. -/
  | lose {inbox : MailboxId} {t : Transport} (reads : st.server.inbox = some inbox)
      (ended : st.transport.receive inbox = (.ended, t)) :
      Does st []
        { st with
          server := { st.server with inbox := none }
          transport := t.dropReader inbox }
  /-- A client is gone, and all its streams are retired. -/
  | depart {watcher : WatcherId} {client : String} {t : Transport}
      (watches : st.server.departures = some watcher)
      (gone : st.transport.departure? watcher = some (client, t)) :
      Does st [.departed client]
        { (st.setMux { st.server.mux with
          tracker := (st.tracker.retireClient client).2 }) with transport := t }
  | handle {clock n : Nat} {h : Handling} {phase : Option Handling.Phase} {st₁ : Stage}
      (found : st.server.handlings[n]? = some h) (steps : st.advance? clock h = some (phase, st₁)) :
      Does st (st.handlingEvents n h) (st₁.putHandling n h phase)
  | forward {n : Nat} {f : Forwarding} {o : Forwarding.Outcome}
      (found : st.server.forwardings[n]? = some f) (steps : f.step? st = some o) :
      Does st (st.forwardingEvents n f) (o.stage.putForwarding n f o.phase)
  | withdraw (id : StreamId) : Does st [.withdrawn id] (st.retire id)
  | around {st' : Stage} (same : st.SameWork st') : Does st [] st'

/-- These are all the things that a step of a server does. -/
theorem Step.does {st st' : Stage} {es : ServerTrace} (next : Step st es st') : st.Does es st' := by
  cases next with
  | serve go =>
    obtain ⟨inbox, reads, ⟨e, t, taken, hes, rfl⟩ | ⟨t, ended, hes, rfl⟩⟩ := serve_eq go
    · rw [hes]
      unfold acceptEvents accept
      -- What is done with an envelope depends on what it says.
      cases means : ClientMessage.ofEnvelope e with
      | error err => exact .ignore reads taken means
      | ok m =>
        cases m with
        | request r => exact .request reads taken means
        | closed ids => exact .cancel reads taken means
    · rw [hes]
      exact .lose reads ended
  | depart go =>
    obtain ⟨watcher, client, t, watches, gone, hes, rfl⟩ := depart_eq go
    rw [hes]
    exact .depart watches gone
  | handle found go =>
    obtain ⟨phase, st₁, steps, rfl⟩ := handle_eq found go
    exact .handle found steps
  | forward found go =>
    obtain ⟨o, steps, -, rfl⟩ := forward_eq found go
    exact .forward found steps
  -- The two steps from outside need nothing taken apart.
  | withdraw id => exact .withdraw id
  | around same => exact .around same

/-! ## What is sent -/

/-- A server has its own ports. -/
theorem SamePorts.refl (s : Server) : SamePorts s s :=
  ⟨rfl, rfl, rfl, rfl⟩

/-- A step that leaves the transport alone, and tells of no sending, talks to nobody. -/
private theorem Talks.of_idle {st st' : Stage} {client : String} {es : ServerTrace}
    (ports : SamePorts st.server st'.server) (transport : st'.transport = st.transport)
    (hes : es.filterMap ServerEvent.sending? = []) : Talks st client es st' :=
  ⟨ports, .inl ⟨hes, transport⟩⟩

/-- Starting tasks does not change where the server reads. -/
private theorem ports_startAll (client : String) (subs : List Subscription) (s : Server) :
    SamePorts s (subs.foldl (startOne client) s) := by
  induction subs generalizing s with
  | nil => exact .refl s
  | cons sub subs ih =>
    have := ih (startOne client s sub)
    exact ⟨this.router, this.queue, this.inbox, this.departures⟩

/-- That tasks come to be tells of no sending. -/
private theorem sending_begun (client : String) (k : Nat) (subs : List Subscription) :
    (begun client k subs).filterMap ServerEvent.sending? = [] := by
  induction subs generalizing k with
  | nil => rfl
  | cons sub subs ih => exact ih (k + 1)

/-- Starting tasks talks to nobody. -/
private theorem talks_start (st : Stage) (w : Worker) (client : String) (subs : List Subscription) :
    Talks st client (.started w subs :: begun client st.server.nextTask subs)
      (st.start client subs) :=
  .of_idle (ports_startAll client subs st.server) rfl (sending_begun client _ subs)

/-- A send is told as it is made. -/
private theorem talks_send (st : Stage) (w : Worker) (client : String) (e : Envelope) :
    Talks st client [st.sending w client e] (st.send client e).2 :=
  ⟨.refl _, .inr ⟨e, rfl, rfl⟩⟩

/-- The same, when it is known what came of sending. -/
private theorem talks_sent {st : Stage} (w : Worker) {client : String} {e : Envelope}
    {result : Except TransportError Unit} {t : Transport}
    (sent : st.transport.send client e = (result, t)) :
    Talks st client [.sent w client e result.isOk] { st with transport := t } := by
  have talks := talks_send st w client e
  simp only [sending, send, sent] at talks
  exact talks

/-- What a step of an answer tells of the transport is what it does to it. -/
private theorem step_talks {w : Worker} {client : String} {id : CallId} {st st' : Stage}
    {reply : Reply}
    {es : ServerTrace} {next : Reply ⊕ Except CallError Unit}
    (does : reply.Does w client id st es next st') : Talks st client es st' := by
  cases does with
  | accept taken => exact talks_sent w taken
  | refuse refused => exact talks_sent w refused
  | start subs => exact talks_start st w client subs
  | _ => exact .of_idle ⟨rfl, rfl, rfl, rfl⟩ rfl rfl

/-- What a step of a request tells of the transport is what it does to it. -/
theorem advance_talks {clock n : Nat} {st st' : Stage} {h : Handling}
    {phase : Option Handling.Phase} (go : st.advance? clock h = some (phase, st')) :
    Talks st h.client (st.handlingEvents n h) st' := by
  have does := Handling.does n go
  generalize st.handlingEvents n h = es at does ⊢
  -- An answer and its abandonment send nothing; the rest is a reply on its way.
  cases does with
  | @answer e phase =>
    cases e.result h.method <;> exact .of_idle ⟨rfl, rfl, rfl, rfl⟩ rfl rfl
  | reply phase does => exact step_talks does
  | finish phase does => exact step_talks does
  | _ => exact .of_idle ⟨rfl, rfl, rfl, rfl⟩ rfl rfl

/-- What a step of passing on a stream tells of the transport is what it does to it. -/
theorem pass_talks {n : Nat} {st : Stage} {f : Forwarding} {o : Forwarding.Outcome}
    (go : f.step? st = some o) : Talks st f.client (st.forwardingEvents n f) o.stage := by
  have does := Forwarding.does n go
  generalize st.forwardingEvents n f = es at does ⊢
  -- The steps that speak to the client are the two outcomes of a send and a failure's notice.
  cases does with
  | @expose event phase => cases event <;> exact .of_idle ⟨rfl, rfl, rfl, rfl⟩ rfl rfl
  | accept phase taken => exact talks_sent _ taken
  | refuse phase refused => exact talks_sent _ refused
  | start phase => exact talks_start st _ f.client _
  | tell phase written => exact talks_send st _ f.client _
  | _ => exact .of_idle ⟨rfl, rfl, rfl, rfl⟩ rfl rfl

/-- Whatever a step tells of sending, it is the send that the step makes of the transport, and what
    is told of it is what came of it. -/
theorem Step.sent {st st' : Stage} {es : ServerTrace} (next : Step st es st') {w : Worker}
    {client : String} {e : Envelope} {accepted : Bool} (told : .sent w client e accepted ∈ es) :
    accepted = (st.transport.send client e).1.isOk ∧
      st'.transport = (st.transport.send client e).2 := by
  -- A task that talks tells of one send at most, so it is this one.
  have of_talks {target : String} {st₁ : Stage} (talks : Talks st target es st₁) :
      accepted = (st.transport.send client e).1.isOk ∧
        st₁.transport = (st.transport.send client e).2 := by
    have told' := List.mem_filterMap.2 ⟨_, told, (rfl : ServerEvent.sending? _ = _)⟩
    rcases talks.said with ⟨none_sent, -⟩ | ⟨e', one_sent, transport⟩
    · rw [none_sent] at told'
      cases told'
    · rw [one_sent] at told'
      obtain ⟨rfl, rfl, rfl⟩ := by simpa using told'
      exact ⟨rfl, transport⟩
  cases next with
  | serve go =>
    obtain ⟨inbox, -, ⟨e', t, -, hes, -⟩ | ⟨t, -, hes, -⟩⟩ := serve_eq go
    · rw [hes, acceptEvents] at told
      split at told <;> simp at told
    · rw [hes] at told
      cases told
  | depart go =>
    obtain ⟨watcher, target, t, -, -, hes, -⟩ := depart_eq go
    simp [hes] at told
  | handle found go =>
    obtain ⟨phase, st₁, steps, rfl⟩ := handle_eq found go
    show _ ∧ st₁.transport = _
    exact of_talks (advance_talks steps)
  | forward found go =>
    obtain ⟨o, steps, -, rfl⟩ := forward_eq found go
    show _ ∧ o.stage.transport = _
    exact of_talks (pass_talks steps)
  | withdraw id => simp at told
  -- Nothing is told of what happens around the server.
  | around same => cases told

end Stage

end StreamRpc
