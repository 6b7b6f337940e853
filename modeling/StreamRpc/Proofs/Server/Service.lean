import StreamRpc.Proofs.Server.Noise

/-! # What stands on a server's queue is read

Others may put payloads on a server's queue, make and delete queues, and send to anyone they like.
But only the server takes anything off the queue that it reads.  So what stands there stays in front
of what comes in later, and a turn of the server takes the first message that can be read.

* `Broker.Grows`                nobody but its reader takes anything out of a mailbox
* `Stage.InUse`                 the queue that a server reads has a mailbox
* `Stage.awaiting_served`       what stands on the server's queue is read when it has its turns
* `Server.inUse_of_launch`      a server that was started reads a queue
-/

namespace StreamRpc

open Wire (Bytes)

/-! ## Messages on the server's queue -/

namespace Broker

/-- What is in a mailbox that is in use stays there, and in front of what comes in. -/
structure Grows (id : MailboxId) (b b' : Broker) : Prop where
  nextMailbox : b.nextMailbox ≤ b'.nextMailbox
  letters : id.index < b.nextMailbox → b.letters id <+: b'.letters id

/-- Nothing done leaves a mailbox as it is. -/
theorem Grows.refl (id : MailboxId) (b : Broker) : Grows id b b :=
  ⟨Nat.le_refl _, fun _ => List.prefix_refl _⟩

/-- A mailbox in use whose letters stay has lost nothing. -/
private theorem Grows.of_eq {id : MailboxId} {b b' : Broker}
    (hnext : b.nextMailbox ≤ b'.nextMailbox)
    (same : id.index < b.nextMailbox → b'.letters id = b.letters id) : Grows id b b' :=
  ⟨hnext, fun hlt => same hlt ▸ List.prefix_refl _⟩

/-- Where the mailboxes stay no mailbox has lost anything. -/
private theorem Grows.of_same {id : MailboxId} {b b' : Broker}
    (hnext : b'.nextMailbox = b.nextMailbox)
    (hboxes : b'.mailboxes = b.mailboxes) : Grows id b b' :=
  .of_eq (Nat.le_of_eq hnext.symm) fun _ => by rw [Broker.letters, Broker.letters, hboxes]

/-- A mailbox is replaced by one that has more in it, or it is another one. -/
private theorem Grows.set {id other : MailboxId} {b : Broker} {m m' : Mailbox}
    (box : b.mailboxes[other.index]? = some m) (more : other = id → m.letters <+: m'.letters) :
    Grows id b (b.setMailbox other m') := by
  refine ⟨Nat.le_refl _, fun _ => ?_⟩
  rw [letters_set]
  -- A different mailbox keeps its letters.
  split
  · next h =>
    have hletters : b.letters id = m.letters := by rw [← h, Broker.letters, box]; rfl
    rw [hletters]
    exact more h
  · exact List.prefix_refl _

/-- Nobody but its reader takes anything out of a mailbox. -/
private theorem Performs.grows {id : MailboxId} {b b' : Broker} {d : Deed} {o : Outcome}
    (does : Performs b d o b') (other : d.uses id = false) : Grows id b b' := by
  have happend : ∀ (m : Mailbox) (bytes : Bytes),
      m.letters <+: ({ m with waiting := m.waiting ++ [bytes] } : Mailbox).letters := by
    intro m bytes
    rw [Mailbox.letters, Mailbox.letters, List.filterMap_append]
    exact List.prefix_append _ _
  cases does with
  | create free =>
    -- the mailbox that comes to be has a number of its own
    refine .of_eq (Nat.le_succ _) fun hlt => ?_
    rw [Broker.letters, Broker.letters, mailboxes_added, if_neg (Nat.ne_of_gt hlt)]
  | delete found box =>
    exact .of_eq (Nat.le_refl _) fun _ => letters_without b box id
  | send found box read flat => exact .set box fun _ => happend _ _
  | sendRaw found box read => exact .set box fun _ => happend _ _
  | consume found box unclaimed => exact .set box fun _ => List.prefix_refl _
  -- Only the reader of a mailbox takes from it, and this deed does not use it.
  | receive box claimed next => exact .set box fun h => by simp [Deed.uses, h] at other
  | await box claimed none => exact .set box fun h => by simp [Deed.uses, h] at other
  | dropReader box claimed => exact .set box fun h => by simp [Deed.uses, h] at other
  | watch pattern => exact .of_same rfl rfl
  | hear found listening news => exact .of_same rfl rfl
  | hearNothing found listening news => exact .refl id b
  | dropWatcher found listening => exact .of_same rfl rfl
  | refuse d e => exact .refl id b
  | void d => exact .refl id b

end Broker

/-- A send only adds letters to mailboxes. -/
private theorem Transport.grows_send (t : Transport) (name : String) (e : Envelope)
    (id : MailboxId) :
    t.broker.Grows id (t.send name e).2.broker := by
  have hperform : t.broker.Grows id (t.broker.perform (.send name e)).2 :=
    (t.broker.performs (.send name e)).grows rfl
  unfold Transport.send Transport.call
  cases Fault.strike .send name t.faults with
  | mk struck faults =>
    -- A fault keeps the message from the broker.
    cases struck with
    | some err => exact .refl id _
    | none =>
      simp only [Broker.perform, Broker.settle] at hperform
      dsimp only
      cases hs : t.broker.send name e with
      | error err => exact .refl id _
      | ok b =>
        rw [hs] at hperform
        exact hperform

namespace Stage

variable {st st' : Stage}

/-- The messages on the server's queue, oldest first. -/
def awaiting (st : Stage) : List Envelope :=
  st.server.inbox.elim [] fun id => (st.transport.broker.letters id).filter Envelope.legible

/-- The server's mailbox is one that there is. -/
def InUse (st : Stage) : Prop :=
  ∀ id, st.server.inbox = some id → id.index < st.transport.broker.nextMailbox

/-- The server reads the same mailbox as before, and nothing has been taken out of it. -/
structure Feeds (st st' : Stage) : Prop where
  inbox : st'.server.inbox = st.server.inbox
  grows : ∀ id, st.server.inbox = some id → st.transport.broker.Grows id st'.transport.broker

/-- Nothing done keeps what awaits the server. -/
theorem Feeds.refl (st : Stage) : Feeds st st :=
  ⟨rfl, fun id _ => .refl id _⟩

/-- A step that leaves the transport alone keeps what awaits the server. -/
private theorem Feeds.of_transport (inbox : st'.server.inbox = st.server.inbox)
    (transport : st'.transport = st.transport) : Feeds st st' :=
  ⟨inbox, fun id _ => transport ▸ .refl id _⟩

/-- What only adds to the server's queue keeps that in use. -/
private theorem Feeds.inUse (h : Feeds st st') (used : st.InUse) : st'.InUse := fun id hid =>
  Nat.lt_of_lt_of_le (used id (h.inbox ▸ hid)) (h.grows id (h.inbox ▸ hid)).nextMailbox

/-- What only adds to the server's queue adds at the end of what awaits it. -/
private theorem Feeds.awaiting (h : Feeds st st') (used : st.InUse) :
    st.awaiting <+: st'.awaiting := by
  unfold Stage.awaiting
  rw [h.inbox]
  cases hid : st.server.inbox with
  | none => exact List.prefix_refl _
  | some id => exact ((h.grows id hid).letters (used id hid)).filter _

/-- What was taken in is read off a trace piece by piece. -/
@[simp] theorem intake_append (tr tr' : ServerTrace) :
    ServerTrace.intake (tr ++ tr') = ServerTrace.intake tr ++ ServerTrace.intake tr' :=
  List.filterMap_append

/-- Accepting an envelope takes in that one. -/
private theorem intake_acceptEvents (st : Stage) (e : Envelope) :
    (st.acceptEvents e).intake = [e] := by
  unfold acceptEvents
  split <;> rfl

/-! ## What tasks do to the queue -/

/-- A send only adds to the server's queue. -/
private theorem feeds_send (inbox : st'.server.inbox = st.server.inbox) {client : String}
    {e : Envelope}
    (transport : st'.transport = (st.transport.send client e).2) : Feeds st st' :=
  ⟨inbox, fun id _ => transport ▸ st.transport.grows_send client e id⟩

/-- A reply's step only adds to the server's queue. -/
private theorem feeds_reply {w : Worker} {client : String} {id : CallId} {reply : Reply}
    {es : ServerTrace}
    {next : Reply ⊕ Except CallError Unit} (does : reply.Does w client id st es next st') :
    Feeds st st' := by
  cases does with
  | accept taken => exact feeds_send rfl (congrArg Prod.snd taken).symm
  | refuse refused => exact feeds_send rfl (congrArg Prod.snd refused).symm
  | start subs => exact .of_transport (inbox_start st client subs) rfl
  | _ => exact .of_transport rfl rfl

/-- A request's step only adds to the server's queue. -/
private theorem feeds_advance {clock : Nat} {h : Handling} {phase : Option Handling.Phase}
    (steps : st.advance? clock h = some (phase, st')) : Feeds st st' := by
  have does := Handling.does 0 steps
  generalize st.handlingEvents 0 h = es at does
  cases does with
  | answer phase =>
    refine .of_transport (congrArg Server.inbox (st.server_answer _)) ?_
    unfold Stage.answer
    split <;> rfl
  | reply phase does => exact feeds_reply does
  | finish phase does => exact feeds_reply does
  | _ => exact .refl st

/-- A stream's step only adds to the server's queue. -/
private theorem feeds_pass {f : Forwarding} {o : Forwarding.Outcome} (go : f.step? st = some o) :
    Feeds st o.stage := by
  have does := Forwarding.does 0 go
  generalize st.forwardingEvents 0 f = es at does
  -- A send may reach any mailbox, the server's own included, and only adds to it.
  cases does with
  | accept phase taken => exact feeds_send rfl (congrArg Prod.snd taken).symm
  | refuse phase refused => exact feeds_send rfl (congrArg Prod.snd refused).symm
  | start phase => exact .of_transport (inbox_start st f.client _) rfl
  | tell phase written => exact feeds_send rfl rfl
  | @expose event phase => cases event <;> exact .of_transport rfl rfl
  | _ => exact .of_transport rfl rfl

/-- A task's move only adds to the server's queue, and takes nothing in. -/
private theorem feeds_move {m : Move} (tasked : Tasked m) {es : ServerTrace}
    (go : st.move? m = some (es, st')) : Feeds st st' ∧ es.intake = [] := by
  have hquiet : ∀ {es : ServerTrace}, (∀ x ∈ es, x.heard = false) → es.intake = [] := fun hes =>
    List.filterMap_eq_nil_iff.2 fun x hx => by
      have := hes x hx
      cases x <;> first | rfl | cases this
  -- These moves receive nothing, so the inbox can only have got more.
  cases tasked with
  | depart =>
    obtain ⟨st₁, step, heq⟩ := Option.map_eq_some_iff.1 go
    obtain ⟨rfl, rfl⟩ := Prod.mk.injEq .. ▸ heq
    obtain ⟨watcher, client, t, -, hdeparture, hes, rfl⟩ := depart_eq step
    refine ⟨⟨rfl, fun id _ => ?_⟩, by rw [hes]; rfl⟩
    obtain ⟨⟨name, b⟩, hb, hpair⟩ := Option.map_eq_some_iff.1 hdeparture
    obtain ⟨rfl, rfl⟩ := Prod.mk.injEq .. ▸ hpair
    have same := Broker.sameQueues_departure hb
    exact .of_same same.nextMailbox same.mailboxes
  | handle clock n =>
    obtain ⟨h, found, tried⟩ := Option.bind_eq_some_iff.1 go
    obtain ⟨st₁, step, heq⟩ := Option.map_eq_some_iff.1 tried
    obtain ⟨rfl, rfl⟩ := Prod.mk.injEq .. ▸ heq
    obtain ⟨phase, st₂, steps, rfl⟩ := handle_eq found step
    have feeds := feeds_advance steps
    exact ⟨⟨feeds.inbox, feeds.grows⟩, hquiet (heard_handling st n h)⟩
  | forward n =>
    obtain ⟨f, found, tried⟩ := Option.bind_eq_some_iff.1 go
    obtain ⟨⟨st₁, retires⟩, step, heq⟩ := Option.map_eq_some_iff.1 tried
    obtain ⟨rfl, rfl⟩ := Prod.mk.injEq .. ▸ heq
    obtain ⟨o, steps, -, rfl⟩ := forward_eq found step
    have feeds := feeds_pass steps
    exact ⟨⟨feeds.inbox, feeds.grows⟩, hquiet (heard_forwarding st n f)⟩
  -- A retirement does not touch the queues.
  | withdraw id =>
    obtain ⟨rfl, rfl⟩ := Prod.mk.injEq .. ▸ Option.some.inj go
    exact ⟨.of_transport rfl rfl, rfl⟩

/-- The same of a move that may not be possible. -/
private theorem feeds_tryMove (st : Stage) {m : Move} (tasked : Tasked m) :
    Feeds st (st.tryMove m).2 ∧ (st.tryMove m).1.intake = [] := by
  unfold tryMove
  cases hm : st.move? m with
  | none => exact ⟨.refl st, rfl⟩
  | some p => exact feeds_move tasked hm

/-- A payload that arrives is added to the server's queue. -/
private theorem feeds_arrive (st : Stage) (bytes : Bytes) : Feeds st (st.arrive bytes) := by
  unfold arrive
  split
  · split
    · next b hb =>
      refine ⟨rfl, fun id _ => ?_⟩
      have hperform : st.transport.broker.Grows id
          (st.transport.broker.perform (.sendRaw st.server.queue bytes)).2 :=
        (st.transport.broker.performs (.sendRaw st.server.queue bytes)).grows rfl
      simpa only [Broker.perform, Broker.settle, hb] using hperform
    · exact .refl st
  · exact .refl st

/-- What others do to the broker only adds to the server's queue. -/
private theorem feeds_deed (st : Stage) (d : Broker.Deed) : Feeds st (st.deed d) := by
  unfold deed
  split
  · exact .refl st
  · next hfree =>
    refine ⟨rfl, fun id hid => (st.transport.broker.performs d).grows ?_⟩
    rw [hid, Option.any_some] at hfree
    exact Bool.not_eq_true _ ▸ hfree

/-! ## Serving -/

/-- Passing over an envelope leaves all messages. -/
private theorem awaiting_pass {e : Envelope} (h : st.pass? = some (e, st')) :
    st'.awaiting = st.awaiting ∧ (st.InUse → st'.InUse) ∧ e.legible = false := by
  obtain ⟨id, m, rest, hid, hm, hn, hnot, rfl⟩ := pass_eq h
  refine ⟨?_, fun used => used, hnot⟩
  -- The envelope passed by was the first letter, and it is not legible.
  have hletters : st.transport.broker.letters id =
      e :: rest.filterMap fun bs => (Envelope.ofBytes bs).toOption := by
    have hnext := nextEnvelope?_eq m.waiting
    simp only [hn] at hnext
    rw [Broker.letters, hm]
    exact hnext
  unfold awaiting
  simp only [withBacklog, hid, Option.elim_some, Broker.letters_set, if_true, hletters]
  rw [List.filter_cons_of_neg (by simp [hnot])]
  rfl

/-- Reading past what is illegible keeps what awaits the server. -/
private theorem awaiting_passAll (st : Stage) : st.passAll.2.awaiting = st.awaiting ∧
    (st.InUse → st.passAll.2.InUse) ∧ st.passAll.1.intake.filter Envelope.legible = [] := by
  refine passAll_induct (P := fun st es st' => st'.awaiting = st.awaiting ∧
    (st.InUse → st'.InUse) ∧ es.intake.filter Envelope.legible = [])
    (fun _ _ => ⟨rfl, id, rfl⟩) (fun st e st₁ es st₂ h ih => ?_) st
  obtain ⟨hawaiting, hused, hnot⟩ := awaiting_pass h
  obtain ⟨ih₁, ih₂, ih₃⟩ := ih
  refine ⟨ih₁.trans hawaiting, fun used => ih₂ (hused used), ?_⟩
  have hintake : ServerTrace.intake (.served e :: es) = e :: ServerTrace.intake es := rfl
  rw [hintake, List.filter_cons_of_neg (by simp [hnot]), ih₃]

/-- Dealing with a message has nothing to do with the queues. -/
private theorem accept_frame (st : Stage) (e : Envelope) :
    (st.accept e).server.inbox = st.server.inbox ∧ (st.accept e).transport = st.transport := by
  unfold accept
  split <;> exact ⟨rfl, rfl⟩

/-- The server reads the first message that stands on its queue. -/
private theorem awaiting_serve (passed : st.pass? = none) {e : Envelope} {rest : List Envelope}
    (first : st.awaiting = e :: rest) : (st.tryMove .serve).1.intake = [e] ∧
      (st.tryMove .serve).2.awaiting = rest ∧ (st.InUse → (st.tryMove .serve).2.InUse) := by
  -- Something is awaited, so there is an inbox, and its mailbox has an envelope.
  cases hid : st.server.inbox with
  | none => simp [awaiting, hid] at first
  | some id =>
    simp only [awaiting, hid, Option.elim_some] at first
    cases hm : st.transport.broker.mailboxes[id.index]? with
    | none => simp [Broker.letters, hm] at first
    | some m =>
      have hnext := nextEnvelope?_eq m.waiting
      have hletters : st.transport.broker.letters id = m.letters := by
        rw [Broker.letters, hm]
        rfl
      cases hn : nextEnvelope? m.waiting with
      | none =>
        simp only [hn] at hnext
        rw [hletters, Mailbox.letters, hnext] at first
        cases first
      | some p =>
        obtain ⟨e', rest'⟩ := p
        simp only [hn] at hnext
        -- nothing is left to pass over, so the envelope that is next is the first message
        have hlegible := legible_of_passed passed hid hm hn
        rw [hletters, Mailbox.letters, hnext, List.filter_cons_of_pos hlegible] at first
        obtain ⟨rfl, hrest⟩ := List.cons.inj first
        obtain ⟨go, hes⟩ := serve_of_next hid hm hn
        obtain ⟨hinbox, htransport⟩ := accept_frame (st.withBacklog id m rest') e'
        simp only [tryMove, move?, go, hes, Option.map_some, Option.getD_some]
        refine ⟨st.intake_acceptEvents e', ?_, fun used i hi => ?_⟩
        · unfold awaiting
          rw [hinbox, htransport]
          simp only [withBacklog, hid, Option.elim_some, Broker.letters_set, if_true]
          exact hrest
        · rw [hinbox] at hi
          rw [htransport]
          exact used i hi

/-! ## Turns -/

/-- Whether the server reads its queue. -/
def Turn.isServe : Turn → Bool
  | .serve => true
  | _ => false

/-- Unless the server reads its queue or stops doing so, messages stay there. -/
private theorem awaiting_turn {t : Turn} (reads : t.isServe = false) (going : t ≠ .halt)
    (used : st.InUse) : (st.turn t).1.intake.filter Envelope.legible = [] ∧
      (st.turn t).2.InUse ∧ st.awaiting <+: (st.turn t).2.awaiting := by
  have hfeeds : ∀ {p : ServerTrace × Stage}, Feeds st p.2 ∧ p.1.intake = [] →
      p.1.intake.filter Envelope.legible = [] ∧ p.2.InUse ∧ st.awaiting <+: p.2.awaiting :=
    fun ⟨feeds, hnone⟩ => ⟨by rw [hnone]; rfl, feeds.inUse used, feeds.awaiting used⟩
  cases t with
  | serve => cases reads
  -- Only passing by takes anything from the inbox, and nothing that is awaited.
  | pass =>
    simp only [turn]
    split
    · next e st₁ h =>
      obtain ⟨hawaiting, hused, hnot⟩ := awaiting_pass h
      refine ⟨?_, hused used, hawaiting ▸ List.prefix_refl _⟩
      exact List.filter_cons_of_neg (by simp [hnot])
    · exact ⟨rfl, used, List.prefix_refl _⟩
  | depart => exact hfeeds (st.feeds_tryMove .depart)
  | handle clock n => exact hfeeds (st.feeds_tryMove (.handle clock n))
  | forward n => exact hfeeds (st.feeds_tryMove (.forward n))
  | withdraw id => exact hfeeds (st.feeds_tryMove (.withdraw id))
  | arrive bytes => exact hfeeds ⟨st.feeds_arrive bytes, rfl⟩
  | halt => exact absurd rfl going
  -- Others may send to the inbox, and their other deeds do not touch it.
  | deed d => exact hfeeds ⟨st.feeds_deed d, rfl⟩
  | faults fs =>
    exact hfeeds (p := st.turn (.faults fs)) ⟨⟨rfl, fun id _ => .refl id _⟩, rfl⟩
  | sources change =>
    exact hfeeds (p := st.turn (.sources change)) ⟨.of_transport rfl rfl, rfl⟩
  | methods router =>
    exact hfeeds (p := st.turn (.methods router)) ⟨.of_transport rfl rfl, rfl⟩

/-- What awaits the server is legible. -/
private theorem legible_of_awaiting {e : Envelope} (h : e ∈ st.awaiting) : e.legible = true := by
  unfold awaiting at h
  cases hid : st.server.inbox with
  | none => simp [hid] at h
  | some id =>
    rw [hid] at h
    exact (List.mem_filter.1 h).2

/-- In its turn the server reads the first message that stands on its queue. -/
private theorem awaiting_turn_serve {e : Envelope} {rest : List Envelope}
    (first : st.awaiting = e :: rest) :
    (st.turn .serve).1.intake.filter Envelope.legible = [e] ∧
      (st.turn .serve).2.awaiting = rest ∧ (st.InUse → (st.turn .serve).2.InUse) := by
  obtain ⟨hsame, hused, hsilent⟩ := st.awaiting_passAll
  obtain ⟨hread, hrest, hused'⟩ := awaiting_serve st.pass_passAll (hsame.trans first)
  refine ⟨?_, hrest, fun used => hused' (hused used)⟩
  have hlegible : e.legible = true := legible_of_awaiting (first ▸ List.mem_cons_self)
  simp only [turn, intake_append, List.filter_append, hsilent, hread, List.nil_append]
  rw [List.filter_cons_of_pos hlegible, List.filter_nil]

/-- A receipt makes no mailbox. -/
private theorem nextMailbox_receive (b : Broker) (id : MailboxId) :
    (b.receive id).2.nextMailbox = b.nextMailbox := by
  unfold Broker.receive
  split
  · rfl
  · split <;> rfl

/-- The server's mailbox stays one that there is. -/
private theorem InUse.turn (used : st.InUse) (t : Turn) : (st.turn t).2.InUse := by
  -- After a halt there is no inbox; a serving turn may close it, and the others leave it.
  by_cases going : t = .halt
  · subst going
    exact fun id hid => absurd hid (Option.some_ne_none id).symm
  · cases t with
    | serve =>
      have hpassed := (st.awaiting_passAll).2.1 used
      show (st.passAll.2.tryMove .serve).2.InUse
      simp only [tryMove, move?]
      cases go : st.passAll.2.serve? with
      | none => exact hpassed
      | some st' =>
        obtain ⟨inbox, -, ⟨e, t, hreceive, -, rfl⟩ | ⟨-, -, -, rfl⟩⟩ := serve_eq go
        · intro id hid
          obtain ⟨hinbox, htransport⟩ := accept_frame { st.passAll.2 with transport := t } e
          rw [Option.map_some, Option.getD_some, hinbox] at hid
          rw [Option.map_some, Option.getD_some, htransport]
          obtain rfl : (st.passAll.2.transport.receive inbox).2 = t := congrArg Prod.snd hreceive
          have hnext := nextMailbox_receive st.passAll.2.transport.broker inbox
          exact hnext.symm ▸ hpassed id hid
        · exact fun id hid => absurd hid (Option.some_ne_none id).symm
    | _ => exact (awaiting_turn rfl going used).2.1

/-- A schedule keeps the server's queue in use. -/
theorem InUse.carry (used : st.InUse) (ts : List Turn) : (st.carry ts).2.InUse := by
  induction ts generalizing st with
  | nil => exact used
  | cons t ts ih => exact ih (used.turn t)

/-- The messages on the server's queue are read in order, one in each turn of the server. -/
theorem awaiting_served (used : st.InUse) {ts : List Turn} (going : ∀ t ∈ ts, t ≠ .halt)
    {due : List Envelope} (first : due <+: st.awaiting)
    (enough : due.length ≤ ts.countP Turn.isServe) :
    due <+: (st.carry ts).1.intake.filter Envelope.legible := by
  -- on the schedule; more may come in behind what is due, so that is a prefix of what waits
  induction ts generalizing st due with
  | nil =>
    rw [List.length_eq_zero_iff.1 (Nat.le_zero.1 enough)]
    exact List.nil_prefix
  | cons t ts ih =>
    have going' : ∀ t' ∈ ts, t' ≠ .halt := fun t' ht => going t' (List.mem_cons_of_mem _ ht)
    simp only [Stage.carry, intake_append, List.filter_append]
    cases reads : t.isServe with
    | false =>
      obtain ⟨hnone, hused, hprefix⟩ :=
        awaiting_turn reads (going t List.mem_cons_self) used
      rw [hnone, List.nil_append]
      rw [List.countP_cons_of_neg (by simp [reads])] at enough
      exact ih hused going' (first.trans hprefix) enough
    | true =>
      obtain rfl : t = .serve := by cases t <;> first | rfl | cases reads
      -- What is due first is what this turn reads.
      cases due with
      | nil => exact List.nil_prefix
      | cons e due =>
        obtain ⟨more, hmore⟩ := first
        obtain ⟨hread, hrest, hused⟩ := awaiting_turn_serve hmore.symm
        rw [hread]
        rw [List.countP_cons_of_pos reads] at enough
        refine (List.prefix_cons_inj e).2 (ih (hused used) going' ?_ ?_)
        · rw [hrest]
          exact List.prefix_append _ _
        · exact Nat.le_of_succ_le_succ enough

end Stage

/-- A call that goes through did something with the broker. -/
private theorem Transport.call_ok {α : Type} {t t' : Transport} {op : Operation} {target : String}
    {run : Broker → Except TransportError (α × Broker)} {a : α}
    (h : t.call op target run = (.ok a, t')) : run t.broker = .ok (a, t'.broker) := by
  unfold Transport.call at h
  split at h
  · simp at h
  · split at h
    · simp at h
    · next hrun =>
      obtain ⟨ha, rfl⟩ := Prod.mk.injEq .. ▸ h
      obtain rfl := Except.ok.inj ha
      exact hrun

/-- A server that was started reads a mailbox that there is. -/
theorem Server.inUse_of_launch {router : Router} {config : ServerConfig} {t t' : Transport}
    {s : Server} (up : Server.launch router config t = (.ok s, t')) (sources : Sources) :
    ({ server := s, sources, transport := t' } : Stage).InUse := by
  unfold Server.launch at up
  split at up
  · simp at up
  next t₁ hcreate =>
  split at up
  · simp at up
  next inbox t₂ hconsume =>
  split at up
  · simp at up
  next departures t₃ hwatch =>
  obtain ⟨hs, rfl⟩ := Prod.mk.injEq .. ▸ up
  obtain rfl := Except.ok.inj hs
  intro id hid
  obtain rfl : inbox = id := Option.some.inj hid
  -- The queue is new, so its mailbox has the number that was next.
  have hcreated := Transport.call_ok hcreate
  have hconsumed := Transport.call_ok hconsume
  have hwatched := Transport.call_ok hwatch
  unfold Broker.create at hcreated
  split at hcreated
  · simp [Except.map] at hcreated
  simp only [Except.map, Except.ok.injEq, Prod.mk.injEq, true_and] at hcreated
  -- Consuming finds that mailbox, and watching makes no other.
  simp only [Broker.consume, Broker.mailbox?, ← hcreated, Std.ExtTreeMap.getElem?_insert_self,
    Option.bind_eq_bind, Option.bind_some, Option.pure_def, if_true, Except.ok.injEq,
    Prod.mk.injEq] at hconsumed
  simp only [Broker.watch, Except.ok.injEq, Prod.mk.injEq] at hwatched
  show inbox.index < t₃.broker.nextMailbox
  rw [← hwatched.2, ← hconsumed.2, ← hconsumed.1]
  exact Nat.lt_succ_self _

end StreamRpc
