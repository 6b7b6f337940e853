import Mathlib.Algebra.Group.Nat.Defs
import StreamRpc.Proofs.Client.Run

/-! # Outcomes come from answers

Whatever a session does, the outcome that waits for a call is that of an answer to this call, with
handles for its streams, or says that there is no connection.  Every handle in it was made for its
stream.

* `Client.Step.effect`     all that a step does
* `Client.Run.holds`       where outcomes and handles come from
* `Client.Run.nodup_asks`  no two calls have one number
-/

namespace StreamRpc

/-- An outcome is that of an answer to a call, unless it says that there is none. -/
def ClientTrace.Answers (tr : ClientTrace) (id : CallId) : Except CallError ClientValue → Prop
  | .ok v =>
    .reply id (.ok (v.map Handle.id)) ∈ tr.messages ∧ ∀ h ∈ v.slots, tr.Given h
  | .error (.remote f) => .reply id (.error f) ∈ tr.messages
  | .error _ => True

/-- An answer stays one as the trace grows. -/
private theorem ClientTrace.Answers.mono {tr : ClientTrace} {id : CallId}
    {r : Except CallError ClientValue} (h : tr.Answers id r) (more : ClientTrace) :
    Answers (tr ++ more) id r := by
  unfold Answers at h ⊢
  split at h
  · rw [messages_append]
    exact ⟨List.mem_append_left _ h.1, fun g hg => (h.2 g hg).mono more⟩
  · rw [messages_append]
    exact List.mem_append_left _ h
  · trivial

/-- The handles an answer holds were made by the client. -/
private theorem ClientTrace.Answers.given {tr : ClientTrace} {id : CallId}
    {r : Except CallError ClientValue} (h : tr.Answers id r) :
    ∀ g ∈ (Ticket.resolved r).handles, tr.Given g := by
  cases r with
  | ok v => exact h.2
  | error e => simp [Ticket.handles]

/-! ## Tickets -/

namespace Correlator

/-- An outcome that is on a ticket now was there before, or is one of these. -/
def Settles (c c' : Correlator) (new : CallId → Except CallError ClientValue → Prop) : Prop :=
  ∀ (id : CallId) (x : Except CallError ClientValue), c'.tickets[id]? = some (.resolved x) →
    c.tickets[id]? = some (.resolved x) ∨ new id x

/-- What stays the same in a session for good. -/
structure Kept (c c' : Correlator) : Prop where
  serverQueue : c'.serverQueue = c.serverQueue
  replyTo : c'.replyTo = c.replyTo
  closed : c.closed = true → c'.closed = true

/-- Nothing done leaves a session as it is for good. -/
theorem Kept.refl (c : Correlator) : c.Kept c :=
  ⟨rfl, rfl, id⟩

/-- What stays the same twice stays the same. -/
theorem Kept.trans {c c' c'' : Correlator} (h : c.Kept c') (h' : c'.Kept c'') : c.Kept c'' :=
  ⟨h'.serverQueue.trans h.serverQueue, h'.replyTo.trans h.replyTo, fun hc => h'.closed (h.closed hc)⟩

/-- Forgetting a ticket settles nothing. -/
theorem settles_of_erase {c c' : Correlator} {id : CallId}
    {new : CallId → Except CallError ClientValue → Prop}
    (h : c'.tickets = c.tickets.erase id) : c.Settles c' new := by
  intro other x hx
  rw [h, Std.ExtTreeMap.getElem?_erase] at hx
  split at hx
  · cases hx
  · exact .inl hx

/-- An outcome is put on the ticket that waits for it, or it is left over. -/
private theorem settle_eq (c : Correlator) (id : CallId) (r : Except CallError ClientValue) :
    ((c.settle id r).1 = [] ∨ (c.settle id r).1 = (Ticket.resolved r).handles) ∧
      c.Settles (c.settle id r).2 (fun other x => other = id ∧ x = r) ∧
      c.Kept (c.settle id r).2 ∧ (c.settle id r).2.numbered = c.numbered := by
  -- The ticket waits and gets the outcome, or nobody waits and the handles are left over.
  rcases c.settle_cases id r with ⟨-, heq⟩ | ⟨-, heq⟩ <;> rw [heq]
  · refine ⟨.inl rfl, fun other x hx => ?_, ⟨rfl, rfl, fun h => h⟩, rfl⟩
    have hx' : (c.tickets.insert id (.resolved r))[other]? = some (.resolved x) := hx
    rw [Std.ExtTreeMap.getElem?_insert] at hx'
    split at hx'
    · next hc =>
      obtain rfl := Ticket.resolved.inj (Option.some.inj hx')
      exact .inr ⟨(Std.LawfulEqOrd.eq_of_compare hc).symm, rfl⟩
    · exact .inl hx'
  · exact ⟨.inr rfl, fun other x hx => .inl hx, .refl c, rfl⟩

/-- Withdrawing and settling a call gives its ticket this outcome, or drops the outcome's handles.
-/
theorem settle_withdraw (c : Correlator) (id : CallId) (r : Except CallError ClientValue) :
    (((c.withdraw id).settle id r).1 = [] ∨
        ((c.withdraw id).settle id r).1 = (Ticket.resolved r).handles) ∧
      c.Settles ((c.withdraw id).settle id r).2 (fun other x => other = id ∧ x = r) ∧
      c.Kept ((c.withdraw id).settle id r).2 ∧
      ((c.withdraw id).settle id r).2.numbered = c.numbered := by
  obtain ⟨h1, h2, h3, h4⟩ := (c.withdraw id).settle_eq id r
  exact ⟨h1, h2, ⟨h3.serverQueue, h3.replyTo, h3.closed⟩, h4⟩

/-- A resolution settles its own call with the answer, and drops the answer's handles if nobody
waits. -/
theorem resolve_eq (c : Correlator) (id : CallId) (r : Except Failure ClientValue) :
    ((c.resolve id r).2.1 = [] ∨
        (c.resolve id r).2.1 = (Ticket.resolved (r.mapError .remote)).handles) ∧
      c.Settles (c.resolve id r).2.2 (fun other x => other = id ∧ x = r.mapError .remote) ∧
      c.Kept (c.resolve id r).2.2 ∧ (c.resolve id r).2.2.numbered = c.numbered := by
  unfold resolve
  split
  · exact c.settle_withdraw id (r.mapError .remote)
  · exact ⟨.inr rfl, fun other x hx => .inl hx, .refl c, rfl⟩

/-- A failure settles its own call with the error. -/
theorem fail_eq (c : Correlator) (e : CallError) (id : CallId) :
    c.Settles (c.fail e id) (fun _ x => x = .error e) ∧ c.Kept (c.fail e id) ∧
      (c.fail e id).numbered = c.numbered := by
  unfold fail
  split
  · obtain ⟨-, h1, h2, h3⟩ := c.settle_withdraw id (.error e)
    refine ⟨fun other x hx => ?_, h2, h3⟩
    -- An outcome was on its ticket before, or it is the failure.
    rcases h1 other x hx with h | ⟨-, h⟩
    · exact .inl h
    · exact .inr h
  · exact ⟨fun other x hx => .inl hx, .refl c, rfl⟩

/-- Failing a list of calls settles each with the error. -/
private theorem foldl_fail (ids : List CallId) (c : Correlator) (e : CallError) :
    c.Settles (ids.foldl (fun c id => c.fail e id) c) (fun _ x => x = .error e) ∧
      c.Kept (ids.foldl (fun c id => c.fail e id) c) ∧
      (ids.foldl (fun c id => c.fail e id) c).numbered = c.numbered := by
  induction ids generalizing c with
  | nil => exact ⟨fun other x hx => .inl hx, .refl c, rfl⟩
  | cons id ids ih =>
    obtain ⟨h1, h2, h3⟩ := ih (c.fail e id)
    obtain ⟨h4, h5, h6⟩ := c.fail_eq e id
    refine ⟨fun other x hx => ?_, h5.trans h2, h3.trans h6⟩
    -- What the later failings put on a ticket is the error; the rest is of the first failing.
    rcases h1 other x hx with h | h
    · exact h4 other x h
    · exact .inr h

/-- Failing all calls settles each with the error and closes the correlator. -/
private theorem failAll_eq (c : Correlator) (e : CallError) :
    c.Settles (c.failAll e) (fun _ x => x = .error e) ∧ c.Kept (c.failAll e) ∧
      (c.failAll e).closed = true ∧ (c.failAll e).numbered = c.numbered := by
  obtain ⟨h1, h2, h3⟩ := foldl_fail c.pending.toList c.close e
  exact ⟨h1, ⟨h2.serverQueue, h2.replyTo, fun _ => h2.closed rfl⟩, h2.closed rfl, h3⟩

/-- Making a call, whether it succeeds or not. -/
theorem submit_eq (c : Correlator) (method : String) (args : List PlainValue) (t : Transport) :
    c.Settles (c.submit method args t).2.1 (fun _ _ => False) ∧
      c.Kept (c.submit method args t).2.1 ∧
      (c.submit method args t).2.1.numbered = c.numbered + 1 ∧
      (∀ id, (c.submit method args t).1 = .ok id → id = c.nextId) := by
  -- A ticket that is handed out waits, so it shows no outcome.
  have hreserve : c.Settles c.reserve.2 (fun _ _ => False) := by
    intro other x hx
    have hx' : (c.tickets.insert c.nextId .waiting)[other]? = some (.resolved x) := hx
    rw [Std.ExtTreeMap.getElem?_insert] at hx'
    split at hx'
    · cases hx'
    · exact .inl hx'
  have hretract : c.Settles (c.reserve.2.retract c.nextId) (fun _ _ => False) := by
    intro other x hx
    have herase : c.reserve.2.Settles (c.reserve.2.retract c.nextId) (fun _ _ => False) :=
      settles_of_erase rfl
    rcases herase other x hx with h | h
    · exact hreserve other x h
    · exact h.elim
  obtain ⟨r, c', t', heq, submits⟩ := c.submits method args t
  rw [heq]
  cases submits with
  | sent => exact ⟨hreserve, ⟨rfl, rfl, fun h => h⟩, rfl, fun id h => (Except.ok.inj h).symm⟩
  | _ => exact ⟨hretract, ⟨rfl, rfl, fun h => h⟩, rfl, by simp⟩

/-- A collection settles nothing, and what it returns is the ticket's outcome or a lost connection.
-/
theorem collect_eq (c : Correlator) (id : CallId) :
    c.Settles (c.collect id).2 (fun _ _ => False) ∧ c.Kept (c.collect id).2 ∧
      (c.collect id).2.numbered = c.numbered ∧
      ∀ r, (c.collect id).1 = .outcome r →
        c.tickets[id]? = some (.resolved r) ∨ ∃ reason, r = .error (.connectionLost reason) := by
  obtain ⟨r, c', heq, collects⟩ := c.collects id
  rw [heq]
  -- Whoever asks too early leaves the ticket; otherwise it goes, and with it the call.
  cases collects with
  | gone | pending => exact ⟨fun _ _ h => .inl h, .refl c, rfl, by simp⟩
  | taken ticket =>
    refine ⟨settles_of_erase rfl, ⟨rfl, rfl, fun h => h⟩, rfl, fun x hx => .inl ?_⟩
    rw [ticket, Collection.outcome.inj hx]
  | lost =>
    refine ⟨settles_of_erase rfl, ⟨rfl, rfl, fun h => h⟩, rfl, fun x hx => .inr ?_⟩
    exact ⟨"reply channel closed", (Collection.outcome.inj hx).symm⟩

/-- Dropping a ticket settles nothing, and drops the handles of an outcome that was waiting. -/
theorem dropTicket_eq (c : Correlator) (id : CallId) :
    c.Settles (c.dropTicket id).2.2 (fun _ _ => False) ∧ c.Kept (c.dropTicket id).2.2 ∧
      (c.dropTicket id).2.2.numbered = c.numbered ∧
      ((c.dropTicket id).2.1 = [] ∨
        ∃ r, c.tickets[id]? = some (.resolved r) ∧
          (c.dropTicket id).2.1 = (Ticket.resolved r).handles) := by
  unfold dropTicket
  -- There is a ticket or there is none.
  split
  · exact ⟨fun _ _ h => .inl h, .refl c, rfl, .inl rfl⟩
  · next t ht =>
    refine ⟨settles_of_erase rfl, ⟨rfl, rfl, fun h => h⟩, rfl, ?_⟩
    -- Only an outcome has handles to leave over.
    cases t with
    | waiting => exact .inl rfl
    | resolved r => exact .inr ⟨r, ht, rfl⟩

end Correlator

/-! ## What a step does -/

namespace Client

/-- What a step does to the handles of a session, which may be over by then. -/
inductive DemuxStep (tr : ClientTrace) (isOver : Prop) (d : Demux) : ClientTrace → Demux → Prop where
  /-- It does nothing, and tells nothing of streams. -/
  | rest {es : ClientTrace} (messages : es.messages = []) (yields : ∀ k, es.yields k = [])
      (parted : es.parted = []) : DemuxStep tr isOver d es d
  | answer {e : Envelope} {id : CallId} {r : Except Failure WireValue}
      (message : e.serverMessage? = some (.reply id r)) :
      DemuxStep tr isOver d [.took e] (d.introduceAll (ServerMessage.reply id r).introduces).2
  | observe {e : Envelope} {id : StreamId} {event : Notification WireValue}
      (message : e.serverMessage? = some (.observation id event)) :
      DemuxStep tr isOver d [.took e] (d.observe id event).2
  | drop {hs : List Handle} (given : ∀ h ∈ hs, tr.Given h) : DemuxStep tr isOver d [] (d.dropAll hs)
  | fail (reason : String) (gone : isOver) :
      DemuxStep tr isOver d [] (d.failAll { kind := .disconnected, message := reason })
  | part {es : ClientTrace} (messages : es.messages = []) (yields : ∀ k, es.yields k = [])
      (parted : es.parted = d.released) : DemuxStep tr isOver d es d.takeReleased.2
  | read {h : Handle} (given : tr.Given h) :
      DemuxStep tr isOver d
        ((Demux.Reading.notification? (d.read h).1).map (ClientEvent.yielded h)).toList
        (d.read h).2

/-- What stays the same in a client for good, or as long as the session does. -/
structure Kept (c c' : Client) : Prop where
  session : c.correlator.Kept c'.correlator
  inbox : c'.inbox = c.inbox ∨ c'.inbox = none ∧ c'.correlator.closed = true
  departures : c'.departures = c.departures ∨ c'.departures = none
  closing : c'.connected = true → c'.closing = c.closing

/-- A client that only changes its correlator and its handles is kept. -/
private theorem Kept.of_fields {c c' : Client} (session : c.correlator.Kept c'.correlator)
    (inbox : c'.inbox = c.inbox) (departures : c'.departures = c.departures)
    (closing : c'.closing = c.closing) : Kept c c' :=
  ⟨session, .inl inbox, .inl departures, fun _ => closing⟩

/-- A client that closes may lose its queue and its departures. -/
private theorem Kept.of_closed {c c' : Client} (session : c.correlator.Kept c'.correlator)
    (inbox : c'.inbox = c.inbox ∨ c'.inbox = none)
    (departures : c'.departures = c.departures ∨ c'.departures = none)
    (closed : c'.correlator.closed = true) : Kept c c' := by
  have hno : ¬ c'.connected = true := by simp [connected, closed]
  exact ⟨session, inbox.imp_right fun h => ⟨h, closed⟩, departures, fun h => absurd h hno⟩

/-- Nothing done keeps the client. -/
theorem Kept.refl (c : Client) : Kept c c :=
  .of_fields (.refl _) rfl rfl rfl

/-- A session that goes on went on before. -/
theorem Kept.connected {c c' : Client} (h : Kept c c') (hc : c'.connected = true) :
    c.connected = true := by
  cases hcl : c.correlator.closed with
  | false => simp [Client.connected, hcl]
  | true => simp [Client.connected, h.session.closed hcl] at hc

/-- All that a step does to a client after what has been told so far. -/
structure Effect (tr : ClientTrace) (c : Client) (es : ClientTrace) (c' : Client) : Prop where
  demux : DemuxStep tr (c'.correlator.closed = true) c.demux es c'.demux
  kept : Kept c c'
  tickets : c.correlator.Settles c'.correlator fun id x =>
    (∃ r, c.arrived = some (id, r) ∧ x = r.mapError .remote) ∨
      ∃ reason, x = .error (.connectionLost reason)
  arrived : ∀ id r, c'.arrived = some (id, r) → c.arrived = some (id, r) ∨
    ClientTrace.Answers (tr ++ es) id (r.mapError .remote)
  asks : ∃ ids : List CallId, es.asks.Sublist ids ∧
    (c'.correlator.numbered = c.correlator.numbered ∧ ids = [] ∨
      c'.correlator.numbered = c.correlator.numbered + 1 ∧ ids = [c.correlator.nextId])

/-- A step that numbers no call asks for nothing. -/
private theorem asks_nothing {c c' : Client} {es : ClientTrace} (hes : es.asks = [])
    (h : c'.correlator.numbered = c.correlator.numbered) :
    ∃ ids : List CallId, es.asks.Sublist ids ∧
      (c'.correlator.numbered = c.correlator.numbered ∧ ids = [] ∨
        c'.correlator.numbered = c.correlator.numbered + 1 ∧ ids = [c.correlator.nextId]) :=
  ⟨[], by rw [hes], .inl ⟨h, rfl⟩⟩

/-- Where the handles of a session are, and where its outcomes come from. -/
structure Holds (tr : ClientTrace) (c : Client) : Prop where
  fit : c.demux.Fit tr.made
  parted : ∀ id ∈ tr.parted, id ∈ tr.made
  /-- Only handles that were made have yielded something. -/
  silent : ∀ k, tr.made.length ≤ k → tr.yields k = []
  arrived : ∀ id r, c.arrived = some (id, r) → tr.Answers id (r.mapError .remote)
  tickets : ∀ (id : CallId) r, c.correlator.tickets[id]? = some (.resolved r) → tr.Answers id r

/-- A client that has just connected holds nothing. -/
private theorem Fresh.holds {c : Client} (h : c.Fresh) : Holds [] c where
  -- A new client has no handle, no ticket and no answer on its way.
  fit := by
    rw [h.demux]
    exact Demux.fit_empty
  parted id h := by cases h
  silent k _ := rfl
  arrived id r hr := by
    rw [h.arrived] at hr
    cases hr
  tickets id r hr := by
    rw [h.tickets] at hr
    simp at hr

/-- A step that touches no handle is a demultiplexer step of no events. -/
private theorem rest_nil (tr : ClientTrace) (isOver : Prop) (d : Demux) :
    DemuxStep tr isOver d [] d :=
  .rest rfl (fun _ => rfl) rfl

/-- A disconnect leaves the queue, the departures and the held calls to whoever owns them. -/
theorem disconnect_fields (c : Client) (reason : String) :
    (c.disconnect reason).inbox = c.inbox ∧ (c.disconnect reason).departures = c.departures ∧
      (c.disconnect reason).closing = c.closing ∧ (c.disconnect reason).held = c.held := by
  unfold disconnect
  split <;> exact ⟨rfl, rfl, rfl, rfl⟩

/-- The end of a session, or of one that has ended before. -/
theorem disconnect_eq (c : Client) (reason : String) (tr : ClientTrace) :
    (c.disconnect reason).correlator.closed = true ∧
      c.correlator.Kept (c.disconnect reason).correlator ∧
      (c.disconnect reason).arrived = c.arrived ∧
      DemuxStep tr ((c.disconnect reason).correlator.closed = true) c.demux []
        (c.disconnect reason).demux ∧
      c.correlator.Settles (c.disconnect reason).correlator
        (fun _ x => x = .error (.connectionLost reason)) ∧
      (c.disconnect reason).correlator.numbered = c.correlator.numbered := by
  unfold disconnect
  -- A client that is closed already is left as it is.
  split
  · next h => exact ⟨h, .refl _, rfl, rest_nil _ _ _, fun _ _ hx => .inl hx, rfl⟩
  · obtain ⟨h1, h2, h3, h4⟩ := c.correlator.failAll_eq (.connectionLost reason)
    exact ⟨h3, h2, rfl, .fail reason h3, h1, h4⟩

/-- A step that ends the session. -/
private theorem Effect.of_disconnect {tr : ClientTrace} {c c' : Client} (c₁ : Client)
    {reason : String}
    (hcorr : c₁.correlator = c.correlator) (hdemux : c₁.demux = c.demux)
    (harrived : c₁.arrived = c.arrived)
    (hcorr' : c'.correlator = (c₁.disconnect reason).correlator)
    (hdemux' : c'.demux = (c₁.disconnect reason).demux)
    (harrived' : c'.arrived = (c₁.disconnect reason).arrived)
    (hinbox : c'.inbox = c.inbox ∨ c'.inbox = none)
    (hdepartures : c'.departures = c.departures ∨ c'.departures = none) : Effect tr c [] c' := by
  obtain ⟨h1, h2, h3, h4, h5, h6⟩ := c₁.disconnect_eq reason tr
  -- What is said of `c₁` is said of `c`, with which it shares all that is looked at.
  rw [hcorr] at h2 h5 h6
  rw [hdemux] at h4
  refine ⟨?_, .of_closed (hcorr' ▸ h2) hinbox hdepartures (hcorr' ▸ h1), ?_, ?_,
    asks_nothing rfl (hcorr' ▸ h6)⟩
  · rw [hcorr', hdemux']
    exact h4
  · rw [hcorr']
    intro id x hx
    rcases h5 id x hx with h | h
    · exact .inl h
    · exact .inr (.inr ⟨reason, h⟩)
  · intro id r hr
    rw [harrived', h3, harrived] at hr
    exact .inl hr

/-- A step that changes the correlator alone has an effect on no handle. -/
private theorem Effect.of_correlator {tr es : ClientTrace} {c : Client} {correlator : Correlator}
    (settles : c.correlator.Settles correlator (fun _ _ => False))
    (kept : c.correlator.Kept correlator) (messages : es.messages = [])
    (yields : ∀ k, es.yields k = []) (parted : es.parted = [])
    (asks : ∃ ids : List CallId, es.asks.Sublist ids ∧
      (correlator.numbered = c.correlator.numbered ∧ ids = [] ∨
        correlator.numbered = c.correlator.numbered + 1 ∧ ids = [c.correlator.nextId])) :
    Effect tr c es { c with correlator } := by
  refine ⟨.rest messages yields parted, .of_fields kept rfl rfl rfl, fun id x hx => ?_,
    fun id r hr => .inl hr, asks⟩
  -- The correlator alone puts no answer on any ticket here.
  rcases settles id x hx with h | h
  · exact .inl h
  · exact h.elim

/-- Dropping a ticket drops the handles of the outcome it held. -/
private theorem Effect.of_dropTicket {tr : ClientTrace} {c : Client} (holds : Holds tr c)
    (correlator : Correlator) (hkept : c.correlator.Kept correlator)
    (htickets : correlator.tickets = c.correlator.tickets)
    (hnumbered : correlator.numbered = c.correlator.numbered) (id : CallId) :
    Effect tr c [] (({ c with correlator } : Client).dropTicket id) := by
  obtain ⟨h1, h2, h3, h4⟩ := correlator.dropTicket_eq id
  refine ⟨?_, .of_fields (hkept.trans h2) rfl rfl rfl, ?_, fun _ _ h => .inl h,
    asks_nothing rfl (h3.trans hnumbered)⟩
  · show DemuxStep tr _ c.demux [] (c.demux.dropAll (correlator.dropTicket id).2.1)
    -- What is dropped with a ticket is in the answer that it shows.
    refine .drop fun g hg => ?_
    rcases h4 with h4 | ⟨r, hr, h4⟩
    · rw [h4] at hg
      cases hg
    · rw [h4] at hg
      rw [htickets] at hr
      exact (holds.tickets id r hr).given g hg
  · intro other x hx
    rcases h1 other x hx with h | h
    · rw [htickets] at h
      exact .inl h
    · exact h.elim

/-- An accepted envelope is routed to the handle or the call it names. -/
private theorem Effect.of_accept {tr : ClientTrace} {c : Client} (holds : Holds tr c)
    (e : Envelope) :
    Effect tr c [.took e] (c.accept e) := by
  obtain ⟨c', heq, accepts⟩ := c.accepts e
  rw [heq]
  cases accepts with
  | illegible silent =>
    -- What cannot be read is taken off the queue, and nothing else happens.
    refine ⟨.rest ?_ (fun _ => rfl) rfl, .of_fields (.refl _) rfl rfl rfl, fun _ _ h => .inl h,
      fun _ _ h => .inl h, asks_nothing rfl rfl⟩
    simp [ClientTrace.messages, ClientEvent.message?, silent]
  | observe message =>
    -- An observation is for the handles, and settles no call.
    exact ⟨.observe message, .of_fields (.refl _) rfl rfl rfl, fun _ _ h => .inl h,
      fun _ _ h => .inl h, asks_nothing rfl rfl⟩
  | failure message =>
    refine ⟨.answer message, .of_fields (.refl _) rfl rfl rfl, fun _ _ h => .inl h,
      fun other x hx => .inr ?_, asks_nothing rfl rfl⟩
    obtain ⟨rfl, rfl⟩ := Prod.mk.injEq .. ▸ Option.some.inj hx
    show _ ∈ ClientTrace.messages _
    rw [ClientTrace.messages_append, ClientTrace.messages_took message]
    simp
  | @value id v message =>
    obtain ⟨h1, h2, h3⟩ := c.demux.attach_eq v
    refine ⟨?_, .of_fields (.refl _) rfl rfl rfl, fun _ _ h => .inl h, fun other x hx => .inr ?_,
      asks_nothing rfl rfl⟩
    · show DemuxStep tr _ c.demux [.took e] (c.demux.attach v).2
      rw [h2]
      exact .answer message
    · obtain ⟨rfl, rfl⟩ := Prod.mk.injEq .. ▸ Option.some.inj hx
      refine ⟨?_, fun g hg => ?_⟩
      · show ServerMessage.reply id (.ok ((c.demux.attach v).1.map Handle.id)) ∈ _
        rw [ClientTrace.messages_append, ClientTrace.messages_took message, h3]
        simp
      · have hg' : g ∈ (c.demux.attach v).1.slots := hg
        rw [h1] at hg'
        -- The handles in an answer have just been made for its streams.
        have hgiven := (holds.fit.introduceAll v.slots).2 g hg'
        show Demux.Given (ClientTrace.made (tr ++ [.took e])) g
        rw [ClientTrace.made_took tr message]
        exact hgiven

/-- The handles in an answer that nobody waits for are dropped; it is the one that arrived. -/
private theorem Effect.of_resolve {tr : ClientTrace} {c : Client} (holds : Holds tr c) {id : CallId}
    {result : Except Failure ClientValue} (arrived : c.arrived = some (id, result)) :
    Effect tr c [] (c.resolve id result) := by
  obtain ⟨h1, h2, h3, h4⟩ := c.correlator.resolve_eq id result
  refine ⟨?_, .of_fields h3 rfl rfl rfl, fun other x hx => ?_, fun _ _ h => ?_, asks_nothing rfl h4⟩
  · show DemuxStep tr _ c.demux [] (c.demux.dropAll (c.correlator.resolve id result).2.1)
    refine .drop fun g hg => ?_
    -- Left over is nothing, or what was introduced with the answer.
    rcases h1 with h1 | h1
    · rw [h1] at hg
      cases hg
    · rw [h1] at hg
      exact (holds.arrived id result arrived).given g hg
  · rcases h2 other x hx with h | ⟨rfl, rfl⟩
    · exact .inl h
    · exact .inr (.inl ⟨result, arrived, rfl⟩)
  · cases h

/-- A step that takes the streams that are to be closed. -/
private theorem Effect.of_takeReleased {tr es : ClientTrace} {c : Client}
    (messages : es.messages = [])
    (yields : ∀ k, es.yields k = []) (parted : es.parted = c.demux.released) (asks : es.asks = []) :
    Effect tr c es { c with demux := c.demux.takeReleased.2 } :=
  ⟨.part messages yields parted, .of_fields (.refl _) rfl rfl rfl, fun _ _ h => .inl h,
    fun _ _ h => .inl h, asks_nothing asks rfl⟩

/-- A read yields what the demultiplexer reads. -/
private theorem readEvents_eq (c : Client) (h : Handle) : c.readEvents h =
    ((Demux.Reading.notification? (c.demux.read h).1).map (ClientEvent.yielded h)).toList := by
  unfold readEvents
  split
  · next n hn =>
    rw [hn]
    rfl
  · next hn =>
    -- Only a notification is told of.
    cases hr : (c.demux.read h).1 with
    | notification n => exact absurd hr (hn n)
    | ended => rfl
    | nothing => rfl

/-- All that a step does. -/
theorem Step.effect {tr es : ClientTrace} {c c' : Client} (holds : Holds tr c)
    (next : Step tr c es c') : Effect tr c es c' := by
  cases next.does with
  | resolve arrived => exact .of_resolve holds arrived
  | accept => exact .of_accept holds _
  -- To lose the inbox or the server is to be disconnected for that reason.
  | lose =>
    obtain ⟨h1, h2, -, -⟩ := disconnect_fields { c with inbox := none } "reply queue closed"
    exact .of_disconnect { c with inbox := none } rfl rfl rfl rfl rfl rfl (.inr h1) (.inl h2)
  | tell | hush =>
    exact .of_takeReleased rfl (fun _ => rfl)
      (by simp [ClientTrace.parted, ClientEvent.parted]) rfl
  | depart =>
    obtain ⟨h1, h2, -, -⟩ := disconnect_fields { c with departures := none } "server departed"
    exact .of_disconnect { c with departures := none } rfl rfl rfl rfl rfl rfl (.inl h1) (.inr h2)
  -- The steps of calls leave the handles alone; what is left to see is what they tell.
  | submit method args t =>
    obtain ⟨h1, h2, h3, h4⟩ := c.correlator.submit_eq method args t
    refine .of_correlator h1 h2 ?_ ?_ ?_ ⟨_, ?_, .inr ⟨h3, rfl⟩⟩ <;> unfold submitEvents
    · split <;> rfl
    · intro k
      split <;> rfl
    · split <;> rfl
    · split
      · next id e hid _ =>
        rw [h4 id hid]
        exact List.Sublist.refl _
      · exact List.nil_sublist _
  | collect id =>
    obtain ⟨h1, h2, h3, -⟩ := c.correlator.collect_eq id
    refine .of_correlator h1 h2 ?_ ?_ ?_ ⟨[], ?_, .inl ⟨h3, rfl⟩⟩ <;> unfold collectEvents
    · split <;> rfl
    · intro k
      split <;> rfl
    · split <;> rfl
    · split <;> exact List.nil_sublist _
  | dropTicket id => exact .of_dropTicket holds c.correlator (.refl _) rfl rfl id
  | giveUp id =>
    show Effect tr c []
      (({ c with correlator := (c.correlator.cancel id).2 } : Client).dropTicket id)
    exact .of_dropTicket holds (c.correlator.cancel id).2 ⟨rfl, rfl, fun h => h⟩ rfl rfl id
  -- A drop and a read leave the calls alone.
  | drop given =>
    exact ⟨.drop given, .of_fields (.refl _) rfl rfl rfl, fun _ _ h => .inl h, fun _ _ h => .inl h,
      asks_nothing rfl rfl⟩
  | @read h given =>
    rw [readEvents_eq]
    exact ⟨.read given, .of_fields (.refl _) rfl rfl rfl, fun _ _ h => .inl h, fun _ _ h => .inl h,
      asks_nothing (ClientTrace.asks_yielded h _) rfl⟩
  | close t => exact .of_disconnect c rfl rfl rfl rfl rfl rfl (.inr rfl) (.inr rfl)
  | abandon t =>
    obtain ⟨h1, h2, -, -⟩ :=
      disconnect_fields ({ c with held := false }.halt t).1 "client dropped"
    exact .of_disconnect ({ c with held := false }.halt t).1 rfl rfl rfl rfl rfl rfl (.inr h1)
      (.inr h2)

/-! ## Runs -/

/-- A step keeps the inboxes in line with the handles made. -/
private theorem DemuxStep.fit {tr es : ClientTrace} {isOver : Prop} {d d' : Demux}
    (fit : d.Fit tr.made)
    (next : DemuxStep tr isOver d es d') : d'.Fit (ClientTrace.made (tr ++ es)) := by
  -- Only an answer and an observation introduce streams, so the list grows with those alone.
  cases next with
  | rest messages =>
    rw [ClientTrace.made_of_messages tr messages]
    exact fit
  | answer message =>
    rw [ClientTrace.made_took tr message]
    exact (fit.introduceAll _).1
  | @observe e id event message =>
    rw [ClientTrace.made_took tr message, ServerMessage.introduces_observation]
    exact fit.observe id event
  | drop given =>
    rw [List.append_nil]
    exact (fit.of_dropAll given).1
  | fail reason =>
    rw [List.append_nil]
    exact fit.failAll _
  -- What was queued is sent off; the rest stays.
  | part messages =>
    rw [ClientTrace.made_of_messages tr messages]
    exact fit.takeReleased
  | @read h given =>
    rw [ClientTrace.made_of_messages tr (ClientTrace.messages_yielded h _)]
    exact fit.read h

/-- What a step sends as closed was in the queue of closed ids. -/
private theorem DemuxStep.parted {tr es : ClientTrace} {isOver : Prop} {d d' : Demux}
    (next : DemuxStep tr isOver d es d') {id : StreamId} (h : id ∈ es.parted) : id ∈ d.released := by
  cases next with
  | rest _ _ parted => simp [parted] at h
  | part _ _ parted => rwa [parted] at h
  | @read g given =>
    rw [ClientTrace.parted_yielded] at h
    cases h
  | _ => cases h

/-- A handle that is not made yet yields nothing. -/
private theorem DemuxStep.silent {tr es : ClientTrace} {isOver : Prop} {d d' : Demux}
    (next : DemuxStep tr isOver d es d') {k : Nat} (h : tr.made.length ≤ k) : es.yields k = [] := by
  cases next with
  | rest _ yields _ => exact yields k
  | part _ yields _ => exact yields k
  | @read g given =>
    have hlt := (List.getElem?_eq_some_iff.1 given).1
    -- A handle that can be read has been made, so its key is below all the unused ones.
    have hne : ¬ k = g.key := by omega
    cases Demux.Reading.notification? (d.read g).1 with
    | none => rfl
    | some n => simp [ClientTrace.yields, ClientEvent.yield?, hne]
  | _ => rfl

/-- A step keeps every handle held in one place. -/
private theorem Holds.step {tr es : ClientTrace} {c c' : Client} (holds : Holds tr c)
    (next : Step tr c es c') : Holds (tr ++ es) c' := by
  have effect := next.effect holds
  refine ⟨effect.demux.fit holds.fit, fun id hid => ?_, fun k hk => ?_, fun id r hr => ?_,
    fun id x hx => ?_⟩
  -- A stream that was given back was waiting for it.
  · rw [ClientTrace.made_append]
    rw [ClientTrace.parted_append] at hid
    rcases List.mem_append.1 hid with hid | hid
    · exact List.mem_append_left _ (holds.parted id hid)
    · exact List.mem_append_left _ (holds.fit.released id (effect.demux.parted hid))
  -- Nothing has been read from an inbox that is yet to be made.
  · rw [ClientTrace.made_append, List.length_append] at hk
    rw [ClientTrace.yields_append, holds.silent k (by omega), effect.demux.silent (by omega)]
    rfl
  · rcases effect.arrived id r hr with h | h
    · exact (holds.arrived id r h).mono es
    · exact h
  -- An outcome was on its ticket before, is the answer that has arrived, or is a failure.
  · rcases effect.tickets id x hx with h | ⟨r, hr, rfl⟩ | ⟨reason, rfl⟩
    · exact (holds.tickets id x h).mono es
    · exact (holds.arrived id r hr).mono es
    · trivial

/-- Where the handles of a session are, and where its outcomes come from. -/
theorem Run.holds {c₀ c : Client} {tr : ClientTrace} (fresh : c₀.Fresh) (run : Run c₀ tr c) :
    Holds tr c := by
  induction run with
  | refl => exact fresh.holds
  | step _ next ih => exact ih.step next

/-- What is kept twice is kept. -/
theorem Kept.trans {c c' c'' : Client} (h : Kept c c') (h' : Kept c' c'') : Kept c c'' where
  session := h.session.trans h'.session
  inbox := by
    rcases h'.inbox with h1 | h1
    -- Once the session has ended it stays ended, so an inbox that only then lost its pump is
    -- allowed to.
    · rcases h.inbox with h2 | ⟨h2, h3⟩
      · exact .inl (h1.trans h2)
      · exact .inr ⟨h1.trans h2, h'.session.closed h3⟩
    · exact .inr h1
  departures := by
    rcases h'.departures with h1 | h1
    · rcases h.departures with h2 | h2
      · exact .inl (h1.trans h2)
      · exact .inr (h1.trans h2)
    · exact .inr h1
  closing hc := (h'.closing hc).trans (h.closing (h'.connected hc))

/-- What stays the same along a run. -/
theorem Run.kept {c₀ c : Client} {tr : ClientTrace} (fresh : c₀.Fresh) (run : Run c₀ tr c) :
    Kept c₀ c := by
  induction run with
  | refl => exact .refl _
  | step run next ih => exact ih.trans (next.effect (run.holds fresh)).kept

/-- An outcome that is taken is the one that the call shows. -/
private theorem Step.collected {tr es : ClientTrace} {c c' : Client} (next : Step tr c es c')
    {id : CallId}
    {r : Except CallError ClientValue} (h : .collected id r ∈ es) :
    (c.collect id).1 = .outcome r := by
  -- No other step tells of an outcome that was taken.
  cases next.does with
  | collect other =>
    obtain ⟨x, hx, heq⟩ := mem_collectEvents.1 h
    obtain ⟨rfl, rfl⟩ := ClientEvent.collected.injEq .. ▸ heq
    exact hx
  | _ => simp at h

/-- The outcomes that were taken come from answers. -/
theorem Run.collected {c₀ c : Client} {tr : ClientTrace} (fresh : c₀.Fresh) (run : Run c₀ tr c)
    {id : CallId} {r : Except CallError ClientValue} (h : .collected id r ∈ tr) :
    tr.Answers id r := by
  induction run with
  | refl => cases h
  | @step tr es c c' run next ih =>
    rcases List.mem_append.1 h with h | h
    · exact (ih h).mono es
    -- What is collected was on the ticket, or the connection was lost.
    · rcases (c.correlator.collect_eq id).2.2.2 r (next.collected h) with h | ⟨reason, rfl⟩
      · exact ((run.holds fresh).tickets id r h).mono _
      · trivial

/-! ## Calls -/

/-- The call that gets a number after so many others. -/
def callAt (k : Nat) : CallId :=
  ⟨UInt64.ofNat k⟩

/-- The first 2⁶⁴ calls have different ids. -/
theorem callAt_inj {j k : Nat} (hj : j < 2 ^ 64) (hk : k < 2 ^ 64) (h : callAt j = callAt k) :
    j = k := by
  have hv : UInt64.ofNat j = UInt64.ofNat k := congrArg CallId.val h
  have hn := congrArg UInt64.toNat hv
  simp only [UInt64.toNat_ofNat'] at hn
  omega

/-- The calls a run asks for have the ids of the calls numbered, in order. -/
private theorem Run.asks {c₀ c : Client} {tr : ClientTrace} (fresh : c₀.Fresh) (run : Run c₀ tr c) :
    tr.asks.Sublist ((List.range c.correlator.numbered).map callAt) := by
  induction run with
  | refl => exact List.nil_sublist _
  | step run next ih =>
    obtain ⟨ids, hids, h⟩ := (next.effect (run.holds fresh)).asks
    rw [ClientTrace.asks_append]
    -- A step asks for nothing, or its one request has the next number.
    rcases h with ⟨h, rfl⟩ | ⟨h, rfl⟩
    · rw [h, List.sublist_nil.1 hids, List.append_nil]
      exact ih
    · rw [h, List.range_succ, List.map_append]
      exact ih.append hids

/-- As long as there are enough numbers, no two calls have one. -/
theorem Run.nodup_asks {c₀ c : Client} {tr : ClientTrace} (fresh : c₀.Fresh)
    (run : Run c₀ tr c) (few : c.correlator.numbered ≤ 2 ^ 64) : tr.asks.Nodup := by
  refine (run.asks fresh).nodup (List.Nodup.map_on ?_ List.nodup_range)
  intro j hj k hk h
  rw [List.mem_range] at hj hk
  exact callAt_inj (by omega) (by omega) h

/-- What was put on the server's queue is what the client meant to say. -/
def Means (correlator : Correlator) : ClientEvent → Prop
  | .asked id method args e => (correlator.request id method args).toEnvelope = .ok e
  | .told ids e _ => (ClientMessage.closed ids).toEnvelope = .ok e
  | _ => True

/-- Every request of a step means what was asked, under the client's own queue. -/
private theorem Step.means {tr es : ClientTrace} {c c' : Client} (next : Step tr c es c') :
    ∀ x ∈ es, Means c.correlator x := by
  intro x hx
  cases next.does with
  | accept | hush =>
    obtain rfl := List.mem_singleton.1 hx
    trivial
  | tell written =>
    obtain rfl := List.mem_singleton.1 hx
    exact written
  -- A request is told of just as the correlator would write it.
  | submit method args t =>
    obtain ⟨id, e, hid, he, rfl⟩ := mem_submitEvents.1 hx
    have hnext := (c.correlator.submit_eq method args t).2.2.2 id hid
    rw [Means, hnext, he]
  | collect id =>
    obtain ⟨r, -, rfl⟩ := mem_collectEvents.1 hx
    trivial
  | read given =>
    obtain ⟨n, -, rfl⟩ := mem_readEvents.1 hx
    trivial
  | _ => cases hx

/-- What a session has put on the server's queue is what it meant to say. -/
theorem Run.means {c₀ c : Client} {tr : ClientTrace} (fresh : c₀.Fresh) (run : Run c₀ tr c) :
    ∀ x ∈ tr, Means c.correlator x := by
  induction run with
  | refl => simp
  | @step tr es c c' run next ih =>
    have hreply := (next.effect (run.holds fresh)).kept.session.replyTo
    -- The reply address does not change, so what was meant before is meant still.
    have hmeans : ∀ x, Means c.correlator x → Means c'.correlator x := by
      intro x hx
      cases x <;> first | exact trivial | simpa only [Means, Correlator.request, hreply] using hx
    intro x hx
    rcases List.mem_append.1 hx with hx | hx
    · exact hmeans x (ih x hx)
    · exact hmeans x (next.means x hx)

end Client

end StreamRpc
