import StreamRpc.Proofs.Message.Canonical
import StreamRpc.Proofs.World.Channels
import StreamRpc.Proofs.World.Play

/-! # Clients and their server agree on what is open

When everything that passed has been taken in and no task is in the middle of something, a stream is
active for a client that is connected exactly if it is open there, and nothing is active for a client
that is gone.

* `World.AtRest`       everything has been taken in
* `streams_agree`      who has which streams then
-/

namespace StreamRpc

open Network

/-! ## Lengths -/

/-- No length in a message was too large to be written.  What nests too deeply may well have come
    up. -/
def WorldEvent.short : WorldEvent → Bool
  | server (.sent _ _ e _) => e.toBytes.isOk
  | server (.unwritable _ _ _ err) => err = .nestingTooDeep
  | client _ (.told _ e _) => e.toBytes.isOk
  | client _ (.untold _) => false
  | _ => true

/-- What a task had to say of a stream could be said, if only that something could not. -/
def ServerEvent.sayable (id : StreamId) : ServerEvent → Bool
  | sent _ _ e _ => e.toBytes.isOk
  | unwritable _ _ _ err =>
    (ServerMessage.observation id (.error (.unwritable "observation" err))).toEnvelope.isOk
  | _ => true

/-- An envelope that cannot be written is not a short one. -/
private theorem not_short_of_error {e : Envelope} {err : CodecError} (h : e.toBytes = .error err) :
    e.toBytes.isOk ≠ true := by
  rw [h]
  exact Bool.false_ne_true

/-- Whether a request is being answered. -/
def Handling.Phase.answering : Handling.Phase → Bool
  | replying _ => true
  | _ => false

/-- Whether a stream waits for its next item. -/
def Forwarding.Phase.idle : Forwarding.Phase → Bool
  | waiting => true
  | _ => false

namespace World

/-! ## When everything has been taken in -/

/-- The queues are empty, departures were heard of, released streams were told, and every task of the
    server waits for its method or its source. -/
structure AtRest (w : World) (s : Server) : Prop where
  serve : w.run? (.serve 0) = none
  departure : w.run? (.departure 0) = none
  cleanup : w.run? .cleanup = none
  pump : ∀ i, w.run? (.pump i) = none
  closer : ∀ i, w.run? (.closer i) = none
  work : (w.stage s).Quiet

/-- Whether everything has been taken in. -/
def atRest (w : World) (s : Server) : Bool :=
  !w.able (.serve 0) && !w.able (.departure 0) && !w.able .cleanup &&
    (List.range w.clients.length).all (fun i => !w.able (.pump i) && !w.able (.closer i)) &&
      s.handlings.toList.all (fun x => !x.2.phase.answering) &&
        s.forwardings.toList.all fun x => x.2.phase.idle

/-- A task that is not able to run does not run. -/
private theorem run?_of_not_able {w : World} {t : Task} (h : (!w.able t) = true) :
    w.run? t = none := by
  simpa [able] using h

/-- No client beyond the last one moves. -/
private theorem client?_of_length_le {w : World} {i : Nat} (h : w.clients.length ≤ i)
    (step : Client → Transport → Option (Client × Transport)) : w.client? i step = none := by
  simp [client?, List.getElem?_eq_none h]

/-- The check of a world says that it is at rest. -/
private theorem atRest_of_check {w : World} {s : Server} (h : w.atRest s = true) : w.AtRest s := by
  simp only [atRest, Bool.and_eq_true, List.all_eq_true, List.mem_range] at h
  obtain ⟨⟨⟨⟨⟨hserve, hdeparture⟩, hcleanup⟩, hclients⟩, hhandlings⟩, hforwardings⟩ := h
  have hclient : ∀ i, w.run? (.pump i) = none ∧ w.run? (.closer i) = none := by
    intro i
    -- The check goes over the clients there are; a number beyond them has no task.
    rcases Nat.lt_or_ge i w.clients.length with hi | hi
    · exact ⟨run?_of_not_able (hclients i hi).1, run?_of_not_able (hclients i hi).2⟩
    · exact ⟨client?_of_length_le hi _, client?_of_length_le hi _⟩
  exact {
    serve := run?_of_not_able hserve
    departure := run?_of_not_able hdeparture
    cleanup := run?_of_not_able hcleanup
    pump := fun i => (hclient i).1
    closer := fun i => (hclient i).2
    work := {
      handling := fun n h hh r hr => by
        have := hhandlings (n, h) (Std.ExtTreeMap.mem_toList_iff_getElem?_eq_some.2 hh)
        simp [hr, Handling.Phase.answering] at this
      forwarding := fun n f hf => by
        have := hforwardings (n, f) (Std.ExtTreeMap.mem_toList_iff_getElem?_eq_some.2 hf)
        cases hp : f.phase <;> simp [hp, Forwarding.Phase.idle] at this ⊢ } }

variable {config : ServerConfig} {w₀ w : World} {tr : WorldTrace} {s : Server} {p : Ports} {i : Nat}
  {c : Client}

/-- Nothing waits in a mailbox from which nothing comes. -/
private theorem letters_of_receive {t : Transport} {m : MailboxId}
    (h : ∀ e t', t.receive m ≠ (.envelope e, t')) :
    t.broker.letters m = [] := by
  cases hr : t.receive m with
  | mk a t' =>
    refine (Transport.receive_other hr fun e ha => ?_).1
    rw [ha] at hr
    exact h e t' hr

/-- At rest nothing waits in the server's queue. -/
private theorem AtRest.served (h : w.AtRest s) (order : InOrder config p tr w s) :
    w.transport.broker.letters p.inbox = [] := by
  refine letters_of_receive fun e t' hr => ?_
  have hserve := h.serve
  simp only [run?, server?, stage?, order.alone.one, List.getElem?_cons_zero, Option.bind_eq_bind,
    Option.bind_some, Option.pure_def, Stage.serve?, order.ported.inbox, hr] at hserve
  cases hserve

/-- At rest the server has heard every departure. -/
private theorem AtRest.heard (h : w.AtRest s) (order : InOrder config p tr w s) {x : Watcher}
    (hx : w.transport.broker.watchers[p.watcher.index]? = some x) : x.departures = [] := by
  have hdepart := h.departure
  simp only [run?, server?, stage?, order.alone.one, List.getElem?_cons_zero, Option.bind_eq_bind,
    Option.bind_some, Option.pure_def, Stage.depart?, order.ported.departures,
    Transport.departure?, Broker.departure?, hx] at hdepart
  cases hd : x.departures with
  | nil => rfl
  | cons a rest => simp [hd] at hdepart

/-- At rest no queue is left to be deleted. -/
private theorem AtRest.tidy (h : w.AtRest s) : w.cleanups = [] := by
  have hcleanup := h.cleanup
  simp only [run?, cleanup?] at hcleanup
  split at hcleanup
  · assumption
  · cases hcleanup

/-- At rest nothing waits in a client's queue. -/
private theorem AtRest.pumped (h : w.AtRest s) (found : w.clients[i]? = some c) {m : MailboxId}
    (hm : c.inbox = some m) : w.transport.broker.letters m = [] := by
  refine letters_of_receive fun e t' hr => ?_
  have hpump := h.pump i
  simp only [run?, client?, found, Option.bind_eq_bind, Option.bind_some, Option.pure_def,
    Client.pump?, hm, hr] at hpump
  split at hpump <;> cases hpump

/-- At rest a client that closes streams has sent every id it has to. -/
theorem AtRest.released (h : w.AtRest s) (found : w.clients[i]? = some c)
    (hc : c.closing = true) : c.demux.released = [] := by
  have hcloser := h.closer i
  simp only [run?, client?, found, Option.bind_eq_bind, Option.bind_some, Option.pure_def,
    Client.closeReleased?, hc, Bool.true_and] at hcloser
  split at hcloser
  · split at hcloser <;> cases hcloser
  · next hempty => simpa using hempty

/-! ## What is said and what is heard -/

/-- A client that is connected has taken whatever was put on its queue. -/
private theorem AtRest.took (h : w.AtRest s) (order : InOrder config p tr w s)
    (found : w.clients[i]? = some c) (hc : c.inbox ≠ none) {v : Worker} {e : Envelope}
    (he : .sent v c.address e true ∈ tr.server) : .took e ∈ tr.client i := by
  obtain ⟨m, hm⟩ := Option.ne_none_iff_exists'.1 hc
  -- All that was said to the client was taken or waits, and nothing waits.
  have hsaid := order.ledger.said i c.link m (link_at found) hm
  have hnone : w.network.transport.broker.letters m = [] := h.pumped found hm
  rw [hnone, List.append_nil, allTook_eq] at hsaid
  have hmem : e ∈ Transit.allSaid tr.transits c.address := mem_allSaid.2 (mem_said.2 ⟨v, he⟩)
  have htaken : e ∈ (tr.client i).taken := by
    rw [← hsaid]
    exact hmem
  obtain ⟨x, hx, heq⟩ := List.mem_filterMap.1 htaken
  cases x with
  | took e' =>
    obtain rfl := Option.some.inj heq
    exact hx
  | _ => cases heq

/-- At rest a client has taken every message the server got through to it. -/
theorem AtRest.heard_all (h : w.AtRest s) (order : InOrder config p tr w s)
    (found : w.clients[i]? = some c) (hc : c.inbox ≠ none) :
    (tr.client i).messages = tr.server.acceptedFor c.address := by
  obtain ⟨m, hm⟩ := Option.ne_none_iff_exists'.1 hc
  have hsaid := order.ledger.said i c.link m (link_at found) hm
  have hnone : w.network.transport.broker.letters m = [] := h.pumped found hm
  rw [hnone, List.append_nil] at hsaid
  rw [messages_eq, acceptedFor_eq, ← allTook_eq, ← hsaid]
  rfl

/-- A legible envelope taken is a message received. -/
private theorem message_of_took {tr : ClientTrace} {e : Envelope} (he : .took e ∈ tr)
    {m : ServerMessage}
    (hm : e.serverMessage? = some m) : m ∈ tr.messages :=
  List.mem_filterMap.2 ⟨_, he, hm⟩

/-- A message received was an envelope taken. -/
theorem took_of_message {tr : ClientTrace} {m : ServerMessage} (hm : m ∈ tr.messages) :
    ∃ e, .took e ∈ tr ∧ e.serverMessage? = some m := by
  obtain ⟨x, hx, heq⟩ := List.mem_filterMap.1 hm
  cases x with
  | took e => exact ⟨e, hx, heq⟩
  | _ => cases heq

/-- What was introduced to a connected client is what the server handed over to it. -/
private theorem AtRest.made_iff (h : w.AtRest s) (order : InOrder config p tr w s)
    (found : w.clients[i]? = some c) (hc : c.inbox ≠ none) {id : StreamId} :
    id ∈ (tr.client i).made ↔
      ∃ v e, .sent v c.address e true ∈ tr.server ∧ id ∈ e.introduces := by
  constructor
  · exact order.of_made found
  · rintro ⟨v, e, he, hid⟩
    -- At rest everything that was sent to this client has been taken by it.
    have htook := h.took order found hc he
    unfold Envelope.introduces at hid
    cases hm : e.serverMessage? with
    | none => simp [hm] at hid
    | some m =>
      rw [hm] at hid
      exact List.mem_flatMap.2 ⟨m, message_of_took htook hm, hid⟩

/-- What a client says it has closed crosses the transport. -/
private theorem posted_of_told {ids : List StreamId} {e : Envelope} {accepted : Bool}
    (h : .told ids e accepted ∈ tr.client i) : .posted i e accepted ∈ tr.transits :=
  List.mem_filterMap.2 ⟨_, mem_client.1 h, rfl⟩

/-- What the server heard to be not wanted any more, its client said. -/
theorem InOrder.parted_of_closed (order : InOrder config p tr w s) (run : Run config w₀ tr w)
    (few : s.mux.numbered ≤ 2 ^ 64) (found : w.clients[i]? = some c) {id : StreamId}
    (made : id ∈ (tr.client i).made) {ids : List StreamId} (closed : .closed ids ∈ tr.server)
    (hid : id ∈ ids) : id ∈ (tr.client i).parted := by
  obtain ⟨-, st₀, fresh, srun⟩ := run.stage order.alone.one
  -- Some client said it, and this stream had been introduced to that one.
  obtain ⟨j, c', e, found', htold⟩ := run.of_closed closed
  obtain ⟨v, e₁, h₁, hid₁⟩ := order.of_made found made
  obtain ⟨v', e₂, h₂, hid₂⟩ := order.of_made found' (run.made_of_told found' htold hid)
  -- One message carries the stream, so the client that parted with it is this one.
  have heq := srun.eq_of_carried fresh few h₁ h₂ hid₁ hid₂
  obtain ⟨-, haddress, -, -⟩ := ServerEvent.sent.inj heq
  obtain rfl := order.wired.index (link_at found) (link_at found') haddress
  exact List.mem_flatMap.2 ⟨_, htold, hid⟩

/-- What the server heard to be not wanted any more is what clients said. -/
private theorem AtRest.parted_iff (h : w.AtRest s) (run : Run config w₀ tr w)
    (order : InOrder config p tr w s) (few : s.mux.numbered ≤ 2 ^ 64)
    (short : ∀ x ∈ tr, x.short = true) (found : w.clients[i]? = some c) {id : StreamId}
    (made : id ∈ (tr.client i).made) :
    id ∈ (tr.client i).parted ↔ ∃ ids, .closed ids ∈ tr.server ∧ id ∈ ids := by
  obtain ⟨-, st₀, fresh, srun⟩ := run.stage order.alone.one
  constructor
  · intro hparted
    obtain ⟨x, hx, hid⟩ := List.mem_flatMap.1 hparted
    have hshort := short _ (mem_client.1 hx)
    cases x with
    | told ids e accepted =>
      have hposted := posted_of_told hx
      cases accepted with
      -- What the server's queue did not take was too large, and nothing was.
      | false =>
        obtain ⟨err, herr⟩ := order.ledger.unposted i e hposted
        exact absurd hshort (not_short_of_error herr)
      | true =>
        -- Nothing waits at the server, so it has served what it was told.
        have hall : e ∈ Transit.allPosted tr.transits := List.mem_filterMap.2 ⟨_, hposted, rfl⟩
        have hnone : w.network.transport.broker.letters p.inbox = [] := h.served order
        rw [order.ledger.posted, hnone, List.append_nil] at hall
        have hserved := mem_served.1 (mem_allServed.1 hall)
        obtain ⟨c₀, _, _, _, _, -, up, crun⟩ := run.clients.1 i c found
        have hmeans : (ClientMessage.closed ids).toEnvelope = .ok e :=
          crun.means (Client.fresh_of_connect up) _ hx
        exact ⟨ids, srun.closed_of_served hserved (ClientMessage.ofEnvelope_toEnvelope hmeans), hid⟩
    | untold ids => cases hshort
    | _ => cases hid
  · rintro ⟨ids, hclosed, hid⟩
    exact order.parted_of_closed run few found made hclosed hid

/-- The failure sent in the place of a value that cannot be written is short. -/
private theorem unwritable_fits :
    (Wire.Item.variant "error" (Failure.unwritable "observation" .nestingTooDeep).toItem).Fits := by
  simp only [Failure.toItem, Wire.Item.Fits]
  decide +kernel

/-- What is short can be said. -/
private theorem sayable_of_short (id : StreamId) {x : ServerEvent}
    (h : (WorldEvent.server x).short = true) :
    x.sayable id = true := by
  cases x with
  | sent w client e accepted => exact h
  | unwritable w client m err =>
    -- The notice that replaces the item names a short tag and always fits.
    obtain rfl : err = .nestingTooDeep := of_decide_eq_true h
    have fits := ServerMessage.observation_toEnvelope id
      (.error (.unwritable "observation" .nestingTooDeep)) unwritable_fits (by rintro u ⟨⟩)
    rw [ServerEvent.sayable, fits]
    rfl
  | _ => rfl

/-- When the server has stopped passing on a stream, a connected client has heard of its end, unless
    some length in what there was to say was too large. -/
theorem AtRest.told_of_finished (h : w.AtRest s) (run : Run config w₀ tr w)
    (order : InOrder config p tr w s) (few : s.mux.numbered ≤ 2 ^ 64)
    (found : w.clients[i]? = some c) (hc : c.inbox ≠ none) {id : StreamId}
    (made : id ∈ (tr.client i).made) {n : Nat} (finished : .finished n id ∈ tr.server)
    (sayable : ∀ x ∈ tr.server.of (.forwarding n), x.sayable id = true) :
    ∃ event ∈ observations (tr.client i).messages id, event.terminal = true := by
  obtain ⟨-, st₀, fresh, srun⟩ := run.stage order.alone.one
  obtain ⟨v, e, hsent, hide⟩ := order.of_made found made
  obtain ⟨sub, rfl, hover⟩ := srun.of_finished fresh few finished hsent hide
  -- The end was put on the queue, or could not be put there, or could not be written.
  rcases hover with ⟨e', event, hs, hw, last⟩ | ⟨e', hs⟩ | ⟨m, err, err', hs, hw⟩
  · have htook := h.took order found hc hs
    exact ⟨event, mem_observations.2 (message_of_took htook (ServerMessage.serverMessage_of hw)),
      last⟩
  -- A queue that is read refuses only what is too large.
  · obtain ⟨err, herr⟩ := order.ledger.refused c.link (List.mem_of_getElem? (link_at found)) hc
      e' (mem_said.2 ⟨_, hs⟩)
    exact absurd (sayable _ (ServerTrace.mem_of.2 ⟨hs, rfl⟩)) (not_short_of_error herr)
  -- The failure that takes its place could be written, by hypothesis.
  · have hsayable := sayable _ (ServerTrace.mem_of.2 ⟨hs, rfl⟩)
    rw [ServerEvent.sayable, hw] at hsayable
    cases hsayable

/-- What a connected client heard to be over is what the server has stopped passing on. -/
private theorem AtRest.over_iff (h : w.AtRest s) (run : Run config w₀ tr w)
    (order : InOrder config p tr w s) (few : s.mux.numbered ≤ 2 ^ 64)
    (short : ∀ x ∈ tr, x.short = true) (found : w.clients[i]? = some c) (hc : c.inbox ≠ none)
    {id : StreamId} (made : id ∈ (tr.client i).made) :
    (∃ n, .finished n id ∈ tr.server) ↔
      ∃ event ∈ observations (tr.client i).messages id, event.terminal = true := by
  obtain ⟨-, st₀, fresh, srun⟩ := run.stage order.alone.one
  constructor
  · rintro ⟨n, hfinished⟩
    -- Short messages can be said, so a task that finished has told the client of the end.
    refine h.told_of_finished run order few found hc made hfinished fun x hx => ?_
    exact sayable_of_short id (short _ (mem_server.1 (ServerTrace.mem_of.1 hx).1))
  · rintro ⟨event, hevent, last⟩
    obtain ⟨e, htook, he⟩ := took_of_message (mem_observations.1 hevent)
    obtain ⟨v, hsent⟩ := order.of_took found htook
    exact srun.finished_of_told fresh h.work hsent he last

/-! ## Who has which streams -/

/-- The queue of a client that is connected is there. -/
theorem InOrder.present (order : InOrder config p tr w s) (found : w.clients[i]? = some c)
    (hc : c.inbox ≠ none) : .departed c.address ∉ tr.server := by
  obtain ⟨m, hm⟩ := Option.ne_none_iff_exists'.1 hc
  have hlink := order.wired.link c.link (List.mem_of_getElem? (link_at found))
  intro hdeparted
  exact order.ledger.not_departed order.wired (hlink.reads m hm).queue (mem_departed.2 hdeparted)

/-- For a client that is connected, the streams that are active are those that are open. -/
private theorem AtRest.connected (h : w.AtRest s) (run : Run config w₀ tr w)
    (order : InOrder config p tr w s) (few : s.mux.numbered ≤ 2 ^ 64)
    (short : ∀ x ∈ tr, x.short = true) (found : w.clients[i]? = some c) (hc : c.connected = true)
    (id : StreamId) : s.mux.owner id = some c.address ↔ c.demux.isOpen id = true := by
  obtain ⟨-, st₀, fresh, srun⟩ := run.stage order.alone.one
  have session := run.clients.1 i c found
  obtain ⟨hinbox, hclosing⟩ := session.connected hc
  obtain ⟨c₀, _, _, _, _, -, up, crun⟩ := session
  have orderly := run.orderly order.alone.one few found
  -- At the server: active means introduced, not given up and not finished.
  have howner : s.mux.owner id = some c.address ↔ _ :=
    srun.owner_iff fresh few h.work (order.present found hinbox) run.not_withdrawn
      (fun pre ids post => run.timely) id
  -- At the client: open means introduced, without an end and not parted with.
  have hbooks := crun.books (Client.fresh_of_connect up) orderly hc id
  rw [h.released found hclosing, List.append_nil] at hbooks
  rw [howner, hbooks, ← h.made_iff order found hinbox]
  -- The two agree part by part.
  refine and_congr_right fun hmade => ?_
  have hparted := h.parted_iff run order few short found hmade
  have hover := h.over_iff run order few short found hinbox hmade
  constructor
  · rintro ⟨hclosed, hfinished⟩
    refine ⟨fun event hevent => ?_, fun hp => ?_⟩
    · by_contra hlast
      obtain ⟨n, hn⟩ := hover.2 ⟨event, hevent, by simpa using hlast⟩
      exact hfinished n hn
    · obtain ⟨ids, hids, hid⟩ := hparted.1 hp
      exact hclosed ids hids hid
  · rintro ⟨hplain, hp⟩
    refine ⟨fun ids hids hid => hp (hparted.2 ⟨ids, hids, hid⟩), fun n hn => ?_⟩
    obtain ⟨event, hevent, hlast⟩ := hover.1 ⟨n, hn⟩
    rw [hplain event hevent] at hlast
    cases hlast

/-- Nothing is put on a reply queue once the server heard that it is gone. -/
private theorem InOrder.silent (order : InOrder config p tr w s) {a : String}
    {pre post : ServerTrace}
    (h : tr.server = pre ++ .departed a :: post) (v : Worker) (e : Envelope) :
    .sent v a e true ∉ post := by
  -- The departure as an entry of the whole log, which says nothing to this address after it.
  obtain ⟨tr₁, tr₂, htr, -, h₂⟩ := List.filterMap_eq_append_iff.1 h
  obtain ⟨front, x, back, rfl, -, hx, hback⟩ := List.filterMap_eq_cons_iff.1 h₂
  obtain rfl : x = .server (.departed a) := by
    cases x with
    | server y => exact congrArg _ (Option.some.inj hx)
    | client j y => cases hx
  intro hsent
  have hmem : .server (.sent v a e true) ∈ back := mem_server.1 (by
    show _ ∈ back.filterMap _
    rw [hback]
    exact hsent)
  have hlog : tr.transits = (WorldTrace.transits tr₁ ++ WorldTrace.transits front) ++
      .departed a :: WorldTrace.transits back := by
    simp [htr, WorldTrace.transits, WorldEvent.transit?, ServerEvent.transit?]
  exact order.ledger.last _ a _ hlog e (List.mem_filterMap.2 ⟨_, hmem, rfl⟩)

/-- For a client that is gone, nothing is active. -/
private theorem AtRest.gone (h : w.AtRest s) (run : Run config w₀ tr w)
    (order : InOrder config p tr w s)
    (few : s.mux.numbered ≤ 2 ^ 64) (found : w.clients[i]? = some c) (hc : c.held = false)
    (id : StreamId) : s.mux.owner id ≠ some c.address := by
  obtain ⟨-, st₀, fresh, srun⟩ := run.stage order.alone.one
  have hmem := List.mem_of_getElem? (link_at found)
  have hlink := order.wired.link c.link hmem
  -- The queue of a client that is gone was deleted, since no clean-up is left.
  have hqueue : w.transport.broker.queues[c.address]? = none := by
    refine (hlink.left (hlink.held.1 hc)).resolve_right fun hcleanup => ?_
    have : w.network.cleanups = [] := h.tidy
    rw [this] at hcleanup
    cases hcleanup
  -- The watcher was told, and the server has heard all that it was told.
  have hgone : .departed c.address ∈ tr.server := by
    obtain ⟨x, hx, -, -⟩ := order.wired.watcher
    have hall := (order.ledger.departed x hx c.address).2 ⟨⟨c.link, hmem, rfl⟩, hqueue⟩
    rw [h.heard order hx, List.append_nil] at hall
    exact mem_departed.1 (mem_allDeparted.1 hall)
  exact srun.not_owner fresh few h.work hgone (fun pre post heq => order.silent heq) id

/-- Of every run of a server and its clients, once everything has been taken in: the streams that are
    active for a client that is connected are those that are open there, and nothing is active for a
    client that was closed or dropped. -/
theorem streams_agree (run : Run config w₀ tr w) (hs : w.servers = [s]) (rest : w.AtRest s)
    (few : s.mux.numbered ≤ 2 ^ 64) (short : ∀ x ∈ tr, x.short = true) :
    (∀ c ∈ w.clients, c.connected = true → ∀ id,
        (s.mux.owner id = some c.address ↔ c.demux.isOpen id = true) ∧
          (id ∈ s.mux.tracker.ownedBy c.address ↔ c.demux.isOpen id = true)) ∧
      ∀ c ∈ w.clients, c.held = false → ∀ id,
        s.mux.owner id ≠ some c.address ∧ id ∉ s.mux.tracker.ownedBy c.address := by
  obtain ⟨order, st₀, fresh, srun⟩ := run.stage hs
  have sound : s.mux.Sound := (srun.sound fresh few).1
  constructor
  · intro c hc live id
    obtain ⟨i, found⟩ := List.mem_iff_getElem?.1 hc
    -- The index of the tracker says no more than its owners do.
    have howner := rest.connected run order few short found live id
    exact ⟨howner, (sound.mem_ownedBy id).trans howner⟩
  · intro c hc gone id
    obtain ⟨i, found⟩ := List.mem_iff_getElem?.1 hc
    have howner := rest.gone run order few found gone id
    exact ⟨howner, fun h => howner ((sound.mem_ownedBy id).1 h)⟩

/-! ## A run with two clients -/

namespace Lending

/-- A method that answers with a channel. -/
def router : Router :=
  .ofList [("open", fun _ => .ends (.returned (.stream .channel)))]

/-- A client asks for a channel, and takes it. -/
def ask (i n : Nat) : List Move :=
  [.submit i "open" [], .task (.serve 0)] ++ .replicate 6 (.task (.handle 0 n)) ++
    [.task (.pump i), .task (.pump i), .task (.call i)]

/-- Two clients have a channel each.  The first gets another one through its own, and gives the own
    one up; the second leaves. -/
def moves : List Move :=
  [.connect { name := "a" } 0, .connect { name := "b" } 1] ++ ask 0 0 ++ ask 1 2 ++
    [.publish ⟨0⟩ (.stream .channel)] ++ .replicate 6 (.task (.forward 0 1)) ++
    [.task (.pump 0), .read 0 ⟨0, ⟨0⟩⟩, .dropHandle 0 ⟨0, ⟨0⟩⟩, .task (.closer 0),
      .task (.serve 0), .close 1, .task (.departure 0)]

def played : WorldTrace × World :=
  (World.launched router).play {} [] moves

def server : Server :=
  played.2.servers[0]?.getD {}

/-- The plays make a run. -/
private theorem run : Run {} (World.launched router) played.1 played.2 :=
  play_run (.start (launch_launched router)) moves

/-- The server the run ends with. -/
private theorem servers_eq : played.2.servers = [server] := by
  obtain ⟨s, alone, -⟩ := run.server
  rw [server, alone.one]
  rfl

/-- What the run comes to.  It is one statement, so that the moves are made once. -/
private theorem at_rest_short :
    (played.2.clients.map fun c => (c.connected, c.held, c.demux.isOpen ⟨2⟩)) =
        [(true, true, true), (false, false, false)] ∧
      played.2.atRest server = true ∧ server.mux.numbered ≤ 2 ^ 64 ∧
      ∀ x ∈ played.1, x.short = true := by
  decide +kernel

end Lending

/-- The first client has the other channel, and the second has nothing. -/
theorem streams_agree_lending :
    (Lending.played.2.clients.map fun c => (c.connected, c.held, c.demux.isOpen ⟨2⟩)) =
        [(true, true, true), (false, false, false)] ∧
      (∀ c ∈ Lending.played.2.clients, c.connected = true → ∀ id,
        (Lending.server.mux.owner id = some c.address ↔ c.demux.isOpen id = true) ∧
          (id ∈ Lending.server.mux.tracker.ownedBy c.address ↔ c.demux.isOpen id = true)) ∧
      ∀ c ∈ Lending.played.2.clients, c.held = false → ∀ id,
        Lending.server.mux.owner id ≠ some c.address ∧
          id ∉ Lending.server.mux.tracker.ownedBy c.address := by
  obtain ⟨clients, rest, few, short⟩ := Lending.at_rest_short
  exact ⟨clients, streams_agree Lending.run Lending.servers_eq (atRest_of_check rest) few short⟩

end World

end StreamRpc
