import StreamRpc.Proofs.Server.Fates
import StreamRpc.Proofs.Server.Introduction
import StreamRpc.Proofs.World.InOrder

/-! # What gets from a server to its clients, and back

Clients take what the server sent to them, in order and from the start; so streams are introduced to
a client before it hears anything of them.  What the server hears to be not wanted any more, some
client said, and the streams had been introduced to that client.

* `World.Run.orderly`        what a client hears is in order
* `World.Run.of_closed`      who does not want streams any more
* `World.Run.timely`         nobody says so before the streams have numbers
-/

namespace StreamRpc

open Network

namespace World

variable {config : ServerConfig} {w₀ w w' : World} {tr es : WorldTrace} {s : Server} {p : Ports}

/-! ## The log and the traces -/

/-- What the transport heard said is what the server sent. -/
theorem mem_said {a : String} {e : Envelope} {accepted : Bool} :
    .said a e accepted ∈ tr.transits ↔ ∃ v, .sent v a e accepted ∈ tr.server := by
  constructor
  · intro h
    obtain ⟨x, hx, heq⟩ := List.mem_filterMap.1 h
    cases x with
    | server x =>
      -- Of the events of the server only a send becomes a transit of this kind.
      cases x with
      | sent v a' e' accepted' =>
        obtain ⟨rfl, rfl, rfl⟩ := Transit.said.inj (Option.some.inj heq)
        exact ⟨v, mem_server.2 hx⟩
      | _ => cases heq
    | client i x => cases x <;> cases heq
  · rintro ⟨v, h⟩
    exact List.mem_filterMap.2 ⟨_, mem_server.1 h, rfl⟩

/-- The departures on the transport are those the server heard of. -/
theorem mem_departed {a : String} : .departed a ∈ tr.transits ↔ .departed a ∈ tr.server := by
  constructor
  · intro h
    obtain ⟨x, hx, heq⟩ := List.mem_filterMap.1 h
    cases x with
    | server x =>
      cases x with
      | departed a' =>
        obtain rfl := Transit.departed.inj (Option.some.inj heq)
        exact mem_server.2 hx
      | _ => cases heq
    | client i x => cases x <;> cases heq
  · intro h
    exact List.mem_filterMap.2 ⟨_, mem_server.1 h, rfl⟩

/-- The envelopes served on the transport are those the server took in. -/
theorem mem_served {e : Envelope} : .served e ∈ tr.transits ↔ .served e ∈ tr.server := by
  constructor
  · intro h
    obtain ⟨x, hx, heq⟩ := List.mem_filterMap.1 h
    cases x with
    | server x =>
      cases x with
      | served e' =>
        obtain rfl := Transit.served.inj (Option.some.inj heq)
        exact mem_server.2 hx
      | _ => cases heq
    | client i x => cases x <;> cases heq
  · intro h
    exact List.mem_filterMap.2 ⟨_, mem_server.1 h, rfl⟩

/-- What got through to an address is what was said to it and accepted. -/
theorem mem_allSaid {log : List Transit} {a : String} {e : Envelope} :
    e ∈ Transit.allSaid log a ↔ .said a e true ∈ log := by
  constructor
  · intro h
    obtain ⟨x, hx, heq⟩ := List.mem_filterMap.1 h
    cases x with
    | said b e' accepted =>
      cases accepted with
      | false => cases heq
      | true =>
        simp only [Transit.said?] at heq
        -- What was refused, or said to somebody else, does not count.
        split at heq
        · next hb =>
          obtain rfl := Option.some.inj heq
          rwa [← hb]
        · cases heq
    | _ => cases heq
  · exact fun h => List.mem_filterMap.2 ⟨_, h, by simp [Transit.said?]⟩

/-- What a client took off the transport is what its own trace took. -/
theorem allTook_eq (tr : WorldTrace) (i : Nat) :
    Transit.allTook tr.transits i = (tr.client i).taken := by
  rw [Transit.allTook, WorldTrace.transits, List.filterMap_filterMap, ClientTrace.taken,
    WorldTrace.client, List.filterMap_filterMap]
  congr 1
  funext x
  cases x with
  | server x => cases x <;> rfl
  | client j x =>
    -- What another client takes is left out on both sides.
    by_cases hij : j = i
    · cases x <;> simp [WorldEvent.transit?, WorldEvent.client?, ClientEvent.transit?,
        ClientEvent.taken?, Transit.took?, hij]
    · cases x <;> simp [WorldEvent.transit?, WorldEvent.client?, ClientEvent.transit?,
        Transit.took?, hij]

/-- A client's messages are the legible ones of the envelopes it took. -/
theorem messages_eq (tr : ClientTrace) : tr.messages = tr.taken.filterMap (·.serverMessage?) := by
  rw [ClientTrace.messages, ClientTrace.taken, List.filterMap_filterMap]
  congr 1
  funext x
  cases x <;> rfl

/-- The messages a server got through to an address are the legible ones of the envelopes accepted
for it. -/
theorem acceptedFor_eq (tr : WorldTrace) (a : String) :
    tr.server.acceptedFor a = (Transit.allSaid tr.transits a).filterMap (·.serverMessage?) := by
  rw [ServerTrace.acceptedFor, WorldTrace.server, List.filterMap_filterMap, Transit.allSaid,
    WorldTrace.transits, List.filterMap_filterMap, List.filterMap_filterMap]
  congr 1
  funext x
  cases x with
  | server x =>
    cases x with
    | sent v b e accepted =>
      cases accepted with
      | false => rfl
      | true =>
        -- What is sent to another address is left out on both sides.
        by_cases hb : b = a <;> simp [WorldEvent.server?, WorldEvent.transit?,
          ServerEvent.transit?, ServerEvent.acceptedFor?, Transit.said?, hb]
    | _ => rfl
  | client i x => cases x <;> rfl

/-! ## From the server to its clients -/

/-- A stage that was launched and then ran has run from a fresh one. -/
private theorem Launched.told {config : ServerConfig} {tr : ServerTrace} {st : Stage}
    (h : Launched config tr st) : ∃ st₀, st₀.Fresh ∧ Stage.Run st₀ tr st := by
  obtain ⟨router, t, s, t', up, run⟩ := h
  exact ⟨_, Server.fresh_of_launch up {}, run⟩

/-- A world has one server, which has been running, and is in order. -/
theorem Run.stage (run : Run config w₀ tr w) (hs : w.servers = [s]) :
    InOrder config (portsOf config) tr w s ∧
      ∃ st₀, st₀.Fresh ∧ Stage.Run st₀ tr.server (w.stage s) := by
  obtain ⟨s₁, h₁⟩ := run.inOrder
  obtain ⟨s₂, alone, launched⟩ := run.server
  obtain rfl := List.singleton_inj.1 (h₁.alone.one.symm.trans hs)
  obtain rfl := List.singleton_inj.1 (alone.one.symm.trans hs)
  exact ⟨h₁, launched.told⟩

/-- What a client has heard is the first of what its queue took. -/
theorem InOrder.heard (h : InOrder config p tr w s) {i : Nat} {c : Client}
    (found : w.clients[i]? = some c) :
    (tr.client i).messages <+: tr.server.acceptedFor c.address := by
  rw [messages_eq, acceptedFor_eq, ← allTook_eq]
  exact (h.ledger.took i c.link (link_at found)).filterMap _

/-- What a client took off its queue, the server had put there. -/
theorem InOrder.of_took (h : InOrder config p tr w s) {i : Nat} {c : Client}
    (found : w.clients[i]? = some c) {e : Envelope} (he : .took e ∈ tr.client i) :
    ∃ v, .sent v c.address e true ∈ tr.server := by
  have hmem : e ∈ Transit.allTook tr.transits i := by
    rw [allTook_eq]
    exact List.mem_filterMap.2 ⟨_, he, rfl⟩
  exact mem_said.1 (mem_allSaid.1 ((h.ledger.took i c.link (link_at found)).subset hmem))

/-- What was accepted for one address is part of what was accepted. -/
private theorem acceptedFor_sublist (tr : ServerTrace) (a : String) :
    (tr.acceptedFor a).Sublist tr.accepted := by
  induction tr with
  | nil => exact .slnil
  | cons x tr ih =>
    rw [ServerTrace.acceptedFor, ServerTrace.accepted, List.filterMap_cons, List.filterMap_cons]
    -- What one client's queue accepted is accepted; what another's did may be skipped.
    cases hx : x.acceptedFor? a with
    | none =>
      cases x.accepted? with
      | none => exact ih
      | some m => exact ih.cons m
    | some m =>
      obtain ⟨w, e, rfl, he⟩ := acceptedFor_eq_some hx
      have haccepted : ServerEvent.accepted? (.sent w a e true) = some m := he
      rw [haccepted]
      exact ih.cons_cons m

/-- What a client hears is in order. -/
theorem Run.orderly (run : Run config w₀ tr w) (hs : w.servers = [s])
    (few : s.mux.numbered ≤ 2 ^ 64) {i : Nat} {c : Client} (found : w.clients[i]? = some c) :
    Orderly (tr.client i).messages := by
  obtain ⟨order, st₀, fresh, srun⟩ := run.stage hs
  obtain ⟨more, hmore⟩ := order.heard found
  -- The server hands a stream over once, and tells of it only afterwards; a prefix of this is what
  -- the client heard.
  have hall : Orderly (tr.server.acceptedFor c.address) := by
    refine ⟨?_, fun pre id event post hms => ?_⟩
    · exact ((acceptedFor_sublist _ _).flatMap _).nodup (srun.nodup_introduced fresh few)
    · obtain ⟨m, hm, hid⟩ := srun.observed_after_introduced fresh hms
      exact List.mem_flatMap.2 ⟨m, hm, hid⟩
  rw [← hmore] at hall
  exact hall.of_append

/-! ## From the clients to the server -/

/-- A step in which the server hears nothing withdraws nothing. -/
private theorem not_withdrawn_of_heard {es : ServerTrace} (h : ∀ x ∈ es, x.heard = false)
    (id : StreamId) : .withdrawn id ∉ es := fun hmem => by
  have := h _ hmem
  cases this

/-- No task withdraws anything by itself. -/
private theorem not_withdrawn_events (w : World) (t : Task) (id : StreamId) :
    .withdrawn id ∉ (w.events t).server := by
  -- Only the tasks of the server tell anything of it.
  have hserver : ∀ (k : Nat) (told : Stage → ServerTrace), (∀ st, .withdrawn id ∉ told st) →
      .withdrawn id ∉ (w.serverEvents k told).server := by
    intro k told htold
    unfold serverEvents
    cases w.stage? k with
    | none => exact List.not_mem_nil
    | some st =>
      rw [Option.elim, WorldTrace.server_map_server]
      exact htold st
  cases t with
  | closer i => simp [events]
  | pump i => simp [events]
  | watch i => exact List.not_mem_nil
  | call n => simp [events, server_callEvents]
  | cleanup => exact List.not_mem_nil
  | serve k =>
    refine hserver k _ fun st => ?_
    unfold Stage.serveEvents Stage.acceptEvents
    split
    · split <;> simp
    · simp
  | departure k =>
    refine hserver k _ fun st => ?_
    unfold Stage.departEvents
    split <;> simp
  -- What an answer or a stream tells is never that it heard something.
  | handle k n =>
    refine hserver k _ fun st => ?_
    cases st.server.handlings[n]? with
    | none => exact List.not_mem_nil
    | some h => exact not_withdrawn_of_heard (Stage.heard_handling st n h) id
  | forward k n =>
    refine hserver k _ fun st => ?_
    cases st.server.forwardings[n]? with
    | none => exact List.not_mem_nil
    | some f => exact not_withdrawn_of_heard (Stage.heard_forwarding st n f) id

/-- Nothing is retired from outside. -/
theorem Run.not_withdrawn (run : Run config w₀ tr w) (id : StreamId) :
    .withdrawn id ∉ tr.server := by
  induction run with
  | start up => exact List.not_mem_nil
  | @step tr es w w' run next ih =>
    rw [WorldTrace.server_append, List.mem_append, not_or]
    refine ⟨ih, ?_⟩
    -- Only a retirement from outside withdraws a stream, and no move of a world makes one.
    cases next with
    | task go => exact not_withdrawn_events w _ id
    | submit found method args => simp
    | read given max? =>
      simp [WorldTrace.server, List.filterMap_map, Function.comp_def, WorldEvent.server?]
    | _ => exact List.not_mem_nil

/-- What the server hears to be not wanted any more, some client said. -/
theorem Run.of_closed (run : Run config w₀ tr w) {ids : List StreamId}
    (h : .closed ids ∈ tr.server) :
    ∃ i c e, w.clients[i]? = some c ∧ .told ids e true ∈ tr.client i := by
  obtain ⟨s, alone, -⟩ := run.server
  obtain ⟨order, st₀, fresh, srun⟩ := run.stage alone.one
  obtain ⟨e, hserved, he⟩ := srun.of_closed h
  obtain ⟨i, c, found, ⟨id, method, args, -, hw⟩ | ⟨ids', htold, hw⟩⟩ :=
    run.of_served order.ledger hserved
  -- A request is no cancellation.
  · rw [ClientMessage.ofEnvelope_toEnvelope hw] at he
    cases Except.ok.inj he
  · rw [ClientMessage.ofEnvelope_toEnvelope hw] at he
    obtain rfl := ClientMessage.closed.inj (Except.ok.inj he)
    exact ⟨i, c, e, found, htold⟩

/-- A handle was made for an id some envelope taken introduces. -/
private theorem took_of_made {tr : ClientTrace} {id : StreamId} (h : id ∈ tr.made) :
    ∃ e, .took e ∈ tr ∧ id ∈ e.introduces := by
  obtain ⟨m, hm, hid⟩ := List.mem_flatMap.1 h
  obtain ⟨x, hx, hmessage⟩ := List.mem_filterMap.1 hm
  -- Handles are made by what the client takes from its queue, and by nothing else.
  cases x with
  | took e =>
    refine ⟨e, hx, ?_⟩
    have he : e.serverMessage? = some m := hmessage
    rw [Envelope.introduces, he]
    exact hid
  | _ => cases hmessage

/-- What was introduced to a client, the server had handed over to it. -/
theorem InOrder.of_made (h : InOrder config p tr w s) {i : Nat} {c : Client}
    (found : w.clients[i]? = some c) {id : StreamId} (hid : id ∈ (tr.client i).made) :
    ∃ v e, .sent v c.address e true ∈ tr.server ∧ id ∈ e.introduces := by
  obtain ⟨e, he, hide⟩ := took_of_made hid
  obtain ⟨v, hv⟩ := h.of_took found he
  exact ⟨v, e, hv, hide⟩

/-- What a client no longer wants was introduced to it. -/
theorem Run.made_of_told (run : Run config w₀ tr w) {i : Nat} {c : Client}
    (found : w.clients[i]? = some c) {ids : List StreamId} {e : Envelope} {accepted : Bool}
    (h : .told ids e accepted ∈ tr.client i) {id : StreamId} (hid : id ∈ ids) :
    id ∈ (tr.client i).made :=
  (run.clients.1 i c found).holds.parted id (List.mem_flatMap.2 ⟨_, h, hid⟩)

/-- Nobody says that streams are not wanted any more before they have numbers. -/
theorem Run.timely (run : Run config w₀ tr w) {pre post : ServerTrace} {ids : List StreamId}
    (h : tr.server = pre ++ .closed ids :: post) : ∀ id ∈ ids, id ∈ ServerTrace.numbers pre := by
  induction run generalizing pre post with
  | start up =>
    have : [] = pre ++ ServerEvent.closed ids :: post := h
    simp at this
  | @step tr es w w' run next ih =>
    rw [WorldTrace.server_append] at h
    rcases append_eq_cases h with ⟨mid, htr, -⟩ | ⟨mid, rfl, hes⟩
    -- It was heard of before this step.
    · exact ih htr
    · -- The step has the server hear of it, and gives no numbers.
      obtain ⟨s, alone, -⟩ := run.server
      obtain ⟨s', alone', sstep⟩ := next.server alone
      have hmem : .closed ids ∈ es.server := by simp [hes]
      have hmem' : .closed ids ∈ (tr ++ es).server := by
        rw [WorldTrace.server_append]
        exact List.mem_append_right _ hmem
      -- Whoever said it was told of the stream, so the stream had its number, and the step did not
      -- give it.
      obtain ⟨e, hes', -⟩ := sstep.of_closed hmem
      intro id hid
      obtain ⟨i, c, e', found, htold⟩ := (run.step next).of_closed hmem'
      have hmade := (run.step next).made_of_told found htold hid
      obtain ⟨order, st₀, fresh, srun⟩ := (run.step next).stage alone'.one
      obtain ⟨v, e'', hsent, hide⟩ := order.of_made found hmade
      have hnumbers := srun.used fresh hsent
        (List.mem_append_left _ (List.mem_append_left _ hide))
      rw [WorldTrace.server_append, ServerTrace.numbers_append, hes'] at hnumbers
      rw [ServerTrace.numbers_append]
      refine List.mem_append_left _ ?_
      simpa [ServerTrace.numbers, ServerEvent.numbers] using hnumbers

end World

end StreamRpc
