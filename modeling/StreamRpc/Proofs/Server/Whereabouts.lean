import StreamRpc.Proofs.Server.Endings
import StreamRpc.Proofs.Server.Introduction

/-! # Every active stream has an owner

A stream that has a number is with the task that gave it the number until its message is sent; then
it has a task of its own, or it is retired.  A stream that is with neither is not active, and its
source is dropped when it leaves the last of them.

* `Stage.Told.placed`               where the streams are that a task gave numbers to
* `Stage.Run.owned_of_active`       an active stream is with one of its owners
* `Stage.Run.inactive_of_dropped`   a stream that was given up is not active again
* `streams_have_owners`             these, of every run, and what an owner leaves behind
-/

namespace StreamRpc

/-! ## Streams on their way -/

/-- The streams that an answer has numbers for and that have no tasks yet. -/
def Reply.held : Reply → List Subscription
  | answered _ => []
  | exposed _ subs => subs
  | encoded _ subs => subs
  | accepted subs => subs
  | refused _ subs => subs

/-- The streams that an answer holds. -/
def Handling.Phase.held : Handling.Phase → List Subscription
  | replying r => r.held
  | _ => []

/-- The streams that an item has numbers for and that have no tasks yet. -/
def Forwarding.Phase.held : Forwarding.Phase → List Subscription
  | exposed _ nested => nested
  | encoded _ _ nested => nested
  | accepted _ nested => nested
  | refused nested => nested
  | _ => []

/-- Each stream with a number was started or given up, or is one of these. -/
def Placed (L : ServerTrace) (rest : List StreamId) : Prop :=
  ∀ id ∈ L.numbers, id ∈ L.starts ∨ id ∈ L.drops ∨ id ∈ rest

/-- Where the streams are stays known when no more get numbers. -/
private theorem Placed.append {L es : ServerTrace} {rest : List StreamId} (h : Placed L rest)
    (idle : es.numbers = []) : Placed (L ++ es) rest := by
  intro id hid
  rw [ServerTrace.numbers_append, idle, List.append_nil] at hid
  rw [ServerTrace.starts_append, ServerTrace.drops_append]
  rcases h id hid with h | h | h
  · exact .inl (List.mem_append_left _ h)
  · exact .inr (.inl (List.mem_append_left _ h))
  · exact .inr (.inr h)

/-- What was started or given up need not be looked for. -/
private theorem Placed.forget {L : ServerTrace} {rest : List StreamId} (h : Placed L rest)
    (seen : ∀ id ∈ rest, id ∈ L.starts ∨ id ∈ L.drops) : Placed L [] := by
  intro id hid
  rcases h id hid with h | h | h
  · exact .inl h
  · exact .inr (.inl h)
  · exact (seen id h).imp_right .inl

/-- A task that has seen to what was carried has only the rest of its numbers left. -/
private theorem placed_of_carried {L : ServerTrace} {rest : List StreamId}
    (numbers : L.numbers = L.carried ++ rest) (starts : L.starts = L.handed)
    (drops : L.drops = L.lost) : Placed L rest := by
  intro id hid
  -- A stream that was numbered has been carried off or is still held.
  rw [numbers] at hid
  rcases List.mem_append.1 hid with hid | hid
  · obtain ⟨x, hx, hid⟩ := List.mem_flatMap.1 hid
    rcases x.carried_cases hid with h | h
    · refine .inl ?_
      rw [starts]
      exact List.mem_flatMap.2 ⟨x, hx, h⟩
    · refine .inr (.inl ?_)
      rw [drops]
      exact List.mem_flatMap.2 ⟨x, hx, h⟩
  · exact .inr (.inr hid)

/-- Where everything is settled no stream is left to be placed. -/
private theorem Settled.placed {L : ServerTrace} (h : Settled L) : Placed L [] :=
  placed_of_carried (by rw [h.numbers, List.append_nil]) h.starts h.drops

/-- Where no stream got a number there is none to be placed. -/
private theorem placed_of_unnumbered {L : ServerTrace} (none : L.numbers = [])
    (rest : List StreamId) :
    Placed L rest := by
  intro id hid
  rw [none] at hid
  cases hid

namespace Handling

variable {n : Nat} {r : Request} {L : ServerTrace}

/-- The streams of a request are where they went, or in its reply. -/
private theorem Loaded.placed {wire : Except Failure WireValue} {subs : List Subscription}
    (h : Loaded n r L wire subs) : Placed L (subs.map (·.id)) := by
  obtain ⟨hnumbers, hcarried, hstarts, -⟩ := h.tally
  obtain ⟨hhanded, hlost, hdrops⟩ := h.fates
  refine placed_of_carried ?_ (hstarts.trans hhanded.symm) (hdrops.trans hlost.symm)
  rw [hnumbers, hcarried, List.nil_append]

/-- The streams of a request that has written its reply are where they went, or in that. -/
private theorem Written.placed {e : Envelope} {subs : List Subscription}
    (h : Written n r L e subs) :
    Placed L (subs.map (·.id)) := by
  obtain ⟨hnumbers, hstarts, -⟩ := h.tally
  obtain ⟨hhanded, hdrops⟩ := h.fates
  exact placed_of_carried hnumbers (hstarts.trans hhanded.symm) hdrops

/-- The streams in an answer are with the request until they are started or given up. -/
private theorem Story.placed {phase : Option Phase} (h : Story n r phase L) :
    Placed L ((phase.elim [] Phase.held).map (·.id)) := by
  -- What is neither started nor dropped is in the phase the handler is in.
  cases h with
  | received => exact placed_of_unnumbered rfl _
  | running => exact placed_of_unnumbered rfl _
  | sleeping => exact placed_of_unnumbered rfl _
  | answered h => exact placed_of_unnumbered h.tally.1 _
  | exposed h => exact h.placed
  | encoded h => exact h.placed
  | accepted h => exact h.placed.append rfl
  | refused h => exact h.placed.append rfl
  | done h => exact ((Story.done h).settled nofun).placed
  | failed h => exact ((Story.failed h).settled nofun).placed
  | lost h refused => exact ((Story.lost h refused).settled nofun).placed

end Handling

namespace Forwarding

variable {n : Nat} {client : String} {sub : Subscription} {L : ServerTrace}

/-- The streams of a stream's items are where they went, or in the observation at hand. -/
private theorem Loaded.placed {ps : List (ServerValue × WireValue)}
    {event : Notification ServerValue}
    {wire : Notification WireValue} {nested : List Subscription}
    (h : Loaded n client sub L ps event wire nested) : Placed L (nested.map (·.id)) := by
  obtain ⟨hnumbers, -, -⟩ := h.tally
  obtain ⟨hstarts, hdrops⟩ := h.fates
  exact placed_of_carried hnumbers hstarts hdrops

/-- The streams in items are with the task that passes the items on until they are started or given
    up. -/
theorem Story.placed {phase : Option Phase} (h : Story n client sub phase L) :
    Placed L ((phase.elim [] Phase.held).map (·.id)) := by
  cases h with
  | waiting h => exact h.settled.placed
  | pulled h => exact h.settled.placed.append rfl
  | cleared h => exact h.settled.placed.append rfl
  | exposed h => exact h.placed
  | encoded h written => exact h.placed
  | accepted h written => exact h.placed.append rfl
  | refused h written => exact h.placed.append rfl
  | failing h refused =>
    -- The streams in an item that cannot be written are given up before the failure is told.
    refine (h.placed.append rfl).forget fun id hid => .inr ?_
    rw [ServerTrace.drops_append]
    exact List.mem_append_right _ (by simpa [ServerEvent.drops] using hid)
  | closing h => exact h.settled.placed
  | done h => exact h.settled.placed.append rfl
  | stopped h => exact h.settled.placed
  | halted h => exact h.settled.placed.append rfl

end Forwarding

/-! ## Who has a stream -/

namespace Stage

/-- An answer or an item that is on its way to a client holds these streams. -/
inductive Holding (st : Stage) (client : String) (subs : List Subscription) : Prop where
  | answer {n : Nat} {h : Handling} (found : st.server.handlings[n]? = some h)
      (same : h.client = client) (held : h.phase.held = subs) : Holding st client subs
  | item {n : Nat} {f : Forwarding} (found : st.server.forwardings[n]? = some f)
      (same : f.client = client) (held : f.phase.held = subs) : Holding st client subs

variable {st₀ st st' : Stage} {tr es : ServerTrace}

/-- What a task that gave numbers still holds; a task that is over holds nothing. -/
private theorem Told.holds (told : Told tr st) {w : Worker} {client : String}
    {subs : List Subscription}
    (numbered : .numbered w client subs ∈ tr.of w) :
    ∃ held, Placed (tr.of w) (held.map (·.id)) ∧ (held = [] ∨ st.Holding client held) := by
  cases w with
  | handling n =>
    have h := told.handlings n
    cases hn : st.server.handlings[n]? with
    -- A task that is over has placed all that it gave numbers to.
    | none =>
      rw [hn] at h
      rcases h with h | ⟨r, story⟩
      · rw [h] at numbered
        cases numbered
      · exact ⟨[], story.placed, .inl rfl⟩
    | some task =>
      rw [hn] at h
      obtain ⟨r, hreply, -, -, story⟩ := h
      -- A task gives numbers for its own client only.
      obtain rfl : client = r.replyTo := story.for _ numbered client rfl
      exact ⟨_, story.placed, .inr (.answer hn hreply.symm rfl)⟩
  | forwarding n =>
    have h := told.forwardings n
    cases hn : st.server.forwardings[n]? with
    | none =>
      rw [hn] at h
      rcases h with h | ⟨other, sub, story⟩
      · rw [h] at numbered
        cases numbered
      · exact ⟨[], story.placed, .inl rfl⟩
    | some task =>
      rw [hn] at h
      obtain ⟨sub, -, -, story⟩ := h
      obtain rfl : client = task.client := story.for _ numbered client rfl
      exact ⟨_, story.placed, .inr (.item hn rfl rfl)⟩

/-- The streams that a task gave numbers to were started or given up, or are with the task. -/
theorem Told.placed (told : Told tr st) {w : Worker} {client : String} {subs : List Subscription}
    (numbered : .numbered w client subs ∈ tr) {id : StreamId} (hid : id ∈ subs.map (·.id)) :
    id ∈ tr.starts ∨ id ∈ (tr.of w).drops ∨
      ∃ held, st.Holding client held ∧ id ∈ held.map (·.id) := by
  have hmem : .numbered w client subs ∈ tr.of w := ServerTrace.mem_of.2 ⟨numbered, rfl⟩
  obtain ⟨held, placed, holding⟩ := told.holds hmem
  -- Among the events of this worker it was started or dropped, or the worker has it in hand.
  rcases placed id (List.mem_flatMap.2 ⟨_, hmem, hid⟩) with h | h | h
  · exact .inl ((List.filter_sublist.flatMap ServerEvent.starts).subset h)
  · exact .inr (.inl h)
  · rcases holding with rfl | holding
    · cases h
    · exact .inr (.inr ⟨held, holding, h⟩)

section

variable (fresh : st₀.Fresh) (run : Run st₀ tr st) (few : st.server.mux.numbered ≤ 2 ^ 64)

include fresh run few

/-- A stream is active for the client that it began for. -/
theorem Run.client_of_began {n : Nat} {client other : String} {sub : Subscription}
    (began : .began n other sub ∈ tr) (active : st.server.mux.owner sub.id = some client) :
    other = client := by
  have nodup := run.nodup_numbers fresh few
  rw [run.owner fresh few, ServerTrace.owner_iff_holds nodup] at active
  obtain ⟨pre, w, subs, post, htr, hid, -⟩ := active
  have numbered : .numbered w client subs ∈ tr := by simp [htr]
  -- A number is given once, so the one that is active is the one that the task began with.
  obtain ⟨w', subs', numbered', hsub⟩ := run.numbered_of_began fresh began
  have heq := ServerTrace.eq_of_mem_flatMap nodup numbered' numbered (List.mem_map_of_mem hsub) hid
  obtain ⟨-, rfl, -⟩ := ServerEvent.numbered.inj heq
  rfl

/-- A stream that is active has begun, or something on its way to its client holds it. -/
theorem Run.begun_or_held {id : StreamId} {client : String}
    (active : st.server.mux.owner id = some client) :
    (∃ n sub, .began n client sub ∈ tr ∧ sub.id = id) ∨
      ∃ held, st.Holding client held ∧ id ∈ held.map (·.id) := by
  have holds := active
  rw [run.owner fresh few, ServerTrace.owner_iff_holds (run.nodup_numbers fresh few)] at holds
  obtain ⟨pre, w, subs, post, htr, hid, hpost⟩ := holds
  have numbered : .numbered w client subs ∈ tr := by simp [htr]
  rcases (run.told fresh).placed numbered hid with hstart | hdrop | hheld
  · -- Every start is the beginning of a task.
    rw [← run.begins] at hstart
    obtain ⟨x, hx, hidx⟩ := List.mem_flatMap.1 hstart
    cases x with
    | began n other sub =>
      obtain rfl := List.mem_singleton.1 hidx
      exact .inl ⟨n, sub, run.client_of_began fresh few hx active ▸ hx, rfl⟩
    | _ => cases hidx
  · -- It was given up after it got its number, so it is not active.
    obtain ⟨x, hx, hidx⟩ := List.mem_flatMap.1 hdrop
    have hafter := run.uses_after fresh few htr hid (mem_of_mem_of hx)
      (List.mem_append_left _ (List.mem_append_right _ hidx))
    cases x with
    | dropped v subs' => exact absurd hidx (hpost _ hafter)
    | _ => cases hidx
  · exact .inr hheld

/-- A stream that is active is with something on its way to its client or with its own task. -/
theorem Run.owned_of_active {id : StreamId} {client : String}
    (active : st.server.mux.owner id = some client) :
    (∃ held, st.Holding client held ∧ id ∈ held.map (·.id)) ∨
      ∃ (n : Nat) (f : Forwarding), st.server.forwardings[n]? = some f ∧ f.id = id := by
  rcases run.begun_or_held fresh few active with ⟨n, sub, began, rfl⟩ | hheld
  -- Once its task is over, a stream is no longer active.
  · cases hf : st.server.forwardings[n]? with
    | none =>
      rw [run.owner_of_over fresh few began hf] at active
      cases active
    | some f =>
      obtain ⟨-, heq⟩ := run.task_of_began fresh began hf
      exact .inr ⟨n, f, hf, congrArg Subscription.id heq⟩
  · exact .inl hheld

/-- A stream that was given up is not active again. -/
theorem Run.inactive_of_dropped {w : Worker} {subs : List Subscription}
    (dropped : .dropped w subs ∈ tr) {id : StreamId} (hid : id ∈ subs.map (·.id)) :
    st.server.mux.owner id = none := by
  cases active : st.server.mux.owner id with
  | none => rfl
  | some client =>
    rw [run.owner fresh few, ServerTrace.owner_iff_holds (run.nodup_numbers fresh few)] at active
    obtain ⟨pre, v, subs', post, htr, hid', hpost⟩ := active
    have huses : id ∈ (ServerEvent.dropped w subs).uses :=
      List.mem_append_left _ (List.mem_append_right _ hid)
    -- The drop comes after the numbering, and nothing after that gives an id back.
    exact absurd hid (hpost _ (run.uses_after fresh few htr hid' dropped huses))

end

/-! ## Sources that are left behind -/

/-- The source of a stream that is given up is gone. -/
private theorem abandon_not_live {subs : List Subscription} {sub : Subscription} (h : sub ∈ subs) :
    (st.abandon subs).sources.live sub.source = false :=
  Sources.dropAll_not_live _ _ _ (List.mem_map_of_mem h)

/-- A task that comes to its end drops its source. -/
private theorem not_live_of_over {n : Nat} {f : Forwarding} {es : ServerTrace}
    {o : Forwarding.Outcome}
    (does : f.Does n st es o) (ended : o.phase = none) : o.stage.sources.live f.source = false := by
  have hfinish : ∀ (st : Stage) rs, (f.finish st rs).stage.sources.live f.source = false :=
    fun st rs => Sources.dropAll_not_live st.sources _ _ List.mem_cons_self
  cases does with
  | stop | halt | close => exact hfinish _ _
  | _ => cases ended

/-- A step after which a task is not there any more ended the task. -/
theorem Step.not_live_of_over (told : Told tr st) (next : Step st es st') {n : Nat}
    {f : Forwarding} (found : st.server.forwardings[n]? = some f)
    (ended : st'.server.forwardings[n]? = none) : st'.sources.live f.source = false := by
  have hlt := told.lt_of_forwarding found
  -- Starting other tasks leaves this one there, so only its own step can end it.
  have hthere : ∀ {s : Server} {client : String} {subs : List Subscription},
      s.forwardings = (st.start client subs).server.forwardings → s.forwardings[n]? = some f := by
    intro s client subs hs
    rw [hs, forwardings_start_of_lt _ _ _ hlt, found]
  cases next.does with
  | handle found' steps =>
    obtain ⟨subs, same, -⟩ := advance_tasks (n := 0) steps
    cases (hthere same.forwardings).symm.trans ended
  | @forward m f' o found' steps =>
    obtain ⟨subs, same, -⟩ := pass_tasks (n := m) steps
    rw [forwardings_putForwarding] at ended
    split at ended
    · next hm =>
      subst hm
      obtain rfl : f' = f := Option.some.inj (found'.symm.trans found)
      exact Stage.not_live_of_over (Forwarding.does m steps) (by simpa using ended)
    · rw [hthere same.forwardings] at ended
      cases ended
  -- What happens around the server leaves its tasks alone.
  | around same =>
    rw [same.forwardings, found] at ended
    cases ended
  | _ => cases found.symm.trans ended

/-- An answer that gives up streams drops their sources. -/
private theorem not_live_of_reply {w w' : Worker} {client : String} {id : CallId} {reply : Reply}
    {es : ServerTrace} {next : Reply ⊕ Except CallError Unit}
    (does : reply.Does w client id st es next st') {subs : List Subscription}
    (dropped : .dropped w' subs ∈ es) {sub : Subscription} (hsub : sub ∈ subs) :
    st'.sources.live sub.source = false := by
  -- Subscriptions are dropped in three of the ways a reply goes on, and each abandons the sources.
  cases does with
  | excuse | lose | drop =>
    obtain ⟨-, rfl⟩ : w' = w ∧ subs = _ := by simpa using dropped
    exact abandon_not_live hsub
  | start => obtain h | ⟨_, _, _, _, h⟩ := ServerTrace.mem_started dropped <;> cases h
  | _ => simp at dropped

/-- An item that gives up streams drops their sources. -/
private theorem not_live_of_pass {f : Forwarding} {es : ServerTrace} {o : Forwarding.Outcome}
    {n : Nat}
    (does : f.Does n st es o) {w : Worker} {subs : List Subscription} (dropped : .dropped w subs ∈ es)
    {sub : Subscription} (hsub : sub ∈ subs) : o.stage.sources.live sub.source = false := by
  cases does with
  | fail | drop =>
    obtain ⟨-, rfl⟩ : w = .forwarding n ∧ subs = _ := by simpa using dropped
    exact abandon_not_live hsub
  | start => obtain h | ⟨_, _, _, _, h⟩ := ServerTrace.mem_started dropped <;> cases h
  | tell => simp [sending] at dropped
  | _ => simp at dropped

/-- A step that gives up streams drops their sources. -/
private theorem Step.not_live_of_dropped (next : Step st es st') {w : Worker}
    {subs : List Subscription}
    (dropped : .dropped w subs ∈ es) {sub : Subscription} (hsub : sub ∈ subs) :
    st'.sources.live sub.source = false := by
  -- Dropping a subscription drops its source in the same step.
  cases next.works dropped rfl with
  | @handle _ n h _ st₁ found steps left =>
    rw [left]
    show st₁.sources.live sub.source = false
    have does := Handling.does n steps
    generalize st.handlingEvents n h = es at does dropped
    cases does with
    | reply phase does => exact not_live_of_reply does dropped hsub
    | finish phase does => exact not_live_of_reply does dropped hsub
    | _ => simp at dropped
  | @forward n f o found steps left =>
    rw [left]
    exact not_live_of_pass (Forwarding.does n steps) dropped hsub

end Stage

/-! ## Owners -/

/-- A stream is active for nobody exactly if it is not active. -/
theorem Multiplexer.isActive_eq_false_iff (m : Multiplexer) (id : StreamId) :
    m.tracker.isActive id = false ↔ m.owner id = none := by
  unfold owner Tracker.isActive
  rw [Std.ExtTreeMap.contains_eq_isSome_getElem?]
  cases m.tracker.active[id]? <;> simp

/-- Of every run of a server that was started, whatever its clients send, its methods and sources
    yield and its queues refuse: a stream that is active is held by an answer or an item on its way
    to a client, or has a task of its own; no two tasks ever began for one stream; the stream of a
    task that is over, and a stream that was given up, are not active; and the step that ends the
    task, or gives up the stream, drops its source. -/
theorem streams_have_owners {router : Router} {config : ServerConfig} {t t' : Transport}
    {s : Server} (up : Server.launch router config t = (.ok s, t')) {sources : Sources}
    {tr : ServerTrace} {st : Stage}
    (run : Stage.Run { server := s, sources, transport := t' } tr st)
    (few : st.server.mux.numbered ≤ 2 ^ 64) :
    (∀ id, st.tracker.isActive id = true →
        (∃ client held, st.Holding client held ∧ id ∈ held.map (·.id)) ∨
          ∃ (n : Nat) (f : Forwarding), st.server.forwardings[n]? = some f ∧ f.id = id) ∧
      ((∀ (n : Nat) (f : Forwarding), st.server.forwardings[n]? = some f →
          .began n f.client (Stage.subOf f) ∈ tr) ∧ tr.begins.Nodup) ∧
      ((∀ (n : Nat) client sub, .began n client sub ∈ tr → st.server.forwardings[n]? = none →
          st.tracker.isActive sub.id = false) ∧
        ∀ w subs, .dropped w subs ∈ tr → ∀ sub ∈ subs, st.tracker.isActive sub.id = false) ∧
      ∀ es st', Stage.Step st es st' →
        (∀ (n : Nat) (f : Forwarding), st.server.forwardings[n]? = some f →
            st'.server.forwardings[n]? = none → st'.sources.live f.source = false) ∧
          ∀ w subs, .dropped w subs ∈ es → ∀ sub ∈ subs,
            st'.sources.live sub.source = false := by
  have fresh := Server.fresh_of_launch up sources
  have inactive := st.server.mux.isActive_eq_false_iff
  refine ⟨?_, ⟨fun n f => run.forwarding_began fresh, ?_⟩, ⟨?_, ?_⟩, ?_⟩
  -- An active stream is owned by somebody.
  · intro id hactive
    cases howner : st.server.mux.owner id with
    | none =>
      rw [Stage.tracker, (inactive id).2 howner] at hactive
      cases hactive
    | some client =>
      exact (run.owned_of_active fresh few howner).imp_left fun ⟨held, h⟩ => ⟨client, held, h⟩
  -- Tasks begin with the streams that are started, and none is started twice.
  · exact run.begins ▸ run.nodup_starts fresh few
  · intro n client sub began ended
    exact (inactive _).2 (run.owner_of_over fresh few began ended)
  · intro w subs dropped sub hsub
    exact (inactive _).2 (run.inactive_of_dropped fresh few dropped (List.mem_map_of_mem hsub))
  -- One more step.
  · intro es st' next
    refine ⟨fun n f found ended =>
      next.not_live_of_over (run.told fresh) found ended, ?_⟩
    intro w subs dropped sub hsub
    exact next.not_live_of_dropped dropped hsub

/-! ## A run with a client that has no queue -/

namespace Unheard

/-- A client asks for the numbers and has no queue for the answer. -/
def ask (t : Transport) : Transport :=
  match (ClientMessage.request
    { replyTo := "rpc.client.b", id := ⟨0⟩, method := "count", args := [] }).toEnvelope with
  | .ok e => (t.send "rpc.server" e).2
  | .error _ => t

/-- Two clients ask; the first has its answer, and the second cannot be answered. -/
def moves : List Stage.Move :=
  [.meanwhile Counting.ask, .serve, .meanwhile ask, .serve] ++ List.replicate 6 (.handle 0 0) ++
    List.replicate 6 (.handle 0 1)

def run : ServerTrace × Stage :=
  (Stage.launched Counting.router).play moves

/-- The moves make a run. -/
private theorem run_of_moves : Stage.Run (.launched Counting.router) run.1 run.2 :=
  Stage.play_run _ moves

/-- One stream is started, and one is given up. -/
private theorem one_started_one_dropped :
    run.1.starts.length = 1 ∧ run.1.drops.length = 1 ∧ run.2.server.mux.numbered ≤ 2 ^ 64 := by
  decide +kernel

end Unheard

/-- The stream of the first client has a task, and that of the second is given up. -/
theorem streams_have_owners_unheard :
    Unheard.run.1.starts.length = 1 ∧ Unheard.run.1.drops.length = 1 ∧
      (∀ id, Unheard.run.2.tracker.isActive id = true →
          (∃ client held, Unheard.run.2.Holding client held ∧ id ∈ held.map (·.id)) ∨
            ∃ (n : Nat) (f : Forwarding),
              Unheard.run.2.server.forwardings[n]? = some f ∧ f.id = id) ∧
        ∀ w subs, .dropped w subs ∈ Unheard.run.1 → ∀ sub ∈ subs,
          Unheard.run.2.tracker.isActive sub.id = false := by
  obtain ⟨starts, drops, few⟩ := Unheard.one_started_one_dropped
  refine ⟨starts, drops, ?_⟩
  obtain ⟨howners, -, ⟨-, hdropped⟩, -⟩ :=
    streams_have_owners (Server.launch_launched Counting.router) Unheard.run_of_moves few
  exact ⟨howners, hdropped⟩

end StreamRpc
