import StreamRpc.Proofs.Server.Departure

/-! # Streams that outlive their server

A server that was stopped reads no requests and hears of no departures, but the tasks of its streams
go on.  When the queue of a client is deleted after that, nobody retires what is active for the
client all at once.  The task of a stream finds out when it sends the next item and is refused; a
task whose source yields nothing more, and does not end, never does.

* `Stage.Resting`                      no task of a client can go on
* `Stage.RunWithout.silent`            a task that waits has had no item since the queue is missing
* `shutdown_strands_silent_streams`    which streams are left, and which are not
-/

namespace StreamRpc

open ServerTrace (of_append mem_of)

/-! ## Tasks that cannot go on -/

/-- A source that has nothing now is there. -/
private theorem Sources.live_of_pending {s : Sources} {r : SourceRef}
    (h : (s.poll r).1 = .pending) :
    s.live r = true := by
  unfold poll at h
  split at h
  · cases h
  all_goals
    rw [live, Std.ExtTreeMap.contains_eq_isSome_getElem?, ‹s.table[r.key]? = _›]
    rfl

/-- The task of a stream has to wait only for its source. -/
private theorem Forwarding.waiting_of_step_none {f : Forwarding} {st : Stage}
    (h : f.step? st = none) :
    f.phase = .waiting ∧ st.tracker.signal f.signal = .armed ∧
      (st.sources.poll f.source).1 = .pending := by
  unfold step? at h
  -- In every other phase the task can go on, whatever the stage is.
  split at h
  · next phase =>
    unfold pull? at h
    split at h
    · next armed =>
      refine ⟨phase, armed, ?_⟩
      split at h
      · next pending => rw [pending]
      · cases h
      · cases h
    · cases h
  · split at h <;> cases h
  · cases h
  · cases h
  · split at h <;> cases h
  · cases h
  · cases h
  · cases h
  · cases h

/-- A request that has to wait holds no streams. -/
private theorem Handling.held_of_advance_none {h : Handling} {st : Stage} {clock : Nat}
    (waits : st.advance? clock h = none) : h.phase.held = [] := by
  unfold Stage.advance? at waits
  split at waits
  · next phase => rw [phase]; rfl
  · cases waits
  · cases waits
  · next phase => rw [phase]; rfl
  · next phase => rw [phase]; rfl
  · split at waits <;> cases waits

namespace Stage

/-- No task of a client can go on at this time. -/
structure Resting (st : Stage) (clock : Nat) (client : String) : Prop where
  handling : ∀ (n : Nat) (h : Handling), st.server.handlings[n]? = some h → h.client = client →
    st.advance? clock h = none
  forwarding : ∀ (n : Nat) (f : Forwarding), st.server.forwardings[n]? = some f →
    f.client = client → f.step? st = none

/-- Then no answer or item for the client holds streams. -/
private theorem Resting.held {st : Stage} {clock : Nat} {client : String}
    (rest : st.Resting clock client)
    {held : List Subscription} (holding : st.Holding client held) : held = [] := by
  cases holding with
  | @answer n h found same heq =>
    rw [← heq, Handling.held_of_advance_none (rest.handling n h found same)]
  | @item n f found same heq =>
    rw [← heq, (Forwarding.waiting_of_step_none (rest.forwarding n f found same)).1]
    rfl

end Stage

/-! ## What came before a task waits -/

/-- Every item that a task was done with when it waits again was taken by the client's queue. -/
private theorem Forwarding.Rounds.sent_of_pulled {n : Nat} {client : String} {sub : Subscription}
    {L pre post : ServerTrace} {ps : List (ServerValue × WireValue)}
    (rounds : Rounds n client sub L ps) {source : SourceRef} {event : Notification ServerValue}
    (split : L = pre ++ .pulled n source event :: post) :
    ∃ e, .sent (.forwarding n) client e true ∈ post := by
  induction rounds generalizing post with
  | none =>
    have : ServerEvent.pulled n source event ∈ [.began n client sub] := by simp [split]
    simp at this
  | @more L ps v wire nested e before exposed written ih =>
    -- The item was read in an earlier round or in the last one.
    rcases append_eq_cases split with ⟨mid, heq, rfl⟩ | ⟨mid, -, heq⟩
    · obtain ⟨e, sent⟩ := ih heq
      exact ⟨e, List.mem_append_left _ sent⟩
    · -- It is the last item, for there is no other among the events of one round.
      cases mid with
      | nil =>
        obtain ⟨-, rfl⟩ := List.cons.inj heq
        exact ⟨e, by simp⟩
      | cons x mid =>
        have hmem : ServerEvent.pulled n source event ∈ mid ++ .pulled n source event :: post := by
          simp
        have rest : _ = mid ++ ServerEvent.pulled n source event :: post := (List.cons.inj heq).2
        rw [← rest] at hmem
        simp at hmem

namespace Stage

variable {st₀ st₁ st : Stage} {tr₁ tr₂ : ServerTrace} {address : String}

/-- A task that waits has had no item since the queue of its client is missing. -/
theorem RunWithout.silent (fresh : st₀.Fresh) (before : Run st₀ tr₁ st₁)
    (after : RunWithout address st₁ tr₂ st) {n : Nat} {f : Forwarding}
    (found : st.server.forwardings[n]? = some f) (same : f.client = address)
    (waiting : f.phase = .waiting) (source : SourceRef) (event : Notification ServerValue) :
    .pulled n source event ∉ tr₂ := by
  intro pulled
  have run := before.trans after.run
  have story := (run.told fresh).of_began (run.forwarding_began fresh found)
  rw [found, Option.map_some, waiting] at story
  obtain ⟨mid, post, htr⟩ := List.append_of_mem
    (mem_of.2 ⟨pulled, rfl⟩ : .pulled n source event ∈ tr₂.of (.forwarding n))
  cases story with
  | waiting rounds =>
    have split : (tr₁ ++ tr₂).of (.forwarding n) =
        (tr₁.of (.forwarding n) ++ mid) ++ .pulled n source event :: post := by
      rw [of_append, htr, List.append_assoc]
    obtain ⟨e, sent⟩ := rounds.sent_of_pulled split
    -- The item would have been taken by a queue that is missing.
    have hmem : .sent (.forwarding n) f.client e true ∈ tr₂.of (.forwarding n) := by
      rw [htr]
      exact List.mem_append_right _ (List.mem_cons_of_mem _ sent)
    have := after.refused (same ▸ (mem_of.1 hmem).1)
    cases this

/-- A server that is halted has the same work. -/
private theorem sameWork_halt (st : Stage) : st.SameWork st.halt := ⟨rfl, rfl, rfl, rfl⟩

/-- A server that is shut down has the same work: its tasks stay. -/
private theorem sameWork_shutdown (st : Stage) : st.SameWork st.shutdown.2 := ⟨rfl, rfl, rfl, rfl⟩

section

variable (fresh : st₀.Fresh) (run : Run st₀ tr₁ st) (few : st.server.mux.numbered ≤ 2 ^ 64)

include fresh run few

/-- When no task of a client can go on, what is active for the client are the streams of the tasks
    that are left. -/
private theorem Run.active_iff_of_resting {clock : Nat} (rest : st.Resting clock address)
    (id : StreamId) :
    st.server.mux.owner id = some address ↔
      ∃ (n : Nat) (f : Forwarding), st.server.forwardings[n]? = some f ∧ f.client = address ∧
        f.id = id := by
  constructor
  · intro active
    rcases run.begun_or_held fresh few active with ⟨n, sub, began, rfl⟩ | ⟨held, holding, hid⟩
    · cases found : st.server.forwardings[n]? with
      | none =>
        rw [run.owner_of_over fresh few began found] at active
        cases active
      | some f =>
        -- The task that began is the one that is left.
        obtain ⟨rfl, rfl⟩ := run.task_of_began fresh began found
        exact ⟨n, f, found, rfl, rfl⟩
    · rw [rest.held holding] at hid
      cases hid
  · rintro ⟨n, f, found, rfl, rfl⟩
    obtain ⟨-, armed, -⟩ := Forwarding.waiting_of_step_none (rest.forwarding n f found rfl)
    cases active : st.server.mux.owner f.id with
    | none => exact absurd armed (run.signal_of_inactive fresh few found active)
    | some client =>
      rw [run.client_of_began fresh few (run.forwarding_began fresh found) active]

end

end Stage

/-- Of every run of a server that was started, that goes on after the server was stopped, and every
    client whose queue is missing from some moment on: when no task of the client can go on, what is
    active for the client are the streams of its tasks that are left.  Each of them waits for its
    source, which has yielded nothing since the queue is missing and is not dropped.  The other
    streams, and so all whose source has yielded something since or has come to its end, are not
    active, and the step that ended the task of such a stream dropped its source. -/
theorem shutdown_strands_silent_streams {router : Router} {config : ServerConfig} {t t' : Transport}
    {s : Server} (up : Server.launch router config t = (.ok s, t')) {sources : Sources}
    {tr₁ : ServerTrace} {st₁ : Stage}
    (before : Stage.Run { server := s, sources, transport := t' } tr₁ st₁)
    {tr₂ : ServerTrace} {st₂ : Stage}
    (stopped : Stage.Run st₁.shutdown.2 tr₂ st₂ ∨ Stage.Run st₁.halt tr₂ st₂) {address : String}
    {tr₃ : ServerTrace} {st : Stage} (after : Stage.RunWithout address st₂ tr₃ st) {clock : Nat}
    (rest : st.Resting clock address) (few : st.server.mux.numbered ≤ 2 ^ 64) :
    (∀ id, st.server.mux.owner id = some address ↔
        ∃ (n : Nat) (f : Forwarding), st.server.forwardings[n]? = some f ∧ f.client = address ∧
          f.id = id) ∧
      (∀ (n : Nat) (f : Forwarding), st.server.forwardings[n]? = some f → f.client = address →
        f.phase = .waiting ∧ (st.sources.poll f.source).1 = .pending ∧
          st.sources.live f.source = true ∧ ∀ event, .pulled n f.source event ∉ tr₃) ∧
      (∀ n sub event, .began n address sub ∈ tr₁ ++ tr₂ ++ tr₃ → .pulled n sub.source event ∈ tr₃ →
        st.server.mux.owner sub.id = none) ∧
      ∀ tr st₃ es st₄, Stage.Run st₂ tr st₃ → Stage.Step st₃ es st₄ →
        ∀ (n : Nat) (f : Forwarding), st₃.server.forwardings[n]? = some f →
          st₄.server.forwardings[n]? = none → st₄.sources.live f.source = false := by
  have fresh := Server.fresh_of_launch up sources
  -- Stopping changes nothing about streams and tasks.
  have first : Stage.Run { server := s, sources, transport := t' } (tr₁ ++ tr₂) st₂ := by
    rcases stopped with stopped | stopped
    · have := (before.step (.around st₁.sameWork_shutdown)).trans stopped
      rwa [List.append_nil] at this
    · have := (before.step (.around st₁.sameWork_halt)).trans stopped
      rwa [List.append_nil] at this
  have run := first.trans after.run
  refine ⟨run.active_iff_of_resting fresh few rest, fun n f found same => ?_,
    fun n sub event began pulled => ?_, fun tr st₃ es st₄ run' next n f found ended => ?_⟩
  · obtain ⟨waiting, -, pending⟩ := Forwarding.waiting_of_step_none (rest.forwarding n f found same)
    exact ⟨waiting, pending, Sources.live_of_pending pending,
      after.silent fresh first found same waiting f.source⟩
  · cases found : st.server.forwardings[n]? with
    | none => exact run.owner_of_over fresh few began found
    | some f =>
      obtain ⟨same, -⟩ := run.task_of_began fresh began found
      have waiting := (Forwarding.waiting_of_step_none (rest.forwarding n f found same)).1
      -- A task that waits has pulled nothing since the queue of its client went missing.
      exact absurd pulled (after.silent fresh first found same waiting sub.source event)
  · exact next.not_live_of_over ((first.trans run').told fresh) found ended

/-! ## A run with a stream that is left -/

namespace Silent

/-- One method answers with a stream of what is put into a channel, the other with one of two
    numbers. -/
def router : Router :=
  .ofList [("watch", fun _ => .ends (.returned (.stream .channel))),
    ("count", fun _ => .ends (.returned (.stream (.counting 2))))]

/-- A client that has its queue calls a method. -/
def ask (method : String) (t : Transport) : Transport :=
  match (ClientMessage.request
    { replyTo := "rpc.client.a", id := ⟨0⟩, method, args := [] }).toEnvelope with
  | .ok e => (t.send "rpc.server" e).2
  | .error _ => t

/-- Both methods are called and answered, and nothing has been passed on from either stream. -/
def moves : List Stage.Move :=
  [.meanwhile fun t => (t.createQueue "rpc.client.a").2, .meanwhile (ask "watch"), .serve] ++
    List.replicate 6 (.handle 0 0) ++ [.meanwhile (ask "count"), .serve] ++
    List.replicate 6 (.handle 0 2)

def run : ServerTrace × Stage :=
  (Stage.launched router).play moves

/-- The moves make a run. -/
private theorem run_of_moves : Stage.Run (.launched router) run.1 run.2 :=
  Stage.play_run _ moves

/-- The server is shut down, and then the queue of the client is deleted. -/
def stopped : ServerTrace × Stage :=
  run.2.shutdown.2.play [.meanwhile fun t => (t.deleteQueue "rpc.client.a").2]

/-- The deletion after the shutdown makes a run. -/
private theorem stopped_of_moves : Stage.Run run.2.shutdown.2 stopped.1 stopped.2 :=
  Stage.play_run _ _

/-- Then the task of the numbers goes on. -/
def movesAfter : List Stage.Move :=
  List.replicate 7 (.forward 3)

def runAfter : ServerTrace × Stage :=
  stopped.2.play movesAfter

/-- The queue is missing, the numbers are given up, one task is left, and it waits. -/
private theorem one_stream_left :
    stopped.2.lacks "rpc.client.a" movesAfter = true ∧
      stopped.2.server.forwardings.size = 2 ∧
      ((∀ p ∈ runAfter.2.server.handlings.toList, runAfter.2.advance? 0 p.2 = none) ∧
        ∀ p ∈ runAfter.2.server.forwardings.toList, p.2.step? runAfter.2 = none) ∧
      (runAfter.2.server.mux.owner ⟨0⟩ = some "rpc.client.a" ∧
        runAfter.2.server.forwardings.size = 1) ∧
      runAfter.2.server.mux.numbered ≤ 2 ^ 64 := by
  decide +kernel

/-- The moves after that make a run without the client's queue. -/
private theorem runAfter_of_moves :
    Stage.RunWithout "rpc.client.a" stopped.2 runAfter.1 runAfter.2 :=
  Stage.play_runWithout movesAfter one_stream_left.1

/-- At the end no task of the client can go on. -/
private theorem resting : runAfter.2.Resting 0 "rpc.client.a" := by
  obtain ⟨handlings, forwardings⟩ := one_stream_left.2.2.1
  constructor
  · intro n h found _
    exact handlings _ (Std.ExtTreeMap.mem_toList_iff_getElem?_eq_some.2 found)
  · intro n f found _
    exact forwardings _ (Std.ExtTreeMap.mem_toList_iff_getElem?_eq_some.2 found)

end Silent

/-- The stream of the channel is left: it is active for a client that has no queue, and its source
    is not dropped. -/
theorem shutdown_strands_silent_streams_channel :
    Silent.runAfter.2.transport.broker.hasQueue "rpc.client.a" = false ∧
      Silent.runAfter.2.server.mux.owner ⟨0⟩ = some "rpc.client.a" ∧
      ∃ (n : Nat) (f : Forwarding), Silent.runAfter.2.server.forwardings[n]? = some f ∧
        f.client = "rpc.client.a" ∧ f.id = ⟨0⟩ ∧ Silent.runAfter.2.sources.live f.source = true ∧
        ∀ event, .pulled n f.source event ∉ Silent.runAfter.1 := by
  obtain ⟨-, -, -, ⟨active, -⟩, few⟩ := Silent.one_stream_left
  -- The source is a channel on which nothing is published any more.
  obtain ⟨hactive, left, -⟩ :=
    shutdown_strands_silent_streams (Server.launch_launched Silent.router) Silent.run_of_moves
      (.inl Silent.stopped_of_moves) Silent.runAfter_of_moves Silent.resting few
  refine ⟨Silent.runAfter_of_moves.gone, active, ?_⟩
  obtain ⟨n, f, found, same, hid⟩ := (hactive ⟨0⟩).1 active
  obtain ⟨-, -, live, unheard⟩ := left n f found same
  exact ⟨n, f, found, same, hid, live, unheard⟩

end StreamRpc
