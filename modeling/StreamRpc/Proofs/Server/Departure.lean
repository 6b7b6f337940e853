import StreamRpc.Proofs.Server.Signals
import StreamRpc.Proofs.Server.Whereabouts

/-! # Clients that are gone

When the queue of a client is deleted, the server hears of it some time later and retires what is
active for the client then.  A stream that gets its number after that is in a message that no queue
takes, so it is given up again.  Between the two nothing of the client is left: its streams are not
active, and their tasks ask no source any more.

* `Stage.RunWithout`                     runs in all of which a queue is missing
* `Stage.RunWithout.refused`             a queue that is missing takes no message
* `Stage.RunWithout.unsent_of_active`    what is still active is on its way to be refused
* `departures_retire_everything`         what is left of a client that is gone
-/

namespace StreamRpc

/-! ## Streams that may still be refused -/

/-- The streams in an answer that no queue has taken. -/
def Reply.unsent : Reply → List Subscription
  | exposed _ subs => subs
  | encoded _ subs => subs
  | refused _ subs => subs
  | _ => []

/-- The streams in the answer to a request that no queue has taken. -/
def Handling.Phase.unsent : Handling.Phase → List Subscription
  | replying r => r.unsent
  | _ => []

/-- The streams in an item that no queue has taken. -/
def Forwarding.Phase.unsent : Forwarding.Phase → List Subscription
  | exposed _ nested => nested
  | encoded _ _ nested => nested
  | refused nested => nested
  | _ => []

/-- What a handling task holds is unsent, or in a reply that was accepted. -/
private theorem Handling.Phase.held_cases (p : Handling.Phase) :
    p.unsent = p.held ∨ p = .replying (.accepted p.held) := by
  cases p with
  | replying r =>
    cases r with
    | accepted subs => exact .inr rfl
    | _ => exact .inl rfl
  | _ => exact .inl rfl

/-- What a forwarding task holds is unsent, or in a notification that was accepted. -/
private theorem Forwarding.Phase.held_cases (p : Forwarding.Phase) :
    p.unsent = p.held ∨ ∃ terminal, p = .accepted terminal p.held := by
  cases p with
  | accepted terminal nested => exact .inr ⟨terminal, rfl⟩
  | _ => exact .inl rfl

namespace Stage

/-- An answer or an item for a client has numbers for these streams, and the client's queue has not
    taken it, nor have the streams been given up. -/
inductive Unsent (st : Stage) (client : String) (subs : List Subscription) : Prop where
  | answer {n : Nat} {h : Handling} (found : st.server.handlings[n]? = some h)
      (same : h.client = client) (unsent : h.phase.unsent = subs) : Unsent st client subs
  | item {n : Nat} {f : Forwarding} (found : st.server.forwardings[n]? = some f)
      (same : f.client = client) (unsent : f.phase.unsent = subs) : Unsent st client subs

variable {st₀ st₁ st st' : Stage} {tr tr₁ tr₂ es : ServerTrace} {queue : String}

/-- What is held by an answer or an item was taken by the queue, or was not. -/
private theorem Holding.unsent_or_starting {client : String} {held : List Subscription}
    (h : st.Holding client held) : st.Unsent client held ∨ st.Starting client held := by
  cases h with
  | @answer n task found same held =>
    rcases task.phase.held_cases with h | h
    · exact .inl (.answer found same (h.trans held))
    · exact .inr (.answer found same (held ▸ h))
  | @item n f found same held =>
    rcases f.phase.held_cases with h | ⟨terminal, h⟩
    · exact .inl (.item found same (h.trans held))
    · exact .inr (.item found same (held ▸ h))

/-! ## Queues that are missing -/

/-- A run in all of which a queue is missing. -/
inductive RunWithout (queue : String) (st₀ : Stage) : ServerTrace → Stage → Prop where
  | refl (gone : st₀.transport.broker.hasQueue queue = false) : RunWithout queue st₀ [] st₀
  | step {tr es : ServerTrace} {st st' : Stage} (run : RunWithout queue st₀ tr st)
      (next : Step st es st') (gone : st'.transport.broker.hasQueue queue = false) :
      RunWithout queue st₀ (tr ++ es) st'

/-- A run without a queue is a run. -/
theorem RunWithout.run (h : RunWithout queue st₀ tr st) : Run st₀ tr st := by
  induction h with
  | refl _ => exact .refl
  | step _ next _ ih => exact ih.step next

/-- In a run without a queue the queue is not there. -/
theorem RunWithout.gone (h : RunWithout queue st₀ tr st) :
    st.transport.broker.hasQueue queue = false := by
  cases h with
  | refl gone => exact gone
  | step _ _ gone => exact gone

/-- Two runs without a queue in a row are one. -/
theorem RunWithout.trans (h : RunWithout queue st₀ tr₁ st₁) (h' : RunWithout queue st₁ tr₂ st) :
    RunWithout queue st₀ (tr₁ ++ tr₂) st := by
  induction h' with
  | refl _ => rwa [List.append_nil]
  | step _ next gone ih =>
    rw [← List.append_assoc]
    exact ih.step next gone

/-- Nothing can be put on a queue that is missing. -/
private theorem send_refused {t : Transport} (gone : t.broker.hasQueue queue = false)
    (e : Envelope) :
    (t.send queue e).1.isOk = false := by
  have hnone : t.broker.queues[queue]? = none := by
    rwa [Broker.hasQueue, Std.ExtTreeMap.contains_eq_isSome_getElem?, Option.isSome_eq_false_iff,
      Option.isNone_iff_eq_none] at gone
  have hsend : ∃ err, t.broker.send queue e = .error err := by
    unfold Broker.send
    cases e.toBytes with
    | error err => exact ⟨_, rfl⟩
    | ok bytes => exact ⟨.unknownQueue queue, by simp [Broker.sendRaw, Broker.mailbox?, hnone]⟩
  obtain ⟨err, hsend⟩ := hsend
  -- A fault refuses it as well.
  unfold Transport.send Transport.call
  split
  · rfl
  · simp only [hsend]
    rfl

/-- A queue that is missing takes no message. -/
theorem RunWithout.refused (h : RunWithout queue st₀ tr st) {w : Worker} {e : Envelope}
    {accepted : Bool} (sent : .sent w queue e accepted ∈ tr) : accepted = false := by
  induction h with
  | refl _ => cases sent
  | step run next _ ih =>
    rcases List.mem_append.1 sent with sent | sent
    · exact ih sent
    · rw [(next.sender sent).2, send_refused run.gone]

/-! ## After the departure -/

section

variable {address : String} (fresh : st₀.Fresh) (before : Run st₀ tr₁ st₁)
  (after : RunWithout address st₁ tr₂ st) (heard : .departed address ∈ tr₂)
  (few : st.server.mux.numbered ≤ 2 ^ 64)

include fresh before after heard few

/-- What is active for a client that is gone was never introduced to it. -/
private theorem RunWithout.not_introduced {id : StreamId}
    (active : st.server.mux.owner id = some address) : ¬ Introduced (tr₁ ++ tr₂) address id := by
  rintro ⟨w, e, sent, hid⟩
  have run := before.trans after.run
  rw [run.owner fresh few, ServerTrace.owner_iff_holds (run.nodup_numbers fresh few)] at active
  obtain ⟨pre, v, subs, post, htr, hnumbered, hpost⟩ := active
  have hsent := run.uses_after fresh few htr hnumbered sent
    (List.mem_append_left _ (List.mem_append_left _ hid))
  -- The departure was heard before the number was given, so what came after was refused.
  rcases append_eq_cases htr with ⟨mid, -, rfl⟩ | ⟨mid, -, rfl⟩
  · exact hpost _ (List.mem_append_right _ heard) rfl
  · have := after.refused (List.mem_append_right _ (List.mem_cons_of_mem _ hsent))
    cases this

/-- What is active for a client that is gone is on its way to be refused. -/
theorem RunWithout.unsent_of_active {id : StreamId}
    (active : st.server.mux.owner id = some address) :
    ∃ subs, st.Unsent address subs ∧ id ∈ subs.map (·.id) := by
  have run := before.trans after.run
  -- A stream whose task began, or is about to, was in a message that the queue took.
  have hnot := after.not_introduced fresh before heard few active
  rcases run.begun_or_held fresh few active with ⟨n, sub, began, rfl⟩ | ⟨held, holding, hid⟩
  · exact absurd (run.of_began fresh began) hnot
  · rcases holding.unsent_or_starting with unsent | starting
    · exact ⟨held, unsent, hid⟩
    · exact absurd ((run.told fresh).of_starting starting hid) hnot

/-- The stream of a task for a client that is gone is not active. -/
private theorem RunWithout.inactive {n : Nat} {f : Forwarding}
    (found : st.server.forwardings[n]? = some f) (same : f.client = address) :
    st.server.mux.owner f.id = none := by
  have run := before.trans after.run
  have began := run.forwarding_began fresh found
  -- An id that is active after its client's departure was heard has not been introduced.
  cases active : st.server.mux.owner f.id with
  | none => rfl
  | some client =>
    obtain rfl := run.client_of_began fresh few began active
    subst same
    exact absurd (run.of_began fresh began)
      (after.not_introduced fresh before heard few active)

end

/-- Hearing of a departure changes nothing about the streams of other clients. -/
private theorem Run.depart_spares (fresh : st₀.Fresh) (run : Run st₀ tr st)
    (few : st.server.mux.numbered ≤ 2 ^ 64) {client : String} (go : st.depart? = some st')
    (heard : st.departEvents = [.departed client]) :
    (∀ id, st.server.mux.owner id ≠ some client →
        st'.tracker.active[id]? = st.tracker.active[id]?) ∧
      ∀ s, (∀ (id : StreamId) (r : Registration), st.tracker.active[id]? = some r →
          r.client = client → r.signal ≠ s) →
        st'.tracker.signal s = st.tracker.signal s := by
  have books := (run.sound fresh few).1.books
  obtain ⟨watcher, other, t, -, -, hes, rfl⟩ := depart_eq go
  obtain rfl : other = client := by simpa [hes] using heard
  constructor
  · intro id hother
    show (st.tracker.retireClient other).2.active[id]? = _
    rw [tracker, books.active_retireClient]
    -- Only registrations of this client are filtered out.
    cases hr : st.server.mux.tracker.active[id]? with
    | none => rfl
    | some r =>
      have hne : r.client ≠ other := by simpa [Multiplexer.owner, hr] using hother
      simp [Option.filter, hne]
  · intro s hother
    exact books.signal_retireClient hother

/-! ## Carrying out runs -/

/-- Whether a queue is missing before each of these moves and after the last. -/
def lacks (queue : String) (st : Stage) : List Move → Bool
  | [] => !st.transport.broker.hasQueue queue
  | m :: ms =>
    !st.transport.broker.hasQueue queue &&
      match st.move? m with
      | none => true
      | some (_, st') => st'.lacks queue ms

/-- Moves that lack a queue start without it. -/
private theorem gone_of_lacks {ms : List Move} (h : st.lacks queue ms = true) :
    st.transport.broker.hasQueue queue = false := by
  cases ms with
  | nil => simpa [lacks] using h
  | cons m ms =>
    rw [lacks, Bool.and_eq_true, Bool.not_eq_true'] at h
    exact h.1

/-- What is carried out while a queue is missing is a run without the queue. -/
theorem play_runWithout (ms : List Move) (h : st.lacks queue ms = true) :
    RunWithout queue st (st.play ms).1 (st.play ms).2 := by
  -- By the moves, from the first; the check says of every stage on the way that the queue is
  -- missing.
  induction ms generalizing st with
  | nil => exact .refl (gone_of_lacks h)
  | cons m ms ih =>
    have gone := gone_of_lacks h
    rw [lacks, Bool.and_eq_true] at h
    unfold play
    split
    · exact .refl gone
    · next es st' hm =>
      have rest : st'.lacks queue ms = true := by simpa [hm] using h.2
      have first : RunWithout queue st ([] ++ es) st' :=
        (RunWithout.refl gone).step (move_step hm) (gone_of_lacks rest)
      rw [List.nil_append] at first
      exact first.trans (ih rest)

end Stage

/-- Of every run of a server that was started, and every client whose queue is missing from some
    moment on, once the server has heard of a departure of the client after that: when no answer or
    item for the client is between its numbers and the queue, no stream is active for the client;
    the signal of each of its tasks has gone off, so that a task that waits for an item comes to its
    end without asking its source; and none of the messages for the client has been taken since the
    queue is missing.  Hearing of a departure, at whatever moment of a run, changes neither what is
    active for the other clients nor their signals. -/
theorem departures_retire_everything {router : Router} {config : ServerConfig} {t t' : Transport}
    {s : Server} (up : Server.launch router config t = (.ok s, t')) {sources : Sources}
    {tr₁ : ServerTrace} {st₁ : Stage}
    (before : Stage.Run { server := s, sources, transport := t' } tr₁ st₁) {address : String}
    {tr₂ : ServerTrace} {st : Stage} (after : Stage.RunWithout address st₁ tr₂ st)
    (heard : .departed address ∈ tr₂) (few : st.server.mux.numbered ≤ 2 ^ 64) :
    ((∀ subs, st.Unsent address subs → subs = []) →
        (∀ id, st.server.mux.owner id ≠ some address) ∧ st.tracker.activeFor address = 0) ∧
      (∀ (n : Nat) (f : Forwarding), st.server.forwardings[n]? = some f → f.client = address →
          st.tracker.signal f.signal ≠ .armed ∧
            (f.phase = .waiting → f.step? st = some (f.finish st []))) ∧
      (∀ w e accepted, .sent w address e accepted ∈ tr₂ → accepted = false) ∧
      ∀ tr st₂ st₃, Stage.Run { server := s, sources, transport := t' } tr st₂ →
        st₂.server.mux.numbered ≤ 2 ^ 64 → st₂.depart? = some st₃ →
        st₂.departEvents = [.departed address] →
        (∀ id, st₂.server.mux.owner id ≠ some address →
            st₃.tracker.active[id]? = st₂.tracker.active[id]?) ∧
          ∀ s, (∀ (id : StreamId) (r : Registration), st₂.tracker.active[id]? = some r →
              r.client = address → r.signal ≠ s) →
            st₃.tracker.signal s = st₂.tracker.signal s := by
  have fresh := Server.fresh_of_launch up sources
  have run := before.trans after.run
  refine ⟨fun quiet => ?_, ?_, fun w e accepted sent => after.refused sent, ?_⟩
  · have hnone : ∀ id, st.server.mux.owner id ≠ some address := by
      intro id active
      -- What were active would be on its way, and nothing is.
      obtain ⟨subs, unsent, hid⟩ := after.unsent_of_active fresh before heard few active
      rw [quiet subs unsent] at hid
      cases hid
    refine ⟨hnone, ?_⟩
    -- The list of a client's streams agrees with what is active for it.
    have hempty : st.tracker.ownedBy address = ∅ := by
      refine Std.ExtTreeSet.ext_mem fun id => ((run.sound fresh few).1.mem_ownedBy id).trans ?_
      simpa using hnone id
    rw [Tracker.activeFor, hempty]
    rfl
  · intro n f found same
    have inactive := after.inactive fresh before heard few found same
    exact ⟨run.signal_of_inactive fresh few found inactive,
      run.finish_of_inactive fresh few found inactive⟩
  · intro tr st₂ st₃ run₂ few₂ go heard₂
    exact run₂.depart_spares fresh few₂ go heard₂

/-! ## A client that leaves -/

namespace Leaving

/-- A client asks for the numbers and gets its stream; it asks again, and its queue is deleted. -/
def moves : List Stage.Move :=
  [.meanwhile Counting.ask, .serve] ++ List.replicate 6 (.handle 0 0) ++
    [.meanwhile Counting.ask, .serve, .meanwhile fun t => (t.deleteQueue "rpc.client.a").2]

/-- The server hears of it and then answers the second request. -/
def movesAfter : List Stage.Move :=
  .depart :: List.replicate 6 (.handle 0 2)

def run : ServerTrace × Stage :=
  (Stage.launched Counting.router).play moves

def runAfter : ServerTrace × Stage :=
  run.2.play movesAfter

/-- The moves make a run. -/
private theorem run_of_moves : Stage.Run (.launched Counting.router) run.1 run.2 :=
  Stage.play_run _ moves

/-- The queue is missing, the departure is heard of, one stream is given up, and nothing is left to
    be sent. -/
private theorem given_up_unheard :
    run.2.lacks "rpc.client.a" movesAfter = true ∧
      (runAfter.1.any fun
        | .departed client => client == "rpc.client.a"
        | _ => false) = true ∧
      ((∀ p ∈ runAfter.2.server.handlings.toList, p.2.phase.unsent = []) ∧
        ∀ p ∈ runAfter.2.server.forwardings.toList, p.2.phase.unsent = []) ∧
      (runAfter.1.drops.length = 1 ∧ runAfter.2.server.forwardings.size = 1) ∧
        runAfter.2.server.mux.numbered ≤ 2 ^ 64 := by
  decide +kernel

/-- The moves after the departure make a run without the client's queue. -/
private theorem runAfter_of_moves : Stage.RunWithout "rpc.client.a" run.2 runAfter.1 runAfter.2 :=
  Stage.play_runWithout movesAfter given_up_unheard.1

/-- The server hears the departure. -/
private theorem heard : .departed "rpc.client.a" ∈ runAfter.1 := by
  obtain ⟨x, hx, hclient⟩ := List.any_eq_true.1 given_up_unheard.2.1
  cases x with
  | departed client => exact beq_iff_eq.1 hclient ▸ hx
  | _ => cases hclient

/-- At the end nobody holds ids that are not sent. -/
private theorem quiet : ∀ subs, runAfter.2.Unsent "rpc.client.a" subs → subs = [] := by
  obtain ⟨answers, items⟩ := given_up_unheard.2.2.1
  rintro subs (⟨found, -, rfl⟩ | ⟨found, -, rfl⟩)
  · exact answers _ (Std.ExtTreeMap.mem_toList_iff_getElem?_eq_some.2 found)
  · exact items _ (Std.ExtTreeMap.mem_toList_iff_getElem?_eq_some.2 found)

end Leaving

/-- The first stream is retired with the departure, and the second is given up after it. -/
theorem departures_retire_everything_leaving :
    Leaving.runAfter.1.drops.length = 1 ∧ Leaving.runAfter.2.server.forwardings.size = 1 ∧
      ((∀ id, Leaving.runAfter.2.server.mux.owner id ≠ some "rpc.client.a") ∧
        Leaving.runAfter.2.tracker.activeFor "rpc.client.a" = 0) ∧
      (∀ (n : Nat) (f : Forwarding), Leaving.runAfter.2.server.forwardings[n]? = some f →
          f.client = "rpc.client.a" →
          Leaving.runAfter.2.tracker.signal f.signal ≠ .armed ∧
            (f.phase = .waiting →
              f.step? Leaving.runAfter.2 = some (f.finish Leaving.runAfter.2 []))) ∧
      ∀ w e accepted, .sent w "rpc.client.a" e accepted ∈ Leaving.runAfter.1 →
        accepted = false := by
  -- In this run a handler was late, so that something is dropped and a task is left.
  obtain ⟨-, -, -, ⟨drops, tasks⟩, few⟩ := Leaving.given_up_unheard
  refine ⟨drops, tasks, ?_⟩
  obtain ⟨hactive, htasks, hsent, -⟩ :=
    departures_retire_everything (Server.launch_launched Counting.router) Leaving.run_of_moves
      Leaving.runAfter_of_moves Leaving.heard few
  exact ⟨hactive Leaving.quiet, htasks, hsent⟩

end StreamRpc
