import StreamRpc.Proofs.Server.Signals
import StreamRpc.Proofs.Server.Whereabouts

/-! # Retired streams fall silent

The task of a stream goes in rounds: it asks the source, looks whether the stream is still active,
and tells the client.  A stream can be retired at any point of a round.  How much its task still
sends then depends on the phase that the task is in, and a task that looks again sends nothing.
A task that has told of an end, or whose client's queue has refused something, neither sends nor
asks again, retired or not.

* `Forwarding.Phase.owes`        how many messages a task still sends for a retired stream
* `Forwarding.Phase.Spent`       the phases after the last message of a stream
* `Stage.Run.sentOf_inactive`    once a stream is retired, one more message at most is sent of it
* `Stage.Run.silent_after_last`  after the last message of a stream nothing is sent or asked
-/

namespace StreamRpc

namespace ServerTrace

/-- What was sent of a stream, in order, whether its queue took it or not. -/
def sentOf (tr : ServerTrace) (id : StreamId) : List (Notification WireValue) :=
  observations tr.said id

/-- What was sent of a stream is read off a trace piece by piece. -/
@[simp] theorem sentOf_append (tr tr' : ServerTrace) (id : StreamId) :
    sentOf (tr ++ tr') id = sentOf tr id ++ sentOf tr' id := by
  simp [sentOf, said, observations]

/-- Where nothing was said nothing was sent of a stream. -/
private theorem sentOf_of_said {tr : ServerTrace} (h : tr.said = []) (id : StreamId) :
    tr.sentOf id = [] := by
  rw [sentOf, h]
  rfl

/-- Tasks that are started say nothing. -/
private theorem said_started (w : Worker) (client : String) (k : Nat) (subs : List Subscription) :
    said (.started w subs :: begun client k subs) = [] := by
  refine List.filterMap_eq_nil_iff.2 fun x hx => ?_
  obtain rfl | ⟨_, _, _, _, rfl⟩ := mem_started hx <;> rfl

/-- No more was sent of a stream than there are events. -/
private theorem length_sentOf_le (tr : ServerTrace) (id : StreamId) :
    (tr.sentOf id).length ≤ tr.length :=
  Nat.le_trans (List.length_filterMap_le _ _) (List.length_filterMap_le _ _)

/-- An event was sent of a stream when an observation with it was sent. -/
private theorem mem_sentOf {tr : ServerTrace} {id : StreamId} {event : Notification WireValue} :
    event ∈ tr.sentOf id ↔ ∃ w client e accepted, .sent w client e accepted ∈ tr ∧
      e.serverMessage? = some (.observation id event) := by
  constructor
  · intro h
    obtain ⟨m, hm, htold⟩ := List.mem_filterMap.1 h
    obtain ⟨x, hx, hsaid⟩ := List.mem_filterMap.1 hm
    obtain rfl := ServerMessage.toldOf_eq_some.1 htold
    cases x with
    | sent w client e accepted => exact ⟨w, client, e, accepted, hx, hsaid⟩
    | _ => cases hsaid
  · rintro ⟨w, client, e, accepted, hx, he⟩
    exact List.mem_filterMap.2 ⟨_, List.mem_filterMap.2 ⟨_, hx, he⟩, if_pos rfl⟩

end ServerTrace

/-! ## One task -/

namespace Forwarding

/-- How many messages a task still sends when its stream is not active any more. -/
def Phase.owes : Phase → Nat
  | cleared _ => 1
  | exposed _ _ => 1
  | encoded _ _ _ => 1
  | failing _ => 1
  | _ => 0

/-- A task owes its client one message at most. -/
private theorem Phase.owes_le (p : Phase) : p.owes ≤ 1 := by
  cases p <;> simp [owes]

/-- The last message of the stream has been sent. -/
inductive Phase.Spent : Phase → Prop where
  | accepted (nested : List Subscription) : Spent (.accepted true nested)
  | refused (nested : List Subscription) : Spent (.refused nested)
  | closing : Spent .closing

/-- A task that is spent does not wait for an item. -/
private theorem Phase.Spent.ne_waiting {p : Phase} (h : p.Spent) : p ≠ .waiting := by
  rintro rfl
  cases h

variable {n : Nat} {f : Forwarding} {st : Stage} {es : ServerTrace} {o : Outcome}

/-- A task whose stream is not active sends what it owes, and gets into no more debt. -/
private theorem Does.owes (does : f.Does n st es o) (inactive : st.tracker.isActive f.id = false)
    (off : st.tracker.signal f.signal ≠ .armed) (id : StreamId) :
    (es.sentOf id).length + o.phase.elim 0 Phase.owes ≤ f.phase.owes := by
  cases does with
  -- These three steps need a stream that is active.
  | pull _ armed => exact absurd armed off
  | dry _ armed => exact absurd armed off
  | clear _ active =>
    rw [inactive] at active
    cases active
  | accept phase | refuse phase | tell phase =>
    -- The one message that was owed.
    rw [phase]
    exact ServerTrace.length_sentOf_le _ id
  | @start terminal nested phase =>
    -- Neither of the phases that follow owes anything.
    rw [phase, ServerTrace.sentOf_of_said (ServerTrace.said_started _ _ _ _)]
    cases terminal <;> exact Nat.le_refl _
  | hush phase =>
    rw [phase]
    exact Nat.zero_le _
  | stop phase | halt phase | expose phase | write phase | fail phase | drop phase | close phase =>
    rw [phase]
    exact Nat.le_refl _

/-- After the last message of its stream, a task neither sends nor asks its source. -/
private theorem Does.spent (does : f.Does n st es o) (spent : f.phase.Spent) :
    es.said = [] ∧ (∀ m source event, .pulled m source event ∉ es) ∧
      ∀ p, o.phase = some p → p.Spent := by
  cases does with
  | @start terminal nested phase =>
    rw [phase] at spent
    cases spent
    refine ⟨ServerTrace.said_started _ _ _ _, fun m source event h => ?_, ?_⟩
    · obtain h | ⟨_, _, _, _, h⟩ := ServerTrace.mem_started h <;> cases h
    · rintro p ⟨⟩
      exact .closing
  | drop => exact ⟨rfl, by simp, by rintro p ⟨⟩; exact .closing⟩
  | close => exact ⟨rfl, by simp, by rintro p ⟨⟩⟩
  -- In all the other phases the task is not done for yet.
  | pull phase | dry phase | stop phase | clear phase | halt phase | expose phase | write phase
  | fail phase | accept phase | refuse phase | tell phase | hush phase =>
    rw [phase] at spent
    cases spent

/-- A task that sends an end, or whose message is refused, has sent the last message of its
    stream. -/
private theorem Does.last (does : f.Does n st es o) {client : String} {sub : Subscription}
    {L : ServerTrace} (story : Story n client sub (some f.phase) L) {w : Worker} {other : String}
    {e : Envelope} {accepted : Bool} (sent : .sent w other e accepted ∈ es) {id : StreamId}
    {event : Notification WireValue} (means : e.serverMessage? = some (.observation id event))
    (last : event.terminal = true ∨ accepted = false) :
    es = [.sent w other e accepted] ∧ ∀ p, o.phase = some p → p.Spent := by
  cases does with
  | accept phase =>
    obtain ⟨rfl, rfl, rfl, rfl⟩ := ServerEvent.sent.inj (List.mem_singleton.1 sent)
    refine ⟨rfl, ?_⟩
    rintro p ⟨⟩
    rw [phase] at story
    cases story with
    | encoded _ written =>
      -- The phase keeps whether the message that was written is an end.
      rw [ServerMessage.serverMessage_of written] at means
      obtain ⟨-, rfl⟩ := ServerMessage.observation.inj (Option.some.inj means)
      rw [last.resolve_right Bool.noConfusion]
      exact .accepted _
  -- After a refusal or the notice of a failure the task has nothing more to say.
  | refuse =>
    obtain ⟨rfl, rfl, rfl, rfl⟩ := ServerEvent.sent.inj (List.mem_singleton.1 sent)
    refine ⟨rfl, ?_⟩
    rintro p ⟨⟩
    exact .refused _
  | tell =>
    refine ⟨by rw [List.mem_singleton.1 sent], ?_⟩
    rintro p ⟨⟩
    exact .closing
  | start => obtain h | ⟨_, _, _, _, h⟩ := ServerTrace.mem_started sent <;> cases h
  | _ => simp at sent

end Forwarding

namespace Stage

variable {st₀ st st' : Stage} {tr es : ServerTrace}

/-! ## The step of a task -/

/-- A step is the next one of this task. -/
structure Passing (st : Stage) (es : ServerTrace) (st' : Stage) (n : Nat) (f : Forwarding)
    (o : Forwarding.Outcome) : Prop where
  found : st.server.forwardings[n]? = some f
  does : f.Does n st es o
  left : st'.server.forwardings[n]? = o.phase.map fun phase => { f with phase }

/-- Apart from its beginning, only a step of a task tells of the task. -/
private theorem Step.passing (next : Step st es st') {n : Nat} {x : ServerEvent}
    (hx : x ∈ es.of (.forwarding n)) (old : ∀ m client sub, x ≠ .began m client sub) :
    ∃ f o, Passing st es st' n f o := by
  -- Of other tasks only their beginnings are told.
  have elsewhere : ∀ {client : String} {subs : List Subscription},
      es.of (.forwarding n) ≠
        ServerTrace.of (begun client st.server.nextTask subs) (.forwarding n) := by
    intro client subs hof
    rw [hof] at hx
    obtain ⟨_, _, _, _, rfl⟩ := ServerTrace.mem_begun (mem_of_mem_of hx)
    exact old _ _ _ rfl
  obtain ⟨hmem, own⟩ := ServerTrace.mem_of.1 hx
  have unheard : x.heard = false := by cases x <;> first | rfl | cases own
  cases next.works hmem unheard with
  | @handle _ m _ _ _ found steps =>
    obtain ⟨subs, -, hof⟩ := advance_tasks (n := m) steps
    exact absurd (hof _ (by simp)) elsewhere
  | @forward m f o found steps left =>
    by_cases hm : m = n
    · subst hm
      refine ⟨f, o, found, Forwarding.does m steps, ?_⟩
      rw [left, forwardings_putForwarding, if_pos rfl]
    · obtain ⟨subs, -, hof⟩ := pass_tasks (n := m) steps
      exact absurd (hof _ (by simpa using Ne.symm hm)) elsewhere

/-- A task that has just been started waits for its first item. -/
private theorem phase_start {client : String} {subs : List Subscription} {n : Nat} {f : Forwarding}
    (h : (st.start client subs).server.forwardings[n]? = some f) :
    st.server.forwardings[n]? = some f ∨ f.phase = .waiting := by
  induction subs generalizing st with
  | nil => exact .inl h
  | cons sub subs ih =>
    rcases @ih { st with server := startOne client st.server sub } h with hf | hp
    · have hf' : (st.server.forwardings.insert st.server.nextTask
          { client, id := sub.id, source := sub.source, signal := sub.signal })[n]? = some f := hf
      rw [Std.ExtTreeMap.getElem?_insert] at hf'
      -- Either it is the one that was just put in, or it was there before.
      split at hf'
      · obtain rfl := Option.some.inj hf'
        exact .inr rfl
      · exact .inl hf'
    · exact .inr hp

/-- A task that began has a number that is in use. -/
private theorem Told.lt_of_began (told : Told tr st) {n : Nat} {client : String}
    {sub : Subscription}
    (began : .began n client sub ∈ tr) : n < st.server.nextTask := by
  refine Nat.lt_of_not_le fun hn => ?_
  have hmem : .began n client sub ∈ tr.of (.forwarding n) := ServerTrace.mem_of.2 ⟨began, rfl⟩
  rw [(told.unborn n hn).2.2.2] at hmem
  cases hmem

/-- What is sent of a stream, the task of the stream sends. -/
private theorem Step.passing_of_sent (told : Told tr st) (next : Step st es st') {w : Worker}
    {client : String} {e : Envelope} {accepted : Bool} (sent : .sent w client e accepted ∈ es)
    {id : StreamId} {event : Notification WireValue}
    (means : e.serverMessage? = some (.observation id event)) :
    ∃ n, ∃ sub : Subscription, ∃ f o, w = .forwarding n ∧ .began n client sub ∈ tr ∧ sub.id = id ∧
      Passing st es st' n f o := by
  rcases next.of_sent told sent with ⟨_, _, _, -, written⟩ | ⟨n, sub, event', rfl, began, written⟩
  · -- An answer is not about a stream.
    rw [ServerMessage.serverMessage_of written] at means
    cases means
  · rw [ServerMessage.serverMessage_of written] at means
    obtain ⟨hid, -⟩ := ServerMessage.observation.inj (Option.some.inj means)
    obtain ⟨f, o, passing⟩ := next.passing (ServerTrace.mem_of.2 ⟨sent, rfl⟩) nofun
    exact ⟨n, sub, f, o, rfl, began, hid, passing⟩

/-- A step that sends something of a stream is one of the task of the stream. -/
private theorem Step.passing_of_sentOf (fresh : st₀.Fresh) (run : Run st₀ tr st)
    (next : Step st es st')
    {id : StreamId} (sends : es.sentOf id ≠ []) :
    ∃ n client sub f o, .began n client sub ∈ tr ∧ sub.id = id ∧ f.id = id ∧
      Passing st es st' n f o := by
  obtain ⟨event, hevent⟩ := List.exists_mem_of_ne_nil _ sends
  obtain ⟨w, client, e, accepted, sent, means⟩ := ServerTrace.mem_sentOf.1 hevent
  have told := run.told fresh
  obtain ⟨n, sub, f, o, rfl, began, hid, passing⟩ := next.passing_of_sent told sent means
  -- The task that began for the id still works on it.
  obtain ⟨-, hsub⟩ := run.task_of_began fresh began passing.found
  exact ⟨n, client, sub, f, o, began, hid, (congrArg Subscription.id hsub).trans hid, passing⟩

/-! ## Retired streams -/

/-- No task of the stream owes more messages than this. -/
def Owes (st : Stage) (id : StreamId) (k : Nat) : Prop :=
  ∀ (n : Nat) (f : Forwarding), st.server.forwardings[n]? = some f → f.id = id → f.phase.owes ≤ k

section

variable (fresh : st₀.Fresh) (run : Run st₀ tr st)

include fresh run

/-- One step sends of a retired stream what its task owes. -/
private theorem Run.owes_step (next : Step st es st') (few : st'.server.mux.numbered ≤ 2 ^ 64)
    {id : StreamId} (inactive : st.server.mux.owner id = none) {k : Nat} (owes : st.Owes id k) :
    ∃ k', st'.Owes id k' ∧ (es.sentOf id).length + k' ≤ k := by
  obtain ⟨j, -, hj⟩ := next.mux.next
  have few₀ : st.server.mux.numbered ≤ 2 ^ 64 := by omega
  have told := run.told fresh
  have hdoes : ∀ {n : Nat} {f : Forwarding} {es : ServerTrace} {o : Forwarding.Outcome},
      st.server.forwardings[n]? = some f → f.id = id → f.Does n st es o →
        (es.sentOf id).length + o.phase.elim 0 Forwarding.Phase.owes ≤ k := by
    rintro n f es o found rfl does
    refine Nat.le_trans ?_ (owes n f found rfl)
    exact does.owes ((st.server.mux.isActive_eq_false_iff _).2 inactive)
      (run.signal_of_inactive fresh few₀ found inactive) _
  by_cases hsends : es.sentOf id = []
  · -- Any task of the stream may have made the step, or none.
    refine ⟨k, fun n f' found' hid => ?_, by simp [hsends]⟩
    obtain ⟨client, subs, moves⟩ := next.moves told
    rcases moves.tasks n with h | ⟨f, o, found, go, h, -⟩
    -- A task that was just started has pulled nothing, so it owes nothing.
    · rcases phase_start (h ▸ found') with found | waits
      · exact owes n f' found hid
      · rw [waits]
        exact Nat.zero_le k
    · obtain ⟨phase, hphase, rfl⟩ := Option.map_eq_some_iff.1 (h.symm.trans found')
      have := hdoes found hid (Forwarding.does n go)
      rw [hphase] at this
      exact Nat.le_trans (Nat.le_add_left _ _) this
  · obtain ⟨n, client, sub, f, o, began, rfl, hid, passing⟩ :=
      next.passing_of_sentOf fresh run hsends
    refine ⟨_, fun m f' found' hid' => ?_, hdoes passing.found hid passing.does⟩
    -- The stream has one task, so no other one owes anything.
    have began' := (run.step next).forwarding_began fresh found'
    obtain ⟨rfl, -, -⟩ :=
      (run.step next).eq_of_began fresh few (List.mem_append_left es began) began' hid'
    obtain ⟨phase, hphase, rfl⟩ := Option.map_eq_some_iff.1 (passing.left.symm.trans found')
    rw [hphase]
    exact Nat.le_refl _

/-- A stream that has a number and is not active stays so, and one more message at most is sent of
    it. -/
theorem Run.sentOf_inactive {id : StreamId} (numbered : id ∈ tr.numbers)
    (inactive : st.server.mux.owner id = none) {later : ServerTrace} (after : Run st later st')
    (few : st'.server.mux.numbered ≤ 2 ^ 64) :
    st'.server.mux.owner id = none ∧ (later.sentOf id).length ≤ 1 := by
  -- What has been sent and what is still owed are one message together.
  suffices h : st'.server.mux.owner id = none ∧
      ∃ k, st'.Owes id k ∧ (later.sentOf id).length + k ≤ 1 by
    obtain ⟨none, k, -, le⟩ := h
    exact ⟨none, by omega⟩
  induction after with
  | refl => exact ⟨inactive, 1, fun _ f _ _ => f.phase.owes_le, Nat.le_refl 1⟩
  | @step later es st₁ st₂ after next ih =>
    obtain ⟨j, -, hj⟩ := next.mux.next
    obtain ⟨none, k, owes, le⟩ := ih (by omega)
    have whole := run.trans after
    have hnumbered : id ∈ (tr ++ later).numbers := by
      rw [ServerTrace.numbers_append]
      exact List.mem_append_left _ numbered
    refine ⟨whole.owner_of_inactive fresh next few hnumbered none, ?_⟩
    obtain ⟨k', owes', le'⟩ := whole.owes_step fresh next few none owes
    refine ⟨k', owes', ?_⟩
    rw [ServerTrace.sentOf_append, List.length_append]
    omega

/-! ## Streams that have had their last message -/

/-- One step does nothing for a stream that has had its last message. -/
private theorem Run.spent_step (next : Step st es st') (few : st'.server.mux.numbered ≤ 2 ^ 64)
    {n : Nat}
    {client : String} {sub : Subscription} (began : .began n client sub ∈ tr)
    (spent : ∀ f, st.server.forwardings[n]? = some f → f.phase.Spent) :
    (∀ f, st'.server.forwardings[n]? = some f → f.phase.Spent) ∧ es.sentOf sub.id = [] ∧
      ∀ source event, .pulled n source event ∉ es := by
  have told := run.told fresh
  refine ⟨fun f' found' => ?_, ?_, fun source event h => ?_⟩
  · obtain ⟨_, subs, moves⟩ := next.moves told
    rcases moves.tasks n with h | ⟨f, o, found, go, h, -⟩
    · -- The task began before, so it is none of those that the step starts.
      rw [h, forwardings_start_of_lt _ _ _ (told.lt_of_began began)] at found'
      exact spent f' found'
    · obtain ⟨phase, hphase, rfl⟩ := Option.map_eq_some_iff.1 (h.symm.trans found')
      exact ((Forwarding.does n go).spent (spent f found)).2.2 phase hphase
  -- Only its task could send of the stream, and that sends nothing any more.
  · by_contra hsends
    obtain ⟨m, _, sub', f, o, began', hid, -, passing⟩ := next.passing_of_sentOf fresh run hsends
    obtain ⟨j, -, hj⟩ := next.mux.next
    obtain ⟨rfl, -, -⟩ := run.eq_of_began fresh (by omega) began began' hid
    exact hsends (ServerTrace.sentOf_of_said (passing.does.spent (spent f passing.found)).1 _)
  · obtain ⟨f, o, passing⟩ := next.passing (ServerTrace.mem_of.2 ⟨h, rfl⟩) nofun
    exact (passing.does.spent (spent f passing.found)).2.1 _ _ _ h

/-- Nothing is done for a stream that has had its last message. -/
private theorem Run.spent {n : Nat} {client : String} {sub : Subscription}
    (began : .began n client sub ∈ tr)
    (spent : ∀ f, st.server.forwardings[n]? = some f → f.phase.Spent) {later : ServerTrace}
    (after : Run st later st') (few : st'.server.mux.numbered ≤ 2 ^ 64) :
    (∀ f, st'.server.forwardings[n]? = some f → f.phase.Spent) ∧ later.sentOf sub.id = [] ∧
      ∀ source event, .pulled n source event ∉ later := by
  induction after with
  | refl => exact ⟨spent, rfl, fun _ _ => List.not_mem_nil⟩
  | @step later es st₁ st₂ after next ih =>
    obtain ⟨j, -, hj⟩ := next.mux.next
    -- Numbers only grow, so the bound holds at every earlier state.
    obtain ⟨spent₁, silent, unasked⟩ := ih (by omega)
    obtain ⟨spent₂, silent', unasked'⟩ :=
      (run.trans after).spent_step fresh next few (List.mem_append_left _ began) spent₁
    refine ⟨spent₂, ?_, fun source event h => ?_⟩
    · rw [ServerTrace.sentOf_append, silent, silent']
      rfl
    · exact (List.mem_append.1 h).elim (unasked source event) (unasked' source event)

end

/-- Once an end has been sent of a stream, or a message of it refused, nothing more is sent of it,
    and its task does not ask the source again. -/
theorem Run.silent_after_last (fresh : st₀.Fresh) (run : Run st₀ tr st)
    (few : st.server.mux.numbered ≤ 2 ^ 64) {pre post : ServerTrace} {w : Worker} {client : String}
    {e : Envelope} {accepted : Bool} (h : tr = pre ++ .sent w client e accepted :: post)
    {id : StreamId} {event : Notification WireValue}
    (means : e.serverMessage? = some (.observation id event))
    (last : event.terminal = true ∨ accepted = false) :
    ∃ n, ∃ sub : Subscription, w = .forwarding n ∧ .began n client sub ∈ pre ∧ sub.id = id ∧
      post.sentOf id = [] ∧ (∀ source x, .pulled n source x ∉ post) ∧
        ∀ f, st.server.forwardings[n]? = some f → f.phase ≠ .waiting := by
  obtain ⟨tr₁, st₁, front, back, st₂, run₁, next, rfl, tr₂, run₂, rfl⟩ := run.at h
  have sent : .sent w client e accepted ∈ front ++ .sent w client e accepted :: back := by simp
  have told := run₁.told fresh
  obtain ⟨n, sub, f, o, rfl, began, hid, passing⟩ := next.passing_of_sent told sent means
  have story := told.of_began began
  rw [passing.found] at story
  obtain ⟨hes, hspent⟩ := passing.does.last story sent means last
  -- The step tells of nothing else, so all the rest comes later.
  obtain ⟨rfl, rfl⟩ : front = [] ∧ back = [] := by simpa [List.append_eq_singleton_iff] using hes
  have spent₂ : ∀ f', st₂.server.forwardings[n]? = some f' → f'.phase.Spent := by
    intro f' found'
    obtain ⟨phase, hphase, rfl⟩ := Option.map_eq_some_iff.1 (passing.left.symm.trans found')
    exact hspent phase hphase
  -- A task that is spent stays spent, and speaks for its stream no more.
  obtain ⟨spent, silent, unasked⟩ :=
    (run₁.step next).spent fresh (List.mem_append_left _ began) spent₂ run₂ few
  exact ⟨n, sub, rfl, List.mem_append_left _ began, hid, hid ▸ silent, unasked,
    fun f' found' => (spent f' found').ne_waiting⟩

end Stage

end StreamRpc
