import StreamRpc.Proofs.Server.Silence

/-! # What retiring a stream leaves

A stream can be retired while its task is in the middle of an item.  The item may still be sent, and
then it is the last thing that is sent of the stream.  The streams in it have numbers of their own,
which outlive that of the stream they came from: each is started once the client has been sent the
item, or retired as well.

* `Stage.Nesting`                  what becomes of a stream in an item
* `retired_streams_fall_silent`    this, and what is sent of a stream after it is retired or has ended

What is sent of a stream is what a step hands to the transport: the trace tells of no other sends, and
of each with the queue's own answer (`Stage.Talks`, `Stage.Step.sent`).
-/

namespace StreamRpc

/-- Only a task that waits for an item may have to wait. -/
private theorem Forwarding.step?_isSome {f : Forwarding} (busy : f.phase ≠ .waiting) (st : Stage) :
    (f.step? st).isSome = true := by
  unfold step?
  cases hp : f.phase with
  | waiting => exact absurd hp busy
  | pulled event => dsimp only; split <;> rfl
  | encoded e terminal nested => dsimp only; split <;> rfl
  | _ => rfl

namespace Stage

variable {st₀ st : Stage} {tr : ServerTrace}

/-- What has become of a stream that the task with this number found in an item. -/
inductive Nesting (tr : ServerTrace) (st : Stage) (n : Nat) (client : String) (id : StreamId) :
    Prop where
  /-- The item is on its way to the client, and nothing holds it up. -/
  | held {f : Forwarding} (found : st.server.forwardings[n]? = some f)
      (held : id ∈ f.phase.held.map (·.id)) (goes : (f.step? st).isSome = true) :
      Nesting tr st n client id
  /-- The client's queue took the item, and after that the stream was started. -/
  | started {pre post : ServerTrace} {e : Envelope} {k : Nat} {sub : Subscription}
      (taken : tr = pre ++ .sent (.forwarding n) client e true :: post)
      (carried : id ∈ e.introduces) (began : .began k client sub ∈ post) (same : sub.id = id) :
      Nesting tr st n client id
  /-- The item did not get to the queue, and the stream was retired. -/
  | dropped {subs : List Subscription} (dropped : .dropped (.forwarding n) subs ∈ tr)
      (carried : id ∈ subs.map (·.id)) (inactive : st.tracker.isActive id = false) :
      Nesting tr st n client id

/-- The streams in a message that was sent got their numbers from its task before. -/
private theorem Run.numbered_before (fresh : st₀.Fresh) (run : Run st₀ tr st)
    {pre post : ServerTrace}
    {w : Worker} {client : String} {e : Envelope} {accepted : Bool}
    (h : tr = pre ++ .sent w client e accepted :: post) {id : StreamId} (hid : id ∈ e.introduces) :
    ∃ subs, .numbered w client subs ∈ pre ∧ id ∈ subs.map (·.id) := by
  obtain ⟨tr₁, st₁, front, back, st₂, run₁, next, rfl, -⟩ := run.at h
  have sent : .sent w client e accepted ∈ front ++ .sent w client e accepted :: back := by simp
  obtain ⟨subs, numbered, hsubs⟩ :=
    ((run₁.step next).told fresh).numbered_of_sent (List.mem_append_right _ sent) hid
  rcases List.mem_append.1 numbered with hold | hnew
  · exact ⟨subs, List.mem_append_left _ hold, hsubs⟩
  · -- A step that gives numbers tells of nothing else.
    rw [(next.mux.2 _ _ _ hnew).1] at sent
    cases List.mem_singleton.1 sent

section

variable (fresh : st₀.Fresh) (run : Run st₀ tr st) (few : st.server.mux.numbered ≤ 2 ^ 64)

include fresh run few

/-- Streams are active for their client as soon as they have numbers. -/
private theorem Run.registered {pre post : ServerTrace} {w : Worker} {client : String}
    {subs : List Subscription} (h : tr = pre ++ .numbered w client subs :: post) :
    ∃ st₁, Run st₀ (pre ++ [.numbered w client subs]) st₁ ∧ Run st₁ post st ∧
      ∀ sub ∈ subs, st₁.server.mux.owner sub.id = some client := by
  obtain ⟨tr₁, st₁, front, back, st₂, run₁, next, rfl, tr₂, run₂, rfl⟩ := run.at h
  have hes := (next.mux.2 w client subs (List.mem_append_right _ List.mem_cons_self)).1
  -- A step that gives numbers does nothing else, so the run can be cut right after it.
  obtain ⟨rfl, rfl⟩ : front = [] ∧ back = [] := by simpa [List.append_eq_singleton_iff] using hes
  have whole : Run st₀ (tr₁ ++ [.numbered w client subs]) st₂ := run₁.step next
  rw [List.append_nil]
  refine ⟨st₂, whole, run₂, fun sub hsub => ?_⟩
  rw [whole.owner fresh (Nat.le_trans run₂.numbered_le few), ServerTrace.owner, List.foldl_append]
  exact if_pos (List.mem_map_of_mem hsub)

/-- What has become of the streams that a task found in items. -/
private theorem Run.nesting {n : Nat} {client : String} {subs : List Subscription}
    (numbered : .numbered (.forwarding n) client subs ∈ tr) {id : StreamId}
    (hid : id ∈ subs.map (·.id)) : Nesting tr st n client id := by
  have told := run.told fresh
  have hmem : .numbered (.forwarding n) client subs ∈ tr.of (.forwarding n) :=
    ServerTrace.mem_of.2 ⟨numbered, rfl⟩
  obtain ⟨other, sub, story⟩ := told.forwarding hmem
  -- The story of the task has put the number among what it started, dropped or still holds.
  rcases story.placed id (List.mem_flatMap.2 ⟨_, hmem, hid⟩) with h | h | h
  · -- Every start is the beginning of a task, and follows a message that its queue took.
    have hstart : id ∈ tr.starts := (List.filter_sublist.flatMap ServerEvent.starts).subset h
    rw [← run.begins] at hstart
    obtain ⟨x, hx, hidx⟩ := List.mem_flatMap.1 hstart
    cases x with
    | began k target sub' =>
      obtain rfl := List.mem_singleton.1 hidx
      obtain ⟨pre, post, htr⟩ := List.append_of_mem hx
      obtain ⟨w, e, sent, carried⟩ := run.introduced_before fresh htr
      obtain ⟨front, back, rfl⟩ := List.append_of_mem sent
      rw [List.append_assoc, List.cons_append] at htr
      -- The message may be of another task; but it has the number of an item of this one, and a
      -- number is given once.
      obtain ⟨subs', numbered', hid'⟩ := run.numbered_before fresh htr carried
      have heq := ServerTrace.eq_of_mem_flatMap (run.nodup_numbers fresh few)
        (htr ▸ List.mem_append_left _ numbered') numbered hid' hid
      obtain ⟨rfl, rfl, -⟩ := ServerEvent.numbered.inj heq
      exact .started htr carried (List.mem_append_right _ List.mem_cons_self) rfl
    | _ => cases hidx
  · obtain ⟨x, hx, hidx⟩ := List.mem_flatMap.1 h
    obtain ⟨hxtr, hw⟩ := ServerTrace.mem_of.1 hx
    cases x with
    -- What was dropped has been retired, and nothing makes it active again.
    | dropped w subs' =>
      obtain rfl := Option.some.inj hw
      exact .dropped hxtr hidx ((st.server.mux.isActive_eq_false_iff _).2
        (run.inactive_of_dropped fresh few hxtr hidx))
    | _ => cases hidx
  · cases hf : st.server.forwardings[n]? with
    | none =>
      rw [hf] at h
      cases h
    | some f =>
      rw [hf] at h
      -- Only a task that waits for its source can be held up, and one that waits holds nothing.
      refine .held hf h (f.step?_isSome ?_ st)
      intro waits
      have h' : id ∈ f.phase.held.map (·.id) := h
      rw [waits] at h'
      cases h'

end

end Stage

/-- Of every run of a server that was started, in whatever order its tasks take their steps, clients
    close streams and leave, and queues refuse messages.  A stream that has been retired stays so, and
    one more message at most is sent of it, whether its queue takes the message or not.  After a
    message that ends a stream, or one that its queue refused, none is sent of the stream, and its
    task does not ask the source again.  The streams in an item are active for the client from the
    moment they get their numbers, which is before the item is sent; and each of them is still with
    the item, and nothing holds that up, or was started after the queue had taken the item, or was
    retired. -/
theorem retired_streams_fall_silent {router : Router} {config : ServerConfig} {t t' : Transport}
    {s : Server} (up : Server.launch router config t = (.ok s, t')) {sources : Sources}
    {tr : ServerTrace} {st : Stage}
    (run : Stage.Run { server := s, sources, transport := t' } tr st)
    (few : st.server.mux.numbered ≤ 2 ^ 64) :
    (∀ id ∈ tr.numbers, st.tracker.isActive id = false → ∀ later st', Stage.Run st later st' →
        st'.server.mux.numbered ≤ 2 ^ 64 →
          st'.tracker.isActive id = false ∧ (later.sentOf id).length ≤ 1) ∧
      (∀ pre w client e accepted post id event, tr = pre ++ .sent w client e accepted :: post →
        e.serverMessage? = some (.observation id event) →
        event.terminal = true ∨ accepted = false →
          ∃ n, ∃ sub : Subscription, w = .forwarding n ∧ .began n client sub ∈ pre ∧ sub.id = id ∧
            ServerTrace.sentOf post id = [] ∧ (∀ source x, .pulled n source x ∉ post) ∧
              ∀ f, st.server.forwardings[n]? = some f → f.phase ≠ .waiting) ∧
      (∀ pre n client subs post, tr = pre ++ .numbered (.forwarding n) client subs :: post →
        (∃ st₁, Stage.Run { server := s, sources, transport := t' }
            (pre ++ [.numbered (.forwarding n) client subs]) st₁ ∧ Stage.Run st₁ post st ∧
              ∀ sub ∈ subs, st₁.server.mux.owner sub.id = some client) ∧
          ∀ sub ∈ subs, st.Nesting tr n client sub.id) ∧
      ∀ pre n client e accepted post, tr = pre ++ .sent (.forwarding n) client e accepted :: post →
        ∀ id ∈ e.introduces, ∃ subs,
          .numbered (.forwarding n) client subs ∈ pre ∧ id ∈ subs.map (·.id) := by
  have fresh := Server.fresh_of_launch up sources
  refine ⟨?_, ?_, ?_, ?_⟩
  -- After the retirement.
  · intro id numbered inactive later st' after few'
    obtain ⟨none, le⟩ := run.sentOf_inactive fresh numbered
      ((st.server.mux.isActive_eq_false_iff id).1 inactive) after few'
    exact ⟨(st'.server.mux.isActive_eq_false_iff id).2 none, le⟩
  -- After the last message.
  · intro pre w client e accepted post id event h means last
    exact run.silent_after_last fresh few h means last
  -- The streams in an item.
  · intro pre n client subs post h
    refine ⟨run.registered fresh few h, fun sub hsub => ?_⟩
    exact run.nesting fresh few (by simp [h]) (List.mem_map_of_mem hsub)
  -- The streams in a message have been numbered before.
  · intro pre n client e accepted post h id hid
    exact run.numbered_before fresh h hid

/-! ## A stream that is retired in the middle of an item -/

namespace Racing

/-- A method that answers with a stream of one item, which is a stream of two numbers. -/
def router : Router :=
  .ofList [("count", fun _ =>
    .ends (.returned (.stream (.ofValues [.stream (.counting 2)]))))]

/-- The stream is retired when its task has seen that it is active. -/
def moves : List Stage.Move :=
  .meanwhile Counting.ask :: .serve :: List.replicate 6 (.handle 0 0) ++
    [.forward 1, .forward 1, .withdraw ⟨0⟩]

def run : ServerTrace × Stage :=
  (Stage.launched router).play moves

/-- The task goes on until it is over. -/
def later : ServerTrace × Stage :=
  run.2.play (List.replicate 5 (.forward 1))

/-- The moves make a run. -/
private theorem run_of_moves : Stage.Run (.launched router) run.1 run.2 :=
  Stage.play_run _ moves

/-- The moves after it make a run. -/
private theorem run_later : Stage.Run run.2 later.1 later.2 :=
  Stage.play_run _ _

/-- The stream is retired; then its item is sent all the same, and the stream in that has the only
    task that is left. -/
private theorem sent_once_retired :
    run.1.numbers = [⟨0⟩] ∧ run.2.tracker.isActive ⟨0⟩ = false ∧
      run.2.server.mux.numbered ≤ 2 ^ 64 ∧
      (later.1.sentOf ⟨0⟩).length = 1 ∧ later.1.starts = [⟨1⟩] ∧
        later.2.server.forwardings.size = 1 ∧ later.2.server.mux.numbered ≤ 2 ^ 64 := by
  decide +kernel

end Racing

/-- The item that was on its way is sent, nothing else can be, and the stream in the item is
    started. -/
theorem retired_streams_fall_silent_racing :
    (Racing.run.2.tracker.isActive ⟨0⟩ = false ∧ (Racing.later.1.sentOf ⟨0⟩).length = 1 ∧
      Racing.later.1.starts = [⟨1⟩] ∧ Racing.later.2.server.forwardings.size = 1) ∧
    (∀ later st', Stage.Run Racing.run.2 later st' → st'.server.mux.numbered ≤ 2 ^ 64 →
      st'.tracker.isActive ⟨0⟩ = false ∧ (later.sentOf ⟨0⟩).length ≤ 1) ∧
    ∀ pre n client subs post,
      Racing.run.1 ++ Racing.later.1 = pre ++ .numbered (.forwarding n) client subs :: post →
        ∀ sub ∈ subs,
          Racing.later.2.Nesting (Racing.run.1 ++ Racing.later.1) n client sub.id := by
  -- The stream was retired between the poll and the send, so one message still goes out.
  obtain ⟨numbers, inactive, few, sent, starts, tasks, few'⟩ := Racing.sent_once_retired
  refine ⟨⟨inactive, sent, starts, tasks⟩, ?_, ?_⟩
  · obtain ⟨silent, -⟩ := retired_streams_fall_silent
      (Server.launch_launched Racing.router) Racing.run_of_moves few
    exact silent ⟨0⟩ (by rw [numbers]; exact List.mem_singleton_self _) inactive
  · obtain ⟨-, -, nested, -⟩ := retired_streams_fall_silent
      (Server.launch_launched Racing.router) (Racing.run_of_moves.trans Racing.run_later) few'
    intro pre n client subs post h
    exact (nested pre n client subs post h).2

end StreamRpc
