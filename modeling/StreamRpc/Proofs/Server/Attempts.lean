import StreamRpc.Proofs.Message.Refusal
import StreamRpc.Proofs.Server.Schedule

/-! # One attempt to answer each request

Each request gets a task with a number of its own, and this task sends one message at most.  Once it
is over it has sent one: what cannot be written is replaced by a failure that can.  And it is over
soon after its method has ended, as nothing that an answer goes through has to wait.

* `Stage.Run.nodup_requests`   no two requests are given to one task
* `Stage.Run.attempts_le`      a task sends one message at most
* `Stage.Run.attempts_of_over` a task that is over has sent one
* `Stage.Run.over_of_turns`    a task whose method has ended is over after as many turns as it needs
-/

namespace StreamRpc

namespace ServerEvent

/-- The request that was given to a task, with the number of the task. -/
def given? : ServerEvent → Option (Nat × Request)
  | requested n r => some (n, r)
  | _ => none

/-- What this task sent, and to whom, whether the queue took it or not. -/
def attempt? (n : Nat) : ServerEvent → Option (String × Envelope)
  | sent w client e _ => if w = .handling n then some (client, e) else none
  | _ => none

end ServerEvent

namespace ServerTrace

/-- The requests that were given to tasks, in order, each with the number of its task. -/
def requests (tr : ServerTrace) : List (Nat × Request) :=
  tr.filterMap ServerEvent.given?

/-- What a task sent, and to whom, whether the queue took it or not. -/
def attempts (tr : ServerTrace) (n : Nat) : List (String × Envelope) :=
  tr.filterMap (ServerEvent.attempt? n)

/-- Whatever answer could not be written for a length in it, that length is one that a machine can
    have. -/
def Measured (tr : ServerTrace) : Prop :=
  ∀ n client m err, .unwritable (.handling n) client m err ∈ tr → err.Measured

/-- Requests are read off a trace piece by piece. -/
@[simp] theorem requests_append (tr tr' : ServerTrace) :
    requests (tr ++ tr') = requests tr ++ requests tr' :=
  List.filterMap_append

/-- A task's attempts are read off a trace piece by piece. -/
@[simp] theorem attempts_append (tr tr' : ServerTrace) (n : Nat) :
    attempts (tr ++ tr') n = attempts tr n ++ attempts tr' n :=
  List.filterMap_append

/-- A request is among those made when the trace has it. -/
theorem mem_requests {tr : ServerTrace} {n : Nat} {r : Request} :
    (n, r) ∈ tr.requests ↔ .requested n r ∈ tr := by
  constructor
  · intro h
    obtain ⟨x, hx, heq⟩ := List.mem_filterMap.1 h
    cases x with
    | requested m q =>
      obtain ⟨rfl, rfl⟩ := Prod.mk.injEq .. ▸ Option.some.inj heq
      exact hx
    | _ => cases heq
  · exact fun h => List.mem_filterMap.2 ⟨_, h, rfl⟩

/-- An attempt is a send of the task's, accepted or not. -/
theorem mem_attempts {tr : ServerTrace} {n : Nat} {client : String} {e : Envelope} :
    (client, e) ∈ tr.attempts n ↔ ∃ accepted, .sent (.handling n) client e accepted ∈ tr := by
  constructor
  · intro h
    obtain ⟨x, hx, heq⟩ := List.mem_filterMap.1 h
    -- Only a send of the same handler is an attempt of it.
    cases x with
    | sent w client' e' accepted =>
      simp only [ServerEvent.attempt?] at heq
      split at heq
      · next hw =>
        obtain ⟨rfl, rfl⟩ := Prod.mk.injEq .. ▸ Option.some.inj heq
        exact ⟨accepted, hw ▸ hx⟩
      · cases heq
    | _ => cases heq
  · rintro ⟨accepted, h⟩
    exact List.mem_filterMap.2 ⟨_, h, if_pos rfl⟩

/-- The requests of the tasks are the requests asked. -/
theorem map_snd_requests (tr : ServerTrace) : tr.requests.map Prod.snd = tr.asked := by
  rw [requests, asked, List.map_filterMap]
  refine congrArg (List.filterMap · tr) (funext fun x => ?_)
  cases x <;> rfl

/-- A task's attempts are all in its own part of the trace. -/
private theorem attempts_of (tr : ServerTrace) (n : Nat) :
    attempts (tr.of (.handling n)) n = tr.attempts n := by
  refine filterMap_of fun x _ a hx => ?_
  cases x with
  | sent w client e accepted =>
    simp only [ServerEvent.attempt?] at hx
    split at hx
    · next hw => rw [hw, ServerEvent.worker?]
    · cases hx
  | _ => cases hx

/-- A task that sends nothing makes no attempt. -/
private theorem attempts_of_unsent {L : ServerTrace} {n : Nat}
    (unsent : ∀ client e accepted, .sent (.handling n) client e accepted ∉ L) :
    L.attempts n = [] := by
  refine List.eq_nil_iff_forall_not_mem.2 fun p hp => ?_
  obtain ⟨accepted, h⟩ := mem_attempts.1 hp
  exact unsent _ _ accepted h

end ServerTrace

/-! ## What a task sends -/

namespace Handling

/-- A task that has just written its reply has made no attempt. -/
private theorem Written.attempts {n : Nat} {r : Request} {L : ServerTrace} {e : Envelope}
    {subs : List Subscription} (h : Written n r L e subs) : L.attempts n = [] :=
  ServerTrace.attempts_of_unsent fun _ _ _ => h.unsent _ _ _ _

/-- A task sends nothing, or the message that it wrote, once. -/
private theorem Story.attempts {n : Nat} {r : Request} {phase : Option Phase} {L : ServerTrace}
    (h : Story n r phase L) : L.attempts n = [] ∨ ∃ e, L.attempts n = [(r.replyTo, e)] := by
  -- Whatever comes after the message is no other message.
  have honce : ∀ {L' : ServerTrace} {e : Envelope} {subs : List Subscription} {accepted : Bool}
      {after : ServerTrace}, Written n r L' e subs → ServerTrace.attempts after n = [] →
      ServerTrace.attempts (L' ++ .sent (.handling n) r.replyTo e accepted :: after) n =
        [(r.replyTo, e)] := by
    intro L' e subs accepted after hw hafter
    have hself : ServerEvent.attempt? n (.sent (.handling n) r.replyTo e accepted) =
        some (r.replyTo, e) := if_pos rfl
    rw [ServerTrace.attempts_append, hw.attempts, List.nil_append, ServerTrace.attempts,
      List.filterMap_cons_some hself]
    exact congrArg (List.cons _) hafter
  cases h with
  | received => exact .inl rfl
  | running good called same => exact .inl rfl
  | sleeping good called same => exact .inl rfl
  | answered h => exact .inl (ServerTrace.attempts_of_unsent fun _ _ _ => h.unsent _ _ _ _)
  | exposed h => exact .inl (ServerTrace.attempts_of_unsent fun _ _ _ => h.unsent _ _ _ _)
  | encoded h => exact .inl h.attempts
  -- In these phases the message has been sent, whatever came of it.
  | accepted h => exact .inr ⟨_, honce h rfl⟩
  | refused h => exact .inr ⟨_, honce h rfl⟩
  | done h => exact .inr ⟨_, honce h rfl⟩
  | failed h => exact .inr ⟨_, honce h rfl⟩
  | lost h refused =>
    exact .inl (ServerTrace.attempts_of_unsent fun _ _ _ => by simp [h.unsent])

/-- The story of a request begins with its coming. -/
theorem Story.requested {n : Nat} {r : Request} {phase : Option Phase} {L : ServerTrace}
    (h : Story n r phase L) : .requested n r ∈ L := by
  have hloaded : ∀ {L' : ServerTrace} {wire : Except Failure WireValue}
      {subs : List Subscription}, Loaded n r L' wire subs → .requested n r ∈ L' := by
    rintro _ _ _ ⟨answered, -⟩
    exact List.mem_append_left _ answered.requested
  -- Every story goes on from an earlier one, and the first tells of the request.
  cases h with
  | received => exact List.mem_cons_self
  | running good called same => exact List.mem_cons_self
  | sleeping good called same => exact List.mem_cons_self
  | answered h => exact h.requested
  | exposed h => exact hloaded h
  | encoded h => exact h.requested
  | accepted h => exact List.mem_append_left _ h.requested
  | refused h => exact List.mem_append_left _ h.requested
  | done h => exact List.mem_append_left _ h.requested
  | failed h => exact List.mem_append_left _ h.requested
  | lost h refused => exact List.mem_append_left _ (hloaded h)

/-- When its message has been taken or refused, a task has sent it. -/
private theorem Story.attempts_of_sent {n : Nat} {r : Request} {reply : Reply} {L : ServerTrace}
    (h : Story n r (some (.replying reply)) L)
    (hsent : (∃ subs, reply = .accepted subs) ∨ ∃ err subs, reply = .refused err subs) :
    L.attempts n ≠ [] := by
  have hmem : ∀ {L' : ServerTrace} {client : String} {e : Envelope} {accepted : Bool},
      ServerTrace.attempts (L' ++ [.sent (.handling n) client e accepted]) n ≠ [] := fun hnil =>
    List.not_mem_nil (hnil ▸ ServerTrace.mem_attempts.2 ⟨_, List.mem_append_right _
      List.mem_cons_self⟩)
  -- Only two phases come right after a send; the send is the last event of either.
  rcases hsent with ⟨subs, rfl⟩ | ⟨err, subs, rfl⟩
  · cases h with
    | accepted h => exact hmem
  · cases h with
    | refused h => exact hmem

end Handling

namespace Stage

variable {st₀ st st' : Stage} {tr es : ServerTrace}

/-! ## What a step does to a request -/

/-- What a step does to the task with a number that is to handle a request: nothing, or the task
    comes to be, or it goes on. -/
inductive Affects (st : Stage) (es : ServerTrace) (st' : Stage) (n : Nat) : Prop where
  | idle (same : st'.server.handlings[n]? = st.server.handlings[n]?)
      (quiet : ∀ r, .requested n r ∉ es)
  | come {e : Envelope} {r : Request} (events : es = [.served e, .requested n r])
      (next : n = st.server.nextTask)
      (left : st'.server.handlings[n]? = some
        { client := r.replyTo, id := r.id, method := r.method, phase := .received r.args })
  | go {clock : Nat} {h : Handling} {phase : Option Handling.Phase} {st₁ : Stage}
      (found : st.server.handlings[n]? = some h) (steps : st.advance? clock h = some (phase, st₁))
      (events : es = st.handlingEvents n h)
      (left : st'.server.handlings[n]? = phase.map fun phase => { h with phase })

/-- A step in which the server hears nothing begins no request. -/
private theorem quiet_of_unheard (unheard : ∀ x ∈ es, x.heard = false) (n : Nat) (r : Request) :
    .requested n r ∉ es := fun h => nomatch unheard _ h

/-- These are all the things that a step does to a request. -/
private theorem Step.affects (next : Step st es st') (n : Nat) : Affects st es st' n := by
  cases next.does with
  | @request _ e r =>
    -- A request makes the next task, and no other.
    by_cases hn : n = st.server.nextTask
    · subst hn
      exact .come (e := e) (r := r) rfl rfl (by simp)
    · refine .idle ?_ fun r' => by simp [hn]
      simp [Std.ExtTreeMap.getElem?_insert, Ne.symm hn]
  | @handle clock m h phase st₁ found steps =>
    obtain ⟨subs, same, -⟩ := advance_tasks (n := m) steps
    by_cases hm : m = n
    · subst hm
      refine .go found steps rfl ?_
      rw [handlings_putHandling, if_pos rfl]
    · -- streams that another task starts have numbers of their own
      refine .idle ?_ (quiet_of_unheard (heard_handling st m h) n)
      rw [handlings_putHandling, if_neg hm, same.handlings, handlings_start]
  | @forward m f o found steps =>
    obtain ⟨subs, same, -⟩ := pass_tasks (n := m) steps
    -- A stream is another kind of task, and makes only such.
    refine .idle ?_ (quiet_of_unheard (heard_forwarding st m f) n)
    show o.stage.server.handlings[n]? = _
    rw [same.handlings, handlings_start]
  | around same => exact .idle (by rw [same.handlings]) fun r => by simp
  | _ => exact .idle rfl fun r => by simp

/-! ## Numbers of tasks -/

/-- A task that was given a request has a number that is in use. -/
private theorem Told.lt_of_requested (told : Told tr st) {n : Nat} {r : Request}
    (h : .requested n r ∈ tr) : n < st.server.nextTask := by
  refine Nat.lt_of_not_le fun hle => ?_
  have hof : .requested n r ∈ tr.of (.handling n) := ServerTrace.mem_of.2 ⟨h, rfl⟩
  rw [(told.unborn n hle).2.2.1] at hof
  cases hof

/-- The requests of a step are none, or one, for the next task. -/
private theorem Step.requests (next : Step st es st') :
    es.requests = [] ∨ ∃ r, es.requests = [(st.server.nextTask, r)] := by
  cases hr : es.requests with
  | nil => exact .inl rfl
  | cons p ps =>
    obtain ⟨n, r⟩ := p
    have hmem : (n, r) ∈ es.requests := hr ▸ List.mem_cons_self
    obtain ⟨rfl, e, rfl, -⟩ := next.of_requested (ServerTrace.mem_requests.1 hmem)
    exact .inr ⟨r, hr.symm⟩

/-- No two requests are given to one task. -/
theorem Run.nodup_requests (fresh : st₀.Fresh) (run : Run st₀ tr st) :
    (tr.requests.map Prod.fst).Nodup := by
  induction run with
  | refl => exact List.nodup_nil
  | @step tr es st st' run next ih =>
    rw [ServerTrace.requests_append, List.map_append]
    rcases next.requests with h | ⟨r, h⟩
    · rwa [h, List.map_nil, List.append_nil]
    · rw [h]
      -- The next task is one that was not given a request before.
      refine List.nodup_append.2 ⟨ih, List.nodup_singleton _, fun a ha b hb => ?_⟩
      obtain ⟨⟨m, q⟩, hm, rfl⟩ := List.mem_map.1 ha
      obtain rfl := List.mem_singleton.1 hb
      exact Nat.ne_of_lt ((run.told fresh).lt_of_requested (ServerTrace.mem_requests.1 hm))

/-- The task of a request tells the story of this request. -/
theorem Run.story_of_requested (fresh : st₀.Fresh) (run : Run st₀ tr st) {n : Nat} {r : Request}
    (h : .requested n r ∈ tr) :
    Handling.Story n r (st.server.handlings[n]?.map (·.phase)) (tr.of (.handling n)) := by
  have hof : .requested n r ∈ tr.of (.handling n) := ServerTrace.mem_of.2 ⟨h, rfl⟩
  obtain ⟨q, story⟩ := (run.told fresh).handling hof
  -- A task has one request only.
  have hq : .requested n q ∈ tr := (ServerTrace.mem_of.1 story.requested).1
  have hsame : (n, r) = (n, q) := List.inj_on_of_nodup_map (run.nodup_requests fresh)
    (ServerTrace.mem_requests.2 h) (ServerTrace.mem_requests.2 hq) rfl
  exact (Prod.mk.inj hsame).2 ▸ story

/-- A task that there is was given a request. -/
theorem Run.requested_of_handling (fresh : st₀.Fresh) (run : Run st₀ tr st) {n : Nat}
    {h : Handling} (found : st.server.handlings[n]? = some h) : ∃ r, .requested n r ∈ tr := by
  have told := (run.told fresh).handlings n
  rw [found] at told
  obtain ⟨r, -, -, -, story⟩ := told
  exact ⟨r, (ServerTrace.mem_of.1 story.requested).1⟩

/-! ## How often a task sends something -/

/-- A task sends one message at most. -/
theorem Run.attempts_le (fresh : st₀.Fresh) (run : Run st₀ tr st) (n : Nat) :
    (tr.attempts n).length ≤ 1 := by
  rw [← ServerTrace.attempts_of]
  cases hof : tr.of (.handling n) with
  | nil => exact Nat.zero_le 1
  | cons x L =>
    have hx : x ∈ tr.of (.handling n) := hof ▸ List.mem_cons_self
    -- It did something, so its events are a story, and a story has one attempt at most.
    obtain ⟨r, story⟩ := (run.told fresh).handling hx
    rw [← hof]
    rcases story.attempts with h | ⟨e, h⟩
    · rw [h]
      exact Nat.zero_le 1
    · rw [h]
      exact Nat.le_refl 1

/-- A step that ends a request has sent its message. -/
private theorem attempts_of_ending {n clock : Nat} {h : Handling} {r : Request} {st₁ : Stage}
    {L : ServerTrace} (story : Handling.Story n r (some h.phase) L)
    (steps : st.advance? clock h = some (none, st₁))
    (measured : ServerTrace.Measured (st.handlingEvents n h)) : L.attempts n ≠ [] := by
  have does := Handling.does n steps
  generalize st.handlingEvents n h = es at does measured
  cases does with
  | finish phase does =>
    rw [phase] at story
    -- It ends with a message that was taken, one that was refused, or none that could be written.
    cases does with
    | start subs => exact story.attempts_of_sent (.inl ⟨subs, rfl⟩)
    | drop err subs => exact story.attempts_of_sent (.inr ⟨err, subs, rfl⟩)
    | lose unwritable unwritable' =>
      -- The failure that says so can always be written.
      have hwhat : (Wire.utf8 "reply").length ≤ 100 := by decide
      have hmeasured := measured _ _ _ _ List.mem_cons_self
      obtain ⟨e, he⟩ := (ServerMessage.excuse hwhat unwritable hmeasured h.id ⟨0⟩).1
      rw [he] at unwritable'
      cases unwritable'

/-- A task that is gone has made an attempt. -/
private theorem Run.attempts_ne_nil (fresh : st₀.Fresh) (run : Run st₀ tr st)
    (measured : tr.Measured)
    {n : Nat} {r : Request} (requested : .requested n r ∈ tr)
    (gone : st.server.handlings[n]? = none) : tr.attempts n ≠ [] := by
  induction run with
  | refl => cases requested
  | @step tr es st st' run next ih =>
    have before : ServerTrace.Measured tr := fun m client message err h =>
      measured m client message err (List.mem_append_left _ h)
    -- the step that ends a task sends nothing, so the message was sent before
    suffices h : tr.attempts n ≠ [] by
      rw [ServerTrace.attempts_append]
      exact List.append_ne_nil_of_left_ne_nil h _
    cases next.affects n with
    | idle same quiet =>
      have hmem : .requested n r ∈ tr :=
        (List.mem_append.1 requested).resolve_right (quiet r)
      exact ih before hmem (same ▸ gone)
    -- A task that has just come is still there.
    | come events hn left =>
      rw [gone] at left
      cases left
    | @go clock h phase st₁ found steps events left =>
      obtain rfl : phase = none := by
        rw [gone] at left
        exact Option.map_eq_none_iff.1 left.symm
      have told := (run.told fresh).handlings n
      rw [found] at told
      obtain ⟨q, -, -, -, story⟩ := told
      rw [← ServerTrace.attempts_of]
      exact attempts_of_ending story steps fun m client message err hm =>
        measured m client message err (List.mem_append_right _ (events ▸ hm))

/-- A task that is over has sent one message. -/
theorem Run.attempts_of_over (fresh : st₀.Fresh) (run : Run st₀ tr st) (measured : tr.Measured)
    {n : Nat} {r : Request} (requested : .requested n r ∈ tr)
    (gone : st.server.handlings[n]? = none) : (tr.attempts n).length = 1 :=
  Nat.le_antisymm (run.attempts_le fresh n)
    (List.length_pos_iff.2 (run.attempts_ne_nil fresh measured requested gone))

end Stage

/-! ## When a task is over -/

namespace Handling

/-- Nothing that a request still goes through has to wait: its arguments are turned down, its method
    has ended, or its answer is on its way. -/
inductive Phase.Ended : Phase → Prop where
  | rejected {args : List WireValue} {f : Failure} (bad : plainArgs args = .error f) :
      Ended (.received args)
  | ended (e : Ending) : Ended (.running (.ends e))
  | replying (r : Reply) : Ended (.replying r)

/-- How many steps a request can take at most once its method has ended. -/
def Phase.remaining : Phase → Nat
  | .replying r => r.remaining + 1
  | _ => 5

/-- A task has five steps to go at most. -/
theorem Phase.remaining_le (p : Phase) : p.remaining ≤ 5 := by
  cases p with
  | replying r => cases r <;> simp [remaining, Reply.remaining]
  | _ => exact Nat.le_refl 5

/-- A task that is there has a step to go. -/
private theorem Phase.remaining_pos (p : Phase) : 0 < p.remaining := by
  cases p <;> simp [remaining]

variable {st st₁ : Stage} {clock : Nat} {h : Handling} {phase : Option Phase}

/-- A request whose method has ended does not wait. -/
private theorem Phase.Ended.moves (ended : h.phase.Ended) (st : Stage) (clock : Nat) :
    (st.advance? clock h).isSome := by
  obtain ⟨client, id, method, p⟩ := h
  cases ended with
  | rejected bad => simp only [Stage.advance?, bad, Option.isSome_some]
  | ended e => rfl
  | replying r =>
    simp only [Stage.advance?]
    split <;> rfl

/-- With every step it gets nearer to its end. -/
private theorem Phase.Ended.step (ended : h.phase.Ended)
    (steps : st.advance? clock h = some (phase, st₁)) :
    ∀ p, phase = some p → p.Ended ∧ p.remaining < h.phase.remaining := by
  rintro p rfl
  obtain ⟨client, id, method, q⟩ := h
  -- An answer that starts on its way has five steps before it; each further one is one of those.
  cases ended with
  | rejected bad =>
    simp only [Stage.advance?, bad, Option.some.injEq, Prod.mk.injEq] at steps
    obtain ⟨rfl, -⟩ := steps
    exact ⟨.replying _, Nat.lt_succ_self 4⟩
  | ended e =>
    simp only [Stage.advance?, Stage.answer_fst, Option.some.injEq, Prod.mk.injEq] at steps
    obtain ⟨rfl, -⟩ := steps
    exact ⟨.replying _, Nat.lt_succ_self 4⟩
  | replying r =>
    simp only [Stage.advance?] at steps
    split at steps
    · next r' st' go =>
      simp only [Option.some.injEq, Prod.mk.injEq] at steps
      obtain ⟨rfl, -⟩ := steps
      exact ⟨.replying r', Nat.succ_lt_succ (Reply.remaining_step go)⟩
    · simp at steps

end Handling

namespace Stage

variable {st₀ st st' : Stage} {tr es : ServerTrace} {n k : Nat}

/-- Whether this is the turn of a request. -/
def Turn.ofRequest (n : Nat) : Turn → Bool
  | .handle _ m => m = n
  | _ => false

/-- The method of this request has ended, and it takes so many steps at most. -/
def Ending (st : Stage) (n k : Nat) : Prop :=
  ∀ h, st.server.handlings[n]? = some h → h.phase.Ended ∧ h.phase.remaining ≤ k

/-- A task with no turn left is gone. -/
private theorem Ending.gone (ending : st.Ending n 0) : st.server.handlings[n]? = none := by
  cases hn : st.server.handlings[n]? with
  | none => rfl
  | some h => exact absurd (ending h hn).2 (Nat.not_le_of_lt h.phase.remaining_pos)

/-- A request that goes on has fewer steps to take. -/
private theorem Ending.go {clock : Nat} {h : Handling} {phase : Option Handling.Phase} {st₁ : Stage}
    (ending : st.Ending n (k + 1)) (found : st.server.handlings[n]? = some h)
    (steps : st.advance? clock h = some (phase, st₁))
    (left : st'.server.handlings[n]? = phase.map fun phase => { h with phase }) :
    st'.Ending n k := by
  intro h' hh'
  rw [left] at hh'
  obtain ⟨p, rfl, rfl⟩ := Option.map_eq_some_iff.1 hh'
  obtain ⟨ended, hle⟩ := ending h found
  obtain ⟨ended', hlt⟩ := ended.step steps p rfl
  exact ⟨ended', Nat.le_of_lt_succ (Nat.lt_of_lt_of_le hlt hle)⟩

/-- A task that ends within some turns ends within more. -/
private theorem Ending.mono {k' : Nat} (ending : st.Ending n k) (hle : k ≤ k') : st.Ending n k' :=
  fun h hh => ⟨(ending h hh).1, (ending h hh).2.trans hle⟩

/-- Whatever happens, a request whose method has ended does not get farther from its end. -/
private theorem Ending.step (ending : st.Ending n k) (old : n < st.server.nextTask)
    (next : Step st es st') : st'.Ending n k := by
  cases next.affects n with
  | idle same quiet => exact fun h hh => ending h (same ▸ hh)
  -- Its number is in use, so no new task takes it.
  | come events hn left => exact absurd hn (Nat.ne_of_lt old)
  | go found steps events left =>
    exact ((ending.mono (Nat.le_succ k)).go found steps left).mono (Nat.le_refl k)

/-- The number of a task that was given a request stays in use. -/
private theorem Run.lt_of_requested (fresh : st₀.Fresh) (run : Run st₀ tr st) {r : Request}
    (requested : .requested n r ∈ tr) : n < st.server.nextTask :=
  (run.told fresh).lt_of_requested requested

/-- A task that ends within some turns does so whatever else happens. -/
private theorem Run.ending (fresh : st₀.Fresh) (run : Run st₀ tr st) {r : Request}
    (requested : .requested n r ∈ tr) (ending : st.Ending n k) {later : ServerTrace}
    (after : Run st later st') : st'.Ending n k := by
  induction after with
  | refl => exact ending
  | step after next ih =>
    refine ih.step ?_ next
    exact (run.trans after).lt_of_requested fresh (List.mem_append_left _ requested)

/-- What the turn of a request leaves. -/
theorem turn_handle {clock : Nat} {h : Handling} {phase : Option Handling.Phase} {st₁ : Stage}
    (found : st.server.handlings[n]? = some h)
    (steps : st.advance? clock h = some (phase, st₁)) :
    (st.turn (.handle clock n)).2 = st₁.putHandling n h phase := by
  have hgo : st.handle? clock n = some (st₁.putHandling n h phase) := by
    simp only [handle?, found, steps, Option.bind_eq_bind, Option.bind_some]
    cases phase <;> rfl
  simp only [turn, tryMove, move?, found, hgo, Option.bind_some, Option.map_some, Option.getD_some]

/-- The turn of a request whose method has ended takes it nearer to its end. -/
private theorem Ending.turn (ending : st.Ending n (k + 1)) {t : Turn} (own : t.ofRequest n = true) :
    (st.turn t).2.Ending n k := by
  cases t with
  | handle clock m =>
    obtain rfl : m = n := of_decide_eq_true own
    cases hm : st.server.handlings[m]? with
    | none =>
      intro h hh
      simp only [Stage.turn, tryMove, move?, hm, Option.bind_none, Option.getD_none] at hh
      cases hh
    | some h =>
      -- It does not wait, so its turn is a step.
      obtain ⟨⟨phase, st₁⟩, steps⟩ := Option.isSome_iff_exists.1 ((ending h hm).1.moves st clock)
      rw [turn_handle hm steps]
      refine ending.go hm steps ?_
      rw [handlings_putHandling, if_pos rfl]
  | _ => cases own

/-- With enough turns a request whose method has ended is over. -/
theorem Run.over_of_turns (fresh : st₀.Fresh) (run : Run st₀ tr st) {r : Request}
    (requested : .requested n r ∈ tr) (ending : st.Ending n k) (ts : List Turn)
    (enough : k ≤ ts.countP (Turn.ofRequest n)) : (st.carry ts).2.server.handlings[n]? = none := by
  -- on the schedule; own turns take the bound down, and other turns leave it
  induction ts generalizing tr st k with
  | nil =>
    obtain rfl : k = 0 := Nat.le_zero.1 enough
    exact ending.gone
  | cons t ts ih =>
    have run' := run.trans (st.turn_run t)
    have requested' := List.mem_append_left (st.turn t).1 requested
    by_cases own : t.ofRequest n = true
    · rw [List.countP_cons_of_pos own] at enough
      refine ih run' requested' (k := k - 1) (Ending.turn (ending.mono ?_) own) (by omega)
      omega
    · rw [List.countP_cons_of_neg own] at enough
      exact ih run' requested' (run.ending fresh requested ending (st.turn_run t)) enough

end Stage

end StreamRpc
