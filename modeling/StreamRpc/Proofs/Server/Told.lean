import StreamRpc.Proofs.Server.Story

/-! # Every task has its story

Along a run, what is told of each task is the story of the phase it is in; of a task that is over it
is a story that has come to its end, and of one that does not exist yet nothing is told.

* `Stage.Told.step`   one step keeps it so
* `Stage.Run.told`    and so does a run
-/

namespace StreamRpc

/-- What is told of a request fits what the server has of it. -/
def Handling.Told (n : Nat) (L : ServerTrace) : Option Handling → Prop
  | some h =>
    ∃ r : Request, r.replyTo = h.client ∧ r.id = h.id ∧ r.method = h.method ∧
      Handling.Story n r (some h.phase) L
  | none => L = [] ∨ ∃ r, Handling.Story n r none L

/-- What is told of a stream fits what the server has of it. -/
def Forwarding.Told (n : Nat) (L : ServerTrace) : Option Forwarding → Prop
  | some f =>
    ∃ sub : Subscription, f.id = sub.id ∧ f.source = sub.source ∧
      Forwarding.Story n f.client sub (some f.phase) L
  | none => L = [] ∨ ∃ client sub, Forwarding.Story n client sub none L

namespace Stage

/-- What is told of every task fits what the server has of it. -/
structure Told (tr : ServerTrace) (st : Stage) : Prop where
  handlings : ∀ n, Handling.Told n (tr.of (.handling n)) st.server.handlings[n]?
  forwardings : ∀ n, Forwarding.Told n (tr.of (.forwarding n)) st.server.forwardings[n]?
  /-- Numbers from the next one on are not in use. -/
  unborn : ∀ n, st.server.nextTask ≤ n →
    st.server.handlings[n]? = none ∧ st.server.forwardings[n]? = none ∧
      tr.of (.handling n) = [] ∧ tr.of (.forwarding n) = []

/-- A server that has not done anything yet. -/
structure Fresh (st : Stage) : Prop where
  mux : st.server.mux = {}
  handlings : st.server.handlings = ∅
  forwardings : st.server.forwardings = ∅

/-- A stage that is fresh has had nothing told of it. -/
private theorem Fresh.told {st : Stage} (h : st.Fresh) : Told [] st where
  handlings n := by
    rw [h.handlings]
    exact .inl rfl
  forwardings n := by
    rw [h.forwardings]
    exact .inl rfl
  unborn n _ := by
    rw [h.handlings, h.forwardings]
    exact ⟨rfl, rfl, rfl, rfl⟩

/-! ## Starting tasks -/

/-- Two servers have the same tasks. -/
structure SameTasks (s s' : Server) : Prop where
  handlings : s'.handlings = s.handlings
  forwardings : s'.forwardings = s.forwardings
  nextTask : s'.nextTask = s.nextTask

/-- A server has its own tasks. -/
theorem SameTasks.refl (s : Server) : SameTasks s s :=
  ⟨rfl, rfl, rfl⟩

/-- A step that changes no task and tells of none keeps what is told. -/
private theorem Told.of_same {tr tr' : ServerTrace} {st st' : Stage} (h : Told tr st)
    (same : SameTasks st.server st'.server) (hof : ∀ w, tr'.of w = tr.of w) : Told tr' st' where
  handlings n := by
    rw [hof, same.handlings]
    exact h.handlings n
  forwardings n := by
    rw [hof, same.forwardings]
    exact h.forwardings n
  unborn n hn := by
    rw [hof, hof, same.handlings, same.forwardings]
    rw [same.nextTask] at hn
    exact h.unborn n hn

/-- A task that begins has told that it did. -/
private theorem Told.startOne {tr : ServerTrace} {st : Stage} (h : Told tr st) (client : String)
    (sub : Subscription) :
    Told (tr ++ [.began st.server.nextTask client sub])
      { st with server := startOne client st.server sub } where
  handlings n := by
    rw [ServerTrace.of_append]
    simp only [ServerTrace.of_cons, ServerTrace.of_nil, ServerEvent.worker?, Option.some.injEq,
      reduceCtorEq, if_false, List.append_nil]
    exact h.handlings n
  forwardings n := by
    rw [ServerTrace.of_append]
    show Forwarding.Told n _ (st.server.forwardings.insert _ _)[n]?
    rw [Std.ExtTreeMap.getElem?_insert]
    by_cases hn : st.server.nextTask = n
    · subst hn
      -- The number is new, so nothing has been told of its task.
      have hnone := (h.unborn _ (Nat.le_refl _)).2.2.2
      simp only [Std.compare_self, if_true, hnone]
      exact ⟨sub, rfl, rfl, by simpa using Forwarding.Story.waiting .none⟩
    · have hc : ¬ compare st.server.nextTask n = .eq := by
        rwa [Std.compare_eq_iff_eq]
      simpa [hc, hn] using h.forwardings n
  -- Tasks with later numbers are still unborn.
  unborn n hn := by
    have hn' : st.server.nextTask + 1 ≤ n := hn
    have hne : ¬ st.server.nextTask = n := by omega
    obtain ⟨h1, h2, h3, h4⟩ := h.unborn n (by omega)
    rw [ServerTrace.of_append, ServerTrace.of_append]
    refine ⟨h1, ?_, by simpa using h3, by simpa [hne] using h4⟩
    show (st.server.forwardings.insert _ _)[n]? = none
    rw [Std.ExtTreeMap.getElem?_insert, if_neg (by rwa [Std.compare_eq_iff_eq]), h2]

/-- The streams that a server starts wait for their first items. -/
private theorem Told.start {tr : ServerTrace} {st : Stage} (h : Told tr st) (client : String)
    (subs : List Subscription) :
    Told (tr ++ begun client st.server.nextTask subs) (st.start client subs) := by
  induction subs generalizing tr st with
  | nil =>
    rw [begun, List.append_nil]
    exact h
  | cons sub subs ih =>
    have := ih (h.startOne client sub)
    rwa [List.append_assoc] at this

/-- Starting tasks takes no number back. -/
private theorem le_nextTask_start (st : Stage) (client : String) (subs : List Subscription) :
    st.server.nextTask ≤ (st.start client subs).server.nextTask := by
  induction subs generalizing st with
  | nil => exact Nat.le_refl _
  | cons sub subs ih =>
    have := ih { st with server := Stage.startOne client st.server sub }
    exact Nat.le_trans (Nat.le_succ _) this

/-- Starting streams leaves the requests as they are. -/
theorem handlings_start (st : Stage) (client : String) (subs : List Subscription) :
    (st.start client subs).server.handlings = st.server.handlings := by
  induction subs generalizing st with
  | nil => rfl
  | cons sub subs ih => exact ih { st with server := Stage.startOne client st.server sub }

/-- Starting streams leaves the older ones as they are. -/
theorem forwardings_start_of_lt (st : Stage) (client : String) (subs : List Subscription)
    {n : Nat} (hn : n < st.server.nextTask) :
    (st.start client subs).server.forwardings[n]? = st.server.forwardings[n]? := by
  induction subs generalizing st with
  | nil => rfl
  | cons sub subs ih =>
    refine (ih { st with server := Stage.startOne client st.server sub }
      (Nat.lt_succ_of_lt hn)).trans ?_
    show (st.server.forwardings.insert _ _)[n]? = _
    -- The tasks that start get numbers from `nextTask` on.
    have hne : ¬ st.server.nextTask = n := by omega
    rw [Std.ExtTreeMap.getElem?_insert, if_neg (by rwa [Std.compare_eq_iff_eq])]

/-! ## What a step does to the other tasks -/

/-- A step of an answer starts the streams in it or no tasks at all, and tells only of those and of
    itself. -/
private theorem step_tasks {client : String} {id : CallId} {st st' : Stage} {reply : Reply}
    {next : Reply ⊕ Except CallError Unit} {es : ServerTrace} {n : Nat}
    (does : reply.Does (.handling n) client id st es next st') :
    ∃ subs, SameTasks (st.start client subs).server st'.server ∧
      ∀ w, w ≠ .handling n → ServerTrace.of es w =
        ServerTrace.of (begun client st.server.nextTask subs) w := by
  cases does with
  | start subs => exact ⟨subs, .refl _, fun w hw => by simp [Ne.symm hw]⟩
  | _ => exact ⟨[], ⟨rfl, rfl, rfl⟩, fun w hw => by simp [begun, Ne.symm hw]⟩

/-- A step of a request starts streams or no tasks at all, and tells only of those and of itself. -/
theorem advance_tasks {clock n : Nat} {st st' : Stage} {h : Handling}
    {phase : Option Handling.Phase} (go : st.advance? clock h = some (phase, st')) :
    ∃ subs, SameTasks (st.start h.client subs).server st'.server ∧
      ∀ w, w ≠ .handling n → ServerTrace.of (st.handlingEvents n h) w =
        ServerTrace.of (begun h.client st.server.nextTask subs) w := by
  have does := Handling.does n go
  generalize st.handlingEvents n h = es at does ⊢
  -- Only a reply starts tasks; an answer makes the sources that are in it and nothing else.
  cases does with
  | answer =>
    refine ⟨[], ?_, fun w hw => by simp [begun, Ne.symm hw]⟩
    rw [server_answer]
    exact .refl _
  | reply _ does => exact step_tasks does
  | finish _ does => exact step_tasks does
  | _ => exact ⟨[], .refl _, fun w hw => by simp [begun, Ne.symm hw]⟩

/-- A step of passing on a stream starts streams or no tasks at all, and tells only of those and of
    itself. -/
theorem pass_tasks {n : Nat} {st : Stage} {f : Forwarding} {o : Forwarding.Outcome}
    (go : f.step? st = some o) :
    ∃ subs, SameTasks (st.start f.client subs).server o.stage.server ∧
      ∀ w, w ≠ .forwarding n → ServerTrace.of (st.forwardingEvents n f) w =
        ServerTrace.of (begun f.client st.server.nextTask subs) w := by
  have does := Forwarding.does n go
  generalize st.forwardingEvents n f = es at does ⊢
  -- Only a message that was taken starts tasks.
  cases does with
  | start => exact ⟨_, .refl _, fun w hw => by simp [Ne.symm hw]⟩
  | @expose event =>
    refine ⟨[], ?_, fun w hw => by simp [begun, Ne.symm hw]⟩
    cases event <;> exact ⟨rfl, rfl, rfl⟩
  | tell => exact ⟨[], .refl _, fun w hw => by simp [sending, begun, Ne.symm hw]⟩
  | _ => exact ⟨[], ⟨rfl, rfl, rfl⟩, fun w hw => by simp [begun, Ne.symm hw]⟩

/-! ## Runs -/

/-- A request that is there has a number that was given out. -/
private theorem Told.lt_of_handling {tr : ServerTrace} {st : Stage} (h : Told tr st) {n : Nat}
    {x : Handling} (hx : st.server.handlings[n]? = some x) : n < st.server.nextTask := by
  refine Nat.lt_of_not_le fun hn => ?_
  have := (h.unborn n hn).1
  rw [hx] at this
  cases this

/-- A stream that is there has a number that was given out. -/
theorem Told.lt_of_forwarding {tr : ServerTrace} {st : Stage} (h : Told tr st) {n : Nat}
    {x : Forwarding} (hx : st.server.forwardings[n]? = some x) : n < st.server.nextTask := by
  refine Nat.lt_of_not_le fun hn => ?_
  have := (h.unborn n hn).2.1
  rw [hx] at this
  cases this

/-- What a step of a request tells goes on with its story, and with no other. -/
private theorem Told.handle {tr : ServerTrace} {st st₁ : Stage} (told : Told tr st) {clock n : Nat}
    {h : Handling} {phase : Option Handling.Phase} (found : st.server.handlings[n]? = some h)
    (steps : st.advance? clock h = some (phase, st₁)) :
    Told (tr ++ st.handlingEvents n h) (st₁.putHandling n h phase) := by
  obtain ⟨subs, same, hof⟩ := advance_tasks (n := n) steps
  -- For all other tasks the step only starts the tasks of the streams in the answer.
  have started := told.start h.client subs
  have hlt := told.lt_of_handling found
  -- Its own story goes on by one step.
  have hown : Handling.Told n (ServerTrace.of (tr ++ st.handlingEvents n h) (.handling n))
      (phase.map fun phase => { h with phase }) := by
    have := told.handlings n
    rw [found] at this
    obtain ⟨r, hc, hi, hm, story⟩ := this
    rw [ServerTrace.of_append]
    have := story.step hc hi hm steps
    cases phase with
    | some phase => exact ⟨r, hc, hi, hm, this⟩
    | none => exact .inr ⟨r, this⟩
  have hother : ∀ w, w ≠ .handling n → ServerTrace.of (tr ++ st.handlingEvents n h) w =
      ServerTrace.of (tr ++ begun h.client st.server.nextTask subs) w := by
    intro w hw
    rw [ServerTrace.of_append, ServerTrace.of_append, hof w hw]
  have hget : ∀ m, (st₁.putHandling n h phase).server.handlings[m]? =
      if n = m then phase.map fun phase => { h with phase } else st.server.handlings[m]? := by
    intro m
    rw [handlings_putHandling, same.handlings, handlings_start]
  constructor
  · intro m
    rw [hget m]
    by_cases hm : n = m
    · subst hm
      rw [if_pos rfl]
      exact hown
    · rw [if_neg hm, hother _ (by simpa using Ne.symm hm)]
      have := started.handlings m
      rwa [handlings_start] at this
  · intro m
    show Forwarding.Told m _ st₁.server.forwardings[m]?
    rw [same.forwardings, hother _ (by simp)]
    exact started.forwardings m
  · intro m hm
    have hm' : (st.start h.client subs).server.nextTask ≤ m := by
      rw [← same.nextTask]
      exact hm
    have hle := le_nextTask_start st h.client subs
    have hne : ¬ n = m := by omega
    obtain ⟨h1, h2, h3, h4⟩ := started.unborn m hm'
    rw [handlings_start] at h1
    refine ⟨?_, ?_, ?_, ?_⟩
    · rw [hget m, if_neg hne, h1]
    · show st₁.server.forwardings[m]? = none
      rw [same.forwardings, h2]
    · rw [hother _ (by simpa using Ne.symm hne), h3]
    · rw [hother _ (by simp), h4]

/-- What a step of a stream tells goes on with its story, and with no other. -/
private theorem Told.forward {tr : ServerTrace} {st : Stage} (told : Told tr st) {n : Nat}
    {f : Forwarding} {o : Forwarding.Outcome} (found : st.server.forwardings[n]? = some f)
    (steps : f.step? st = some o) :
    Told (tr ++ st.forwardingEvents n f) (o.stage.putForwarding n f o.phase) := by
  obtain ⟨subs, same, hof⟩ := pass_tasks (n := n) steps
  -- For all other tasks the step only starts the tasks of the streams in the item.
  have started := told.start f.client subs
  have hlt := told.lt_of_forwarding found
  -- Its own story goes on by one step.
  have hown : Forwarding.Told n (ServerTrace.of (tr ++ st.forwardingEvents n f) (.forwarding n))
      (o.phase.map fun phase => { f with phase }) := by
    have := told.forwardings n
    rw [found] at this
    obtain ⟨sub, hi, hs, story⟩ := this
    rw [ServerTrace.of_append]
    have := story.step hlt rfl hi hs steps
    cases hph : o.phase with
    | some phase => exact ⟨sub, hi, hs, hph ▸ this⟩
    | none => exact .inr ⟨f.client, sub, hph ▸ this⟩
  have hother : ∀ w, w ≠ .forwarding n → ServerTrace.of (tr ++ st.forwardingEvents n f) w =
      ServerTrace.of (tr ++ begun f.client st.server.nextTask subs) w := by
    intro w hw
    rw [ServerTrace.of_append, ServerTrace.of_append, hof w hw]
  have hget : ∀ m, (o.stage.putForwarding n f o.phase).server.forwardings[m]? =
      if n = m then o.phase.map fun phase => { f with phase }
      else (st.start f.client subs).server.forwardings[m]? := by
    intro m
    rw [forwardings_putForwarding, same.forwardings]
  constructor
  · intro m
    show Handling.Told m _ o.stage.server.handlings[m]?
    rw [same.handlings, hother _ (by simp)]
    exact started.handlings m
  · intro m
    rw [hget m]
    by_cases hm : n = m
    · subst hm
      rw [if_pos rfl]
      exact hown
    · rw [if_neg hm, hother _ (by simpa using Ne.symm hm)]
      exact started.forwardings m
  · intro m hm
    have hm' : (st.start f.client subs).server.nextTask ≤ m := by
      rw [← same.nextTask]
      exact hm
    have hle := le_nextTask_start st f.client subs
    have hne : ¬ n = m := by omega
    obtain ⟨h1, h2, h3, h4⟩ := started.unborn m hm'
    refine ⟨?_, ?_, ?_, ?_⟩
    · show o.stage.server.handlings[m]? = none
      rw [same.handlings, h1]
    · rw [hget m, if_neg hne, h2]
    · rw [hother _ (by simp), h3]
    · rw [hother _ (by simpa using Ne.symm hne), h4]

/-- A request is the beginning of the story of a new task. -/
private theorem Told.request {tr : ServerTrace} {st : Stage} (told : Told tr st) (e : Envelope)
    (r : Request) :
    Told (tr ++ [.served e, .requested st.server.nextTask r])
      (st.setServer { st.server with
        handlings := st.server.handlings.insert st.server.nextTask
          { client := r.replyTo, id := r.id, method := r.method, phase := .received r.args }
        nextTask := st.server.nextTask + 1 }) := by
  -- The event is the first in the story of a new task, and is in no other.
  have hof : ∀ w, ServerTrace.of (tr ++ .served e :: [.requested st.server.nextTask r]) w =
      tr.of w ++ if w = .handling st.server.nextTask then [.requested st.server.nextTask r]
        else [] := by
    intro w
    rw [ServerTrace.of_append]
    by_cases hw : w = .handling st.server.nextTask <;> simp [hw, eq_comm]
  constructor
  · intro n
    show Handling.Told n _ (st.server.handlings.insert _ _)[n]?
    rw [hof, Std.ExtTreeMap.getElem?_insert]
    by_cases hn : st.server.nextTask = n
    · subst hn
      -- Nothing was told of a task with this number.
      have hnone := (told.unborn _ (Nat.le_refl _)).2.2.1
      simp only [Std.compare_self, if_true, hnone, List.nil_append]
      exact ⟨r, rfl, rfl, rfl, .received⟩
    · have hne : ¬ n = st.server.nextTask := fun h => hn h.symm
      simpa [hn, hne] using told.handlings n
  · intro n
    rw [hof, if_neg (by simp), List.append_nil]
    exact told.forwardings n
  · intro n hn
    have hn' : st.server.nextTask + 1 ≤ n := hn
    have hne : ¬ st.server.nextTask = n := by omega
    have hne' : ¬ n = st.server.nextTask := by omega
    obtain ⟨h1, h2, h3, h4⟩ := told.unborn n (by omega)
    rw [hof, hof]
    refine ⟨?_, h2, by simpa [hne'] using h3, by simpa using h4⟩
    show (st.server.handlings.insert _ _)[n]? = none
    rw [Std.ExtTreeMap.getElem?_insert, if_neg (by rwa [Std.compare_eq_iff_eq]), h1]

/-- One step keeps what is told of every task in line with what the server has of it. -/
theorem Told.step {tr es : ServerTrace} {st st' : Stage} (told : Told tr st)
    (next : Step st es st') : Told (tr ++ es) st' := by
  cases next.does with
  | @request _ e r => exact (told.request e r).of_same ⟨rfl, rfl, rfl⟩ fun _ => rfl
  | handle found steps => exact told.handle found steps
  | forward found steps => exact told.forward found steps
  | around same =>
    rw [List.append_nil]
    exact told.of_same ⟨same.handlings, same.forwardings, same.nextTask⟩ fun _ => rfl
  -- What else a server does leaves its tasks alone.
  | _ => exact told.of_same ⟨rfl, rfl, rfl⟩ fun w => by simp [ServerTrace.of_append]

/-- Along a run, what is told of every task is in line with what the server has of it. -/
theorem Run.told {st₀ st : Stage} {tr : ServerTrace} (fresh : st₀.Fresh) (run : Run st₀ tr st) :
    Told tr st := by
  induction run with
  | refl => exact fresh.told
  | step _ next ih => exact ih.step next

end Stage

end StreamRpc
