import StreamRpc.Proofs.Server.Told

/-! # What a server hears

A request, and what clients do not want any more, came in an envelope that the server took off its
queue; and nothing in such an envelope is overlooked.

* `Stage.Run.of_requested`, `Stage.Run.of_closed`   what was heard came in an envelope
* `Stage.Run.closed_of_served`                      what came in an envelope was heard
-/

namespace StreamRpc

/-- The server heard this from outside. -/
def ServerEvent.heard : ServerEvent → Bool
  | served _ => true
  | requested _ _ => true
  | closed _ => true
  | departed _ => true
  | withdrawn _ => true
  | _ => false

namespace Stage

/-- Tasks that begin hear nothing. -/
private theorem heard_begun (client : String) (k : Nat) (subs : List Subscription) :
    ∀ x ∈ begun client k subs, x.heard = false := by
  induction subs generalizing k with
  | nil => simp [begun]
  | cons sub subs ih =>
    intro x hx
    rcases List.mem_cons.1 hx with rfl | hx
    · rfl
    · exact ih (k + 1) x hx

/-- A task that writes a message hears nothing. -/
private theorem heard_writing (m : ServerMessage) (w : Worker) (client : String)
    (subs : List Subscription) : ∀ x ∈ m.writing w client subs, x.heard = false := by
  unfold ServerMessage.writing
  split <;> simp [ServerEvent.heard]

/-- Tasks that are started hear nothing. -/
private theorem heard_started (w : Worker) (client : String) (k : Nat) (subs : List Subscription) :
    ∀ x ∈ .started w subs :: begun client k subs, x.heard = false := by
  intro x hx
  rcases List.mem_cons.1 hx with rfl | hx
  · rfl
  · exact heard_begun client k subs x hx

/-- A handling task's step hears nothing. -/
theorem heard_handling (st : Stage) (n : Nat) (h : Handling) :
    ∀ x ∈ st.handlingEvents n h, x.heard = false := by
  unfold handlingEvents
  split
  · split <;> simp [ServerEvent.heard]
  · simp [ServerEvent.heard]
  · next r _ =>
    cases r with
    | answered result => cases result <;> simp [replyEvents, ServerEvent.heard]
    | exposed result subs => exact heard_writing _ _ _ _
    | encoded e subs => simp [replyEvents, sending, ServerEvent.heard]
    | accepted subs => exact heard_started _ _ _ _
    | refused err subs => simp [replyEvents, ServerEvent.heard]
  · simp

/-- A forwarding task's step hears nothing. -/
theorem heard_forwarding (st : Stage) (n : Nat) (f : Forwarding) :
    ∀ x ∈ st.forwardingEvents n f, x.heard = false := by
  unfold forwardingEvents
  dsimp only
  -- One case for each phase; only the endpoint itself hears of anything.
  split
  · unfold pullEvents
    split
    · split <;> simp [ServerEvent.heard]
    · simp
  · simp
  · simp [ServerEvent.heard]
  · exact heard_writing _ _ _ _
  · simp [sending, ServerEvent.heard]
  · exact heard_started _ _ _ _
  · simp [ServerEvent.heard]
  · split <;> simp [sending, ServerEvent.heard]
  · simp [ServerEvent.heard]

/-- Reading the server's queue is all hearing. -/
theorem heard_serveEvents (st : Stage) : ∀ x ∈ st.serveEvents, x.heard = true := by
  -- A message that is read is told of as such, whatever it turns out to ask for.
  have haccept : ∀ e, ∀ x ∈ st.acceptEvents e, x.heard = true := by
    intro e
    unfold acceptEvents
    cases ClientMessage.ofEnvelope e with
    | error err => simp [ServerEvent.heard]
    | ok m => cases m <;> simp [ServerEvent.heard]
  unfold serveEvents
  split
  · next e _ _ => exact haccept e
  · simp

/-- A step is that of a task, for a request or for a stream. -/
inductive Works (st st' : Stage) : ServerTrace → Prop where
  | handle {clock n : Nat} {h : Handling} {phase : Option Handling.Phase} {st₁ : Stage}
      (found : st.server.handlings[n]? = some h) (steps : st.advance? clock h = some (phase, st₁))
      (left : st' = st₁.putHandling n h phase) : Works st st' (st.handlingEvents n h)
  | forward {n : Nat} {f : Forwarding} {o : Forwarding.Outcome}
      (found : st.server.forwardings[n]? = some f) (steps : f.step? st = some o)
      (left : st' = o.stage.putForwarding n f o.phase) : Works st st' (st.forwardingEvents n f)

/-- What a server did not hear from outside is told of its tasks. -/
theorem Step.works {st st' : Stage} {es : ServerTrace} (next : Step st es st') {x : ServerEvent}
    (hx : x ∈ es) (unheard : x.heard = false) : Works st st' es := by
  cases next.does with
  | handle found steps => exact .handle found steps rfl
  | forward found steps => exact .forward found steps rfl
  | lose | around => cases hx
  -- All else that is told of a step was heard.
  | request | cancel | ignore | depart | withdraw =>
    simp only [List.mem_cons, List.not_mem_nil, or_false] at hx
    rcases hx with rfl | rfl <;> cases unheard

/-- A request came in a message. -/
theorem Step.of_requested {st st' : Stage} {es : ServerTrace} (next : Step st es st') {n : Nat}
    {r : Request} (h : .requested n r ∈ es) : n = st.server.nextTask ∧
      ∃ e, es = [.served e, .requested n r] ∧ ClientMessage.ofEnvelope e = .ok (.request r) := by
  cases next.does with
  | @request _ e _ _ _ _ means =>
    simp only [List.mem_cons, reduceCtorEq, ServerEvent.requested.injEq, List.not_mem_nil,
      or_false, false_or] at h
    obtain ⟨rfl, rfl⟩ := h
    exact ⟨rfl, e, rfl, means⟩
  | handle => cases heard_handling _ _ _ _ h
  | forward => cases heard_forwarding _ _ _ _ h
  | _ => simp at h

/-- What clients do not want any more came in a message. -/
theorem Step.of_closed {st st' : Stage} {es : ServerTrace} (next : Step st es st')
    {ids : List StreamId} (h : .closed ids ∈ es) :
    ∃ e, es = [.served e, .closed ids] ∧ ClientMessage.ofEnvelope e = .ok (.closed ids) := by
  cases next.does with
  | @cancel _ e _ _ _ _ means =>
    simp only [List.mem_cons, reduceCtorEq, ServerEvent.closed.injEq, List.not_mem_nil,
      or_false, false_or] at h
    subst h
    exact ⟨e, rfl, means⟩
  | handle => cases heard_handling _ _ _ _ h
  | forward => cases heard_forwarding _ _ _ _ h
  | _ => simp at h

/-- An envelope that was taken off the queue was looked into. -/
private theorem Step.of_served {st st' : Stage} {es : ServerTrace} (next : Step st es st')
    {e : Envelope}
    (h : .served e ∈ es) : es = st.acceptEvents e := by
  cases next.does with
  | request _ _ means | cancel _ _ means | ignore _ _ means =>
    obtain rfl : e = _ := by simpa using h
    simp only [acceptEvents, means]
  | handle => cases heard_handling _ _ _ _ h
  | forward => cases heard_forwarding _ _ _ _ h
  | _ => simp at h

variable {st₀ st : Stage} {tr : ServerTrace}

/-- Whatever is told of a run was told of one of its steps. -/
private theorem Run.step_of_mem (run : Run st₀ tr st) {x : ServerEvent} (hx : x ∈ tr) :
    ∃ st₁ es st₂, Step st₁ es st₂ ∧ x ∈ es ∧ ∀ y ∈ es, y ∈ tr := by
  obtain ⟨pre, post, htr⟩ := List.append_of_mem hx
  obtain ⟨tr₁, st₁, front, back, st₂, -, next, rfl, tr₂, -, rfl⟩ := run.at htr
  refine ⟨st₁, _, st₂, next, by simp, fun y hy => ?_⟩
  rw [htr, List.append_assoc, ← List.cons_append, ← List.append_assoc front]
  exact List.mem_append_right _ (List.mem_append_left _ hy)

/-- A request that was begun was served. -/
theorem Run.of_requested (run : Run st₀ tr st) {n : Nat} {r : Request}
    (h : .requested n r ∈ tr) :
    ∃ e, .served e ∈ tr ∧ ClientMessage.ofEnvelope e = .ok (.request r) := by
  obtain ⟨st₁, es, st₂, next, hx, hsub⟩ := run.step_of_mem h
  obtain ⟨-, e, rfl, he⟩ := next.of_requested hx
  exact ⟨e, hsub _ List.mem_cons_self, he⟩

/-- A closing that was noted was served. -/
theorem Run.of_closed (run : Run st₀ tr st) {ids : List StreamId} (h : .closed ids ∈ tr) :
    ∃ e, .served e ∈ tr ∧ ClientMessage.ofEnvelope e = .ok (.closed ids) := by
  obtain ⟨st₁, es, st₂, next, hx, hsub⟩ := run.step_of_mem h
  obtain ⟨e, rfl, he⟩ := next.of_closed hx
  exact ⟨e, hsub _ List.mem_cons_self, he⟩

/-- A closing that was served is noted. -/
theorem Run.closed_of_served (run : Run st₀ tr st) {e : Envelope} (h : .served e ∈ tr)
    {ids : List StreamId} (he : ClientMessage.ofEnvelope e = .ok (.closed ids)) :
    .closed ids ∈ tr := by
  obtain ⟨st₁, es, st₂, next, hx, hsub⟩ := run.step_of_mem h
  have hes := next.of_served hx
  exact hsub _ (by simp [hes, acceptEvents, he])

end Stage

end StreamRpc
