import Mathlib.Data.List.Nodup
import StreamRpc.Proofs.Server.Told

/-! # The streams of a server follow its trace

What can be told of a step says all that the step does to the streams of the server.  So the trace
of a run determines which streams have numbers and which are active for whom.

* `Stage.Step.mux`       the effect of a step is the effect of what is told of it
* `Stage.Run.numbers`    the numbers of a run are the first ones, in order
* `Stage.Run.owner`      who a stream is active for can be read off the trace
-/

namespace StreamRpc

/-- Who a stream is active for, if anybody. -/
def Multiplexer.owner (m : Multiplexer) (id : StreamId) : Option String :=
  (m.tracker.active[id]?).map (·.client)

/-- The streams of a client are those that are active for it. -/
theorem Multiplexer.Sound.mem_ownedBy {m : Multiplexer} (h : m.Sound) (id : StreamId)
    {client : String} : id ∈ m.tracker.ownedBy client ↔ m.owner id = some client := by
  rw [h.books.owned, owner, Option.map_eq_some_iff]

namespace ServerEvent

/-- What an event does to the streams. -/
def effect : ServerEvent → Multiplexer → Multiplexer
  | numbered _ client subs, m => (m.subscribeAll client (subs.map (·.source))).2
  | closed ids, m => m.retireAll ids
  | dropped _ subs, m => m.retireAll (subs.map (·.id))
  | departed client, m => { m with tracker := (m.tracker.retireClient client).2 }
  | finished _ id, m => m.retire id
  | withdrawn id, m => m.retire id
  | _, m => m

/-- The streams that get numbers. -/
def numbers : ServerEvent → List StreamId
  | numbered _ _ subs => subs.map (·.id)
  | _ => []

/-- Who a stream is active for after an event, if anybody. -/
def turn (id : StreamId) (owner : Option String) : ServerEvent → Option String
  | numbered _ client subs => if id ∈ subs.map (·.id) then some client else owner
  | closed ids => if id ∈ ids then none else owner
  | dropped _ subs => if id ∈ subs.map (·.id) then none else owner
  | departed client => if owner = some client then none else owner
  | finished _ other => if id = other then none else owner
  | withdrawn other => if id = other then none else owner
  | _ => owner

end ServerEvent

namespace ServerTrace

/-- The streams that get numbers, in order. -/
def numbers (tr : ServerTrace) : List StreamId :=
  tr.flatMap ServerEvent.numbers

/-- Who a stream is active for in the end, if anybody. -/
def owner (tr : ServerTrace) (id : StreamId) : Option String :=
  tr.foldl (ServerEvent.turn id) none

end ServerTrace

namespace Stage

/-- Numbers go to the streams that are told of. -/
def Numbers (es : ServerTrace) (m m' : Multiplexer) : Prop :=
  m' = es.foldl (fun m x => x.effect m) m ∧
    ∀ w client subs, ServerEvent.numbered w client subs ∈ es →
      es = [.numbered w client subs] ∧ (m.subscribeAll client (subs.map (·.source))).1 = subs

/-- A step that numbers nothing changes the multiplexer by its effects alone. -/
private theorem Numbers.of_idle {es : ServerTrace} {m m' : Multiplexer}
    (hm : m' = es.foldl (fun m x => x.effect m) m)
    (hes : ∀ w client subs, ServerEvent.numbered w client subs ∉ es) : Numbers es m m' :=
  ⟨hm, fun w client subs h => absurd h (hes w client subs)⟩

/-- Exposing a value numbers the streams in it. -/
private theorem numbers_expose (m : Multiplexer) (w : Worker) (client : String) (v : ServerValue) :
    Numbers [.numbered w client (m.expose client v).2.1] m (m.expose client v).2.2 := by
  have hsrc := (m.expose_exposes client v).sources
  have hexp := m.expose_eq client v
  refine ⟨?_, fun w' client' subs h => ?_⟩
  · simp only [List.foldl_cons, List.foldl_nil, ServerEvent.effect, hsrc]
    rw [hexp]
  -- The only numbering among the events is the one that was just made.
  · obtain ⟨rfl, rfl, rfl⟩ : w' = w ∧ client' = client ∧ subs = (m.expose client v).2.1 := by
      simpa using h
    refine ⟨rfl, ?_⟩
    rw [hsrc, ← hexp]

/-- Numbering nothing changes nothing. -/
private theorem numbers_nothing (m : Multiplexer) (w : Worker) (client : String) :
    Numbers [.numbered w client []] m m := by
  refine ⟨rfl, fun w' client' subs h => ?_⟩
  obtain ⟨rfl, rfl, rfl⟩ : w' = w ∧ client' = client ∧ subs = [] := by simpa using h
  exact ⟨rfl, rfl⟩

/-- Tasks that begin do not change the multiplexer. -/
private theorem foldl_begun (client : String) (k : Nat) (subs : List Subscription)
    (m : Multiplexer) :
    (begun client k subs).foldl (fun m x => x.effect m) m = m := by
  induction subs generalizing k with
  | nil => rfl
  | cons sub subs ih => exact ih (k + 1)

/-- Starting tasks does not change the multiplexer. -/
theorem mux_start (st : Stage) (client : String) (subs : List Subscription) :
    (st.start client subs).server.mux = st.server.mux := by
  induction subs generalizing st with
  | nil => rfl
  | cons sub subs ih => exact ih { st with server := Stage.startOne client st.server sub }

/-- Starting tasks numbers nothing. -/
private theorem numbers_started (st : Stage) (w : Worker) (client : String)
    (subs : List Subscription) :
    Numbers (.started w subs :: begun client st.server.nextTask subs) st.server.mux
      (st.start client subs).server.mux := by
  refine .of_idle ?_ fun w' client' subs' h => ?_
  · rw [mux_start, List.foldl_cons]
    exact (foldl_begun client _ subs _).symm
  · obtain h | ⟨_, _, _, _, h⟩ := ServerTrace.mem_started h <;> cases h

/-- What is told of a step of an answer says all that it does to the streams. -/
private theorem step_mux {w : Worker} {client : String} {id : CallId} {st st' : Stage}
    {reply : Reply}
    {next : Reply ⊕ Except CallError Unit} {es : ServerTrace}
    (does : reply.Does w client id st es next st') : Numbers es st.server.mux st'.server.mux := by
  cases does with
  | expose v => exact numbers_expose st.server.mux w client v
  | exposeNone f => exact numbers_nothing st.server.mux w client
  | start subs => exact numbers_started st w client subs
  | _ => exact .of_idle rfl (by simp)

/-- A handling task changes the multiplexer as its events say. -/
private theorem advance_mux {clock n : Nat} {st st' : Stage} {h : Handling}
    {phase : Option Handling.Phase} (go : st.advance? clock h = some (phase, st')) :
    Numbers (st.handlingEvents n h) st.server.mux st'.server.mux := by
  have does := Handling.does n go
  generalize st.handlingEvents n h = es at does ⊢
  -- Before there is an answer the multiplexer stays as it is.
  cases does with
  | answer =>
    rw [server_answer]
    exact .of_idle rfl (by simp)
  | reply _ does => exact step_mux does
  | finish _ does => exact step_mux does
  | _ => exact .of_idle rfl (by simp)

/-- A forwarding task changes the multiplexer as its events say. -/
private theorem pass_mux {n : Nat} {st : Stage} {f : Forwarding} {o : Forwarding.Outcome}
    (go : f.step? st = some o) :
    Numbers (st.forwardingEvents n f) st.server.mux o.stage.server.mux := by
  have does := Forwarding.does n go
  generalize st.forwardingEvents n f = es at does ⊢
  cases does with
  | @expose event =>
    -- An item may hold sources; a terminal holds none.
    cases event with
    | next v => exact numbers_expose st.server.mux _ _ v
    | error failure => exact numbers_nothing st.server.mux _ _
    | completed => exact numbers_nothing st.server.mux _ _
  | start => exact numbers_started st _ _ _
  | tell => exact .of_idle rfl (by simp [sending])
  | _ => exact .of_idle rfl (by simp)

/-- What is told of a step says all that it does to the streams. -/
theorem Step.mux {es : ServerTrace} {st st' : Stage} (next : Step st es st') :
    Numbers es st.server.mux st'.server.mux := by
  cases next.does with
  | @handle _ _ _ _ st₁ _ steps =>
    show Numbers _ _ st₁.server.mux
    exact advance_mux steps
  | @forward _ _ o _ steps =>
    show Numbers _ _ o.stage.server.mux
    exact pass_mux steps
  | around same => exact .of_idle same.mux (by simp)
  -- Only tasks give numbers; what retires streams is told as such.
  | _ => exact .of_idle rfl (by simp)

/-! ## Numbers -/

/-- An event that numbers nothing leaves the count of ids. -/
private theorem numbered_effect {x : ServerEvent} (hx : x.numbers = []) (m : Multiplexer) :
    (x.effect m).numbered = m.numbered := by
  cases x with
  | numbered w client subs =>
    have hsubs : subs = [] := by simpa [ServerEvent.numbers] using hx
    subst hsubs
    rfl
  | _ => rfl

/-- A step that gives no numbers. -/
private theorem numbered_foldl {es : ServerTrace}
    (hes : ∀ w client subs, ServerEvent.numbered w client subs ∉ es) (m : Multiplexer) :
    (es.foldl (fun m x => x.effect m) m).numbered = m.numbered ∧ es.numbers = [] := by
  induction es generalizing m with
  | nil => exact ⟨rfl, rfl⟩
  | cons x es ih =>
    have hx : x.numbers = [] := by
      cases x with
      | numbered w client subs => exact absurd (List.mem_cons_self) (hes w client subs)
      | _ => rfl
    have hrest : ∀ w client subs, ServerEvent.numbered w client subs ∉ es :=
      fun w client subs h => hes w client subs (List.mem_cons_of_mem _ h)
    -- None of the events numbers a stream, so the counter stays where it is.
    obtain ⟨h1, h2⟩ := ih hrest (x.effect m)
    rw [List.foldl_cons, h1, numbered_effect hx]
    refine ⟨rfl, ?_⟩
    rw [ServerTrace.numbers, List.flatMap_cons, hx]
    exact h2

/-- The numbers that a step gives are the next ones. -/
theorem Numbers.next {es : ServerTrace} {m m' : Multiplexer} (h : Numbers es m m') :
    ∃ k, es.numbers = (List.range' m.numbered k).map StreamId.nth ∧
      m'.numbered = m.numbered + k := by
  obtain ⟨hm, hes⟩ := h
  by_cases hx : ∃ w client subs, ServerEvent.numbered w client subs ∈ es
  -- One event gives numbers, and then it is the whole step.
  · obtain ⟨w, client, subs, hx⟩ := hx
    obtain ⟨rfl, hsubs⟩ := hes w client subs hx
    have ⟨h1, h2⟩ := m.ids_subscribeAll client (subs.map (·.source))
    rw [hsubs] at h1
    refine ⟨_, ?_, (congrArg Multiplexer.numbered hm).trans h2⟩
    rw [← h1]
    simp [ServerTrace.numbers, ServerEvent.numbers]
  · have hno : ∀ w client subs, ServerEvent.numbered w client subs ∉ es :=
      fun w client subs h => hx ⟨w, client, subs, h⟩
    have ⟨h1, h2⟩ := numbered_foldl hno m
    exact ⟨0, h2, (congrArg Multiplexer.numbered hm).trans h1⟩

/-- The numbers of a run are the first ones, in order. -/
theorem Run.numbers {st₀ st : Stage} {tr : ServerTrace} (fresh : st₀.Fresh) (run : Run st₀ tr st) :
    tr.numbers = (List.range st.server.mux.numbered).map StreamId.nth := by
  induction run with
  | refl =>
    rw [fresh.mux]
    rfl
  | step _ next ih =>
    obtain ⟨k, h1, h2⟩ := next.mux.next
    rw [ServerTrace.numbers, List.flatMap_append]
    rw [ServerTrace.numbers] at ih h1
    -- The numbers given so far and those of this step are two ranges that meet.
    rw [ih, h1, h2, ← List.map_append, List.range_eq_range', List.range_eq_range',
      ← List.range'_append_1, Nat.zero_add]

/-- A run never takes numbers back. -/
theorem Run.numbered_le {st₀ st : Stage} {tr : ServerTrace} (run : Run st₀ tr st) :
    st₀.server.mux.numbered ≤ st.server.mux.numbered := by
  induction run with
  | refl => exact Nat.le_refl _
  | step _ next ih =>
    obtain ⟨k, -, h⟩ := next.mux.next
    omega

/-- As long as there are enough numbers, none is given twice. -/
theorem Run.nodup_numbers {st₀ st : Stage} {tr : ServerTrace} (fresh : st₀.Fresh)
    (run : Run st₀ tr st) (few : st.server.mux.numbered ≤ 2 ^ 64) : tr.numbers.Nodup := by
  rw [run.numbers fresh]
  refine List.Nodup.map_on ?_ List.nodup_range
  intro j hj k hk h
  rw [List.mem_range] at hj hk
  exact StreamId.nth_inj (by omega) (by omega) h

/-! ## Who streams are active for -/

/-- Retiring a list of ids takes them from their owners. -/
private theorem owner_retireAll (m : Multiplexer) (ids : List StreamId) (id : StreamId) :
    (m.retireAll ids).owner id = if id ∈ ids then none else m.owner id := by
  unfold Multiplexer.owner Multiplexer.retireAll
  rw [Tracker.active_retireAll]
  split <;> rfl

/-- Retiring an id takes it from its owner. -/
theorem owner_retire (m : Multiplexer) (id other : StreamId) :
    (m.retire other).owner id = if id = other then none else m.owner id := by
  unfold Multiplexer.owner Multiplexer.retire
  rw [Tracker.active_retire]
  by_cases h : id = other
  · simp [h]
  · simp [h, Ne.symm h]

/-- A registration survives a departure unless it is the departed client's. -/
private theorem client_filter (o : Option Registration) (client : String) :
    (o.filter fun r => r.client ≠ client).map (·.client) =
      if o.map (·.client) = some client then none else o.map (·.client) := by
  cases o with
  | none => rfl
  | some r => by_cases hc : r.client = client <;> simp [hc, Option.filter]

/-- An event that gives no numbers keeps the books in order, and turns streams as it says. -/
theorem sound_effect {m : Multiplexer} (h : m.Sound) {x : ServerEvent}
    (hx : ∀ w client subs, x ≠ .numbered w client subs) :
    (x.effect m).Sound ∧ ∀ id, (x.effect m).owner id = x.turn id (m.owner id) := by
  cases x with
  | numbered w client subs => exact absurd rfl (hx w client subs)
  | closed ids => exact ⟨h.retireAll ids, owner_retireAll m ids⟩
  | dropped w subs => exact ⟨h.retireAll _, owner_retireAll m _⟩
  | finished n other => exact ⟨h.retire other, fun id => owner_retire m id other⟩
  | withdrawn other => exact ⟨h.retire other, fun id => owner_retire m id other⟩
  -- A departure takes the client's own ids, which the index of the tracker lists.
  | departed client =>
    refine ⟨h.retireClient client, fun id => ?_⟩
    show ((m.tracker.retireClient client).2.active[id]?).map _ = _
    rw [h.books.active_retireClient]
    exact client_filter _ client
  | _ => exact ⟨h, fun _ => rfl⟩

/-- The same for any number of events that give no numbers. -/
private theorem sound_foldl {es : ServerTrace} {m : Multiplexer} (h : m.Sound)
    (hes : ∀ w client subs, ServerEvent.numbered w client subs ∉ es) :
    (es.foldl (fun m x => x.effect m) m).Sound ∧
      ∀ id, (es.foldl (fun m x => x.effect m) m).owner id =
        es.foldl (ServerEvent.turn id) (m.owner id) := by
  induction es generalizing m with
  | nil => exact ⟨h, fun _ => rfl⟩
  | cons x es ih =>
    -- None of the events is a numbering, the one that could make two streams share an id.
    have hx : ∀ w client subs, x ≠ .numbered w client subs := by
      rintro w client subs rfl
      exact hes w client subs List.mem_cons_self
    have hrest : ∀ w client subs, ServerEvent.numbered w client subs ∉ es :=
      fun w client subs h => hes w client subs (List.mem_cons_of_mem _ h)
    have ⟨h1, h2⟩ := sound_effect h hx
    have ⟨h3, h4⟩ := ih h1 hrest
    refine ⟨h3, fun id => ?_⟩
    rw [List.foldl_cons, List.foldl_cons, h4, h2]

/-- Giving numbers keeps the books in order, as long as there are enough numbers, and makes the
    streams active for the client. -/
private theorem sound_numbered {m : Multiplexer} (sound : m.Sound) (w : Worker) {client : String}
    {subs : List Subscription} (hsubs : (m.subscribeAll client (subs.map (·.source))).1 = subs)
    (few : ((ServerEvent.numbered w client subs).effect m).numbered ≤ 2 ^ 64) :
    ((ServerEvent.numbered w client subs).effect m).Sound ∧
      ∀ id, ((ServerEvent.numbered w client subs).effect m).owner id =
        (ServerEvent.numbered w client subs).turn id (m.owner id) := by
  have hn := (m.ids_subscribeAll client (subs.map (·.source))).2
  rw [ServerEvent.effect] at few ⊢
  rw [hn] at few
  have ⟨h1, h2⟩ := sound.subscribeAll client (subs.map (·.source)) few
  rw [hsubs] at h2
  refine ⟨h1, fun id => ?_⟩
  simp only [ServerEvent.turn, Multiplexer.owner]
  split
  · next hid =>
    obtain ⟨sub, hsub, rfl⟩ := List.mem_map.1 hid
    have hr := (h2 sub.id ⟨client, sub.signal⟩).2 (.inr ⟨sub, hsub, rfl, rfl⟩)
    rw [hr]
    rfl
  · next hid =>
    -- What was not numbered now is registered as it was.
    congr 1
    refine Option.ext fun r => (h2 id r).trans (or_iff_left ?_)
    rintro ⟨sub, hsub, rfl, -⟩
    exact hid (List.mem_map_of_mem hsub)

/-- What is told of a step keeps the books in order, and turns streams as it says. -/
theorem Numbers.sound {es : ServerTrace} {m m' : Multiplexer} (h : Numbers es m m')
    (sound : m.Sound) (few : m'.numbered ≤ 2 ^ 64) :
    m'.Sound ∧ ∀ id, m'.owner id = es.foldl (ServerEvent.turn id) (m.owner id) := by
  obtain ⟨rfl, hes⟩ := h
  -- A step that gives numbers tells of nothing else.
  by_cases hx : ∃ w client subs, ServerEvent.numbered w client subs ∈ es
  · obtain ⟨w, client, subs, hx⟩ := hx
    obtain ⟨rfl, hsubs⟩ := hes w client subs hx
    exact sound_numbered sound w hsubs few
  · exact sound_foldl sound fun w client subs h => hx ⟨w, client, subs, h⟩

/-- In a run the multiplexer is sound, and its owners are those the trace says. -/
theorem Run.sound {st₀ st : Stage} {tr : ServerTrace} (fresh : st₀.Fresh) (run : Run st₀ tr st)
    (few : st.server.mux.numbered ≤ 2 ^ 64) :
    st.server.mux.Sound ∧ ∀ id, st.server.mux.owner id = tr.owner id := by
  induction run with
  | refl =>
    rw [fresh.mux]
    exact ⟨Multiplexer.sound_empty, fun id => by simp [Multiplexer.owner, ServerTrace.owner]⟩
  | step _ next ih =>
    have hnext := next.mux
    -- Numbers only grow, so there were enough before.
    obtain ⟨k, -, hk⟩ := hnext.next
    have ⟨h1, h2⟩ := ih (by omega)
    have ⟨h3, h4⟩ := hnext.sound h1 few
    refine ⟨h3, fun id => ?_⟩
    rw [h4, h2, ServerTrace.owner, ServerTrace.owner, List.foldl_append]

/-- Who a stream is active for can be read off the trace. -/
theorem Run.owner {st₀ st : Stage} {tr : ServerTrace} (fresh : st₀.Fresh) (run : Run st₀ tr st)
    (few : st.server.mux.numbered ≤ 2 ^ 64) (id : StreamId) :
    st.server.mux.owner id = tr.owner id :=
  (run.sound fresh few).2 id

end Stage

end StreamRpc
