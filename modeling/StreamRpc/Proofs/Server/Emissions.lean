import StreamRpc.Proofs.Client.Run
import StreamRpc.Proofs.Server.Fates
import StreamRpc.Proofs.Server.Introduction

/-! # What clients are told of what sources yield

One task passes on a stream.  It tells its client of each item of its source, in order, until it has
told of an end or of an item that could not be written; and nobody else tells anything of the
stream.

* `ServerTrace.Relay`          what a client is told of some items
* `Forwarding.Story.relayed`   one task tells of its items
* `Stage.Run.relayed`          and so does a run of a server
-/

namespace StreamRpc

namespace ServerEvent

/-- What a source yielded. -/
def emission? (source : SourceRef) : ServerEvent → Option (Notification ServerValue)
  | pulled _ other event => if other = source then some event else none
  | _ => none

end ServerEvent

namespace ServerTrace

/-- What a source yielded, in order. -/
def emissions (tr : ServerTrace) (source : SourceRef) : List (Notification ServerValue) :=
  tr.filterMap (ServerEvent.emission? source)

/-- What a client was told of a stream, in order. -/
def observed (tr : ServerTrace) (client : String) (id : StreamId) :
    List (Notification WireValue) :=
  observations (tr.acceptedFor client) id

/-- What a source emits is read off a trace piece by piece. -/
@[simp] theorem emissions_append (tr tr' : ServerTrace) (source : SourceRef) :
    emissions (tr ++ tr') source = emissions tr source ++ emissions tr' source :=
  List.filterMap_append

/-- What a client was sent of an id is read off a trace piece by piece. -/
@[simp] theorem observed_append (tr tr' : ServerTrace) (client : String) (id : StreamId) :
    observed (tr ++ tr') client id = observed tr client id ++ observed tr' client id := by
  simp [observed, acceptedFor, observations]

/-- An item as it goes over the wire, with the numbers that the task of its stream gave to the sources
    in it. -/
def Carries (tr : ServerTrace) (n : Nat) (client : String) (item : Notification ServerValue)
    (event : Notification WireValue) : Prop :=
  ∃ subs, .numbered (.forwarding n) client subs ∈ tr ∧ ExposesEvent item event subs

/-- What a client is told of some items: of each of them, until it is told of an end, or a failure in
    the place of an item that could not be written. -/
inductive Relay (tr : ServerTrace) (n : Nat) (client : String) (id : StreamId) :
    List (Notification ServerValue) → List (Notification WireValue) → Prop where
  | nothing : Relay tr n client id [] []
  | item {items : List (Notification ServerValue)} {events : List (Notification WireValue)}
      {item : Notification ServerValue} {event : Notification WireValue}
      (before : Relay tr n client id items events) (going : ∀ e ∈ events, e.terminal = false)
      (carries : tr.Carries n client item event) :
      Relay tr n client id (items ++ [item]) (events ++ [event])
  | excuse {items : List (Notification ServerValue)} {events : List (Notification WireValue)}
      {item : Notification ServerValue} {event : Notification WireValue} {err : CodecError}
      (before : Relay tr n client id items events) (going : ∀ e ∈ events, e.terminal = false)
      (carries : tr.Carries n client item event)
      (refused : (ServerMessage.observation id event).toEnvelope = .error err) :
      Relay tr n client id (items ++ [item])
        (events ++ [.error (.unwritable "observation" err)])

/-- What a client is told of the first of some items; of all of them, once it was told of an end. -/
def Relayed (tr : ServerTrace) (n : Nat) (client : String) (id : StreamId)
    (items : List (Notification ServerValue)) (events : List (Notification WireValue)) : Prop :=
  ∃ first rest, items = first ++ rest ∧ Relay tr n client id first events ∧
    ((∃ e ∈ events, e.terminal = true) → rest = [])

variable {tr : ServerTrace} {n : Nat} {client : String} {id : StreamId}
  {items : List (Notification ServerValue)} {events events' : List (Notification WireValue)}

/-- A client that is told of each of some items is told of the first of them. -/
theorem Relay.relayed (h : Relay tr n client id items events) :
    Relayed tr n client id items events :=
  ⟨items, [], (List.append_nil _).symm, h, fun _ => rfl⟩

/-- A client that was not told of an end may still have to be told of more items. -/
private theorem Relayed.more (h : Relay tr n client id items events)
    (going : ∀ e ∈ events, e.terminal = false) (rest : List (Notification ServerValue)) :
    Relayed tr n client id (items ++ rest) events := by
  refine ⟨items, rest, rfl, h, ?_⟩
  rintro ⟨e, he, hlast⟩
  rw [going e he] at hlast
  cases hlast

/-- Once a client was told of an end, it was told of everything. -/
theorem Relayed.whole (h : Relayed tr n client id items events) {e : Notification WireValue}
    (he : e ∈ events) (last : e.terminal = true) : Relay tr n client id items events := by
  obtain ⟨first, rest, rfl, relay, hend⟩ := h
  rwa [hend ⟨e, he, last⟩, List.append_nil]

end ServerTrace

/-! ## One task -/

namespace Forwarding

open ServerTrace (Relay Relayed Carries)

variable {n : Nat} {client : String} {sub : Subscription} {tr L : ServerTrace}

/-- An observation sent is observed once. -/
private theorem observed_sent {id : StreamId} {event : Notification WireValue} {e : Envelope}
    (written : (ServerMessage.observation id event).toEnvelope = .ok e) (w : Worker) :
    ServerTrace.observed [.sent w client e true] client id = [event] := by
  simp [ServerTrace.observed, ServerTrace.acceptedFor, ServerEvent.acceptedFor?, observations,
    ServerMessage.serverMessage_of written, ServerMessage.toldOf]

/-- A task's rounds relay what they pull, and no end among it. -/
private theorem Rounds.relay {ps : List (ServerValue × WireValue)} (h : Rounds n client sub L ps)
    (told : ∀ x ∈ L, x ∈ tr) :
    Relay tr n client sub.id (L.emissions sub.source) (L.observed client sub.id) ∧
      ∀ e ∈ L.observed client sub.id, e.terminal = false := by
  -- By rounds, each of which adds one item on both sides.
  induction h with
  | none => exact ⟨.nothing, by simp [ServerTrace.observed, ServerTrace.acceptedFor,
      ServerEvent.acceptedFor?, observations]⟩
  | @more L ps v wire nested e before exposed written ih =>
    obtain ⟨relay, going⟩ := ih fun x hx => told x (List.mem_append_left _ hx)
    have hsent : ServerTrace.observed [.pulled n sub.source (.next v),
        .numbered (.forwarding n) client nested, .sent (.forwarding n) client e true,
        .started (.forwarding n) nested] client sub.id = [.next wire] :=
      observed_sent written (.forwarding n)
    have hpulled : ServerTrace.emissions [.pulled n sub.source (.next v),
        .numbered (.forwarding n) client nested, .sent (.forwarding n) client e true,
        .started (.forwarding n) nested] sub.source = [.next v] := by
      simp [ServerTrace.emissions, ServerEvent.emission?]
    -- That the ids in the item were given out is told in the same round.
    have hcarries : tr.Carries n client (.next v) (.next wire) :=
      ⟨nested, told _ (by simp), exposed⟩
    rw [ServerTrace.emissions_append, ServerTrace.observed_append, hsent, hpulled]
    refine ⟨.item relay going hcarries, fun e he => ?_⟩
    rcases List.mem_append.1 he with he | he
    · exact going e he
    · obtain rfl := List.mem_singleton.1 he
      rfl

/-- What is told of an item, once the sources in it have numbers. -/
private theorem Loaded.relay {ps : List (ServerValue × WireValue)}
    {event : Notification ServerValue}
    {wire : Notification WireValue} {nested : List Subscription}
    (h : Loaded n client sub L ps event wire nested) (told : ∀ x ∈ L, x ∈ tr) :
    ∃ items, L.emissions sub.source = items ++ [event] ∧
      Relay tr n client sub.id items (L.observed client sub.id) ∧
        (∀ e ∈ L.observed client sub.id, e.terminal = false) ∧ tr.Carries n client event wire := by
  cases h with
  | @mk L _ _ _ _ before exposed =>
    obtain ⟨relay, going⟩ := before.relay fun x hx => told x (List.mem_append_left _ hx)
    have hnone : ServerTrace.observed [.pulled n sub.source event,
        .numbered (.forwarding n) client nested] client sub.id = [] := rfl
    have hpulled : ServerTrace.emissions [.pulled n sub.source event,
        .numbered (.forwarding n) client nested] sub.source = [event] := by
      simp [ServerTrace.emissions, ServerEvent.emission?]
    -- The event has been pulled and not yet sent: one emission more, and no observation.
    rw [ServerTrace.emissions_append, ServerTrace.observed_append, hnone, hpulled, List.append_nil]
    exact ⟨_, rfl, relay, going, nested, told _ (by simp), exposed⟩

/-- Nothing more is told of a loaded item. -/
private theorem Loaded.withheld {ps : List (ServerValue × WireValue)}
    {event : Notification ServerValue}
    {wire : Notification WireValue} {nested : List Subscription}
    (h : Loaded n client sub L ps event wire nested) {es : ServerTrace}
    (told : ∀ x ∈ L ++ es, x ∈ tr) (emissions : es.emissions sub.source = [])
    (observed : es.observed client sub.id = []) :
    Relayed tr n client sub.id ((L ++ es).emissions sub.source)
      ((L ++ es).observed client sub.id) := by
  obtain ⟨items, hitems, relay, going, -⟩ := h.relay fun x hx => told x (List.mem_append_left _ hx)
  rw [ServerTrace.emissions_append, ServerTrace.observed_append, emissions, observed,
    List.append_nil, List.append_nil, hitems]
  -- One item more was read from the source, and none was delivered.
  exact .more relay going _

/-- A loaded item is told. -/
private theorem Loaded.delivered {ps : List (ServerValue × WireValue)}
    {event : Notification ServerValue}
    {wire : Notification WireValue} {nested : List Subscription}
    (h : Loaded n client sub L ps event wire nested) {es : ServerTrace}
    (told : ∀ x ∈ L ++ es, x ∈ tr) (emissions : es.emissions sub.source = [])
    (observed : es.observed client sub.id = [wire]) :
    Relay tr n client sub.id ((L ++ es).emissions sub.source)
      ((L ++ es).observed client sub.id) := by
  obtain ⟨items, hitems, relay, going, carries⟩ :=
    h.relay fun x hx => told x (List.mem_append_left _ hx)
  rw [ServerTrace.emissions_append, ServerTrace.observed_append, emissions, observed,
    List.append_nil, hitems]
  -- The item that was read last is the one that is delivered.
  exact .item relay going carries

/-- A task that has ended has relayed what it pulled. -/
private theorem Ended.relayed (h : Ended n client sub L) (told : ∀ x ∈ L, x ∈ tr) :
    Relayed tr n client sub.id (L.emissions sub.source) (L.observed client sub.id) := by
  cases h with
  | told loaded written last =>
    exact (loaded.delivered told rfl (observed_sent written _)).relayed
  | refused loaded written => exact loaded.withheld told rfl rfl
  | @excused L ps event wire nested err e accepted loaded refused written =>
    cases accepted with
    | false => exact loaded.withheld told rfl rfl
    -- The failure is told in the place of the item.
    | true =>
      obtain ⟨items, hitems, relay, going, carries⟩ :=
        loaded.relay fun x hx => told x (List.mem_append_left _ hx)
      have hsent : ServerTrace.observed [.unwritable (.forwarding n) client
          (.observation sub.id wire) err, .dropped (.forwarding n) nested,
          .sent (.forwarding n) client e true] client sub.id =
            [.error (.unwritable "observation" err)] := observed_sent written (.forwarding n)
      have hnone : ServerTrace.emissions [.unwritable (.forwarding n) client
          (.observation sub.id wire) err, .dropped (.forwarding n) nested,
          .sent (.forwarding n) client e true] sub.source = [] := rfl
      rw [ServerTrace.emissions_append, ServerTrace.observed_append, hsent, hnone, hitems,
        List.append_nil]
      exact (Relay.excuse relay going carries refused).relayed
  | silent loaded refused refused' => exact loaded.withheld told rfl rfl

/-- The task of a stream tells its client of the items of its source. -/
theorem Story.relayed {phase : Option Phase} (h : Story n client sub phase L)
    (told : ∀ x ∈ L, x ∈ tr) :
    Relayed tr n client sub.id (L.emissions sub.source) (L.observed client sub.id) := by
  -- An item that was pulled and not told of is one of the rest.
  have hmore : ∀ {L : ServerTrace} {ps : List (ServerValue × WireValue)}
      {event : Notification ServerValue}, Rounds n client sub L ps →
      (∀ x ∈ L ++ [.pulled n sub.source event], x ∈ tr) →
        Relayed tr n client sub.id
          (ServerTrace.emissions (L ++ [.pulled n sub.source event]) sub.source)
          (ServerTrace.observed (L ++ [.pulled n sub.source event]) client sub.id) := by
    intro L ps event h told
    obtain ⟨relay, going⟩ := h.relay fun x hx => told x (List.mem_append_left _ hx)
    have hnone : ServerTrace.observed [.pulled n sub.source event] client sub.id = [] := rfl
    rw [ServerTrace.emissions_append, ServerTrace.observed_append, hnone, List.append_nil]
    exact .more relay going _
  -- So is one that has got its numbers only.
  have hloaded : ∀ {L : ServerTrace} {ps : List (ServerValue × WireValue)}
      {event : Notification ServerValue} {wire : Notification WireValue}
      {nested : List Subscription}, Loaded n client sub L ps event wire nested →
      (∀ x ∈ L, x ∈ tr) →
        Relayed tr n client sub.id (L.emissions sub.source) (L.observed client sub.id) := by
    intro L ps event wire nested h told
    have happend : L ++ [] = L := List.append_nil L
    rw [← happend]
    exact h.withheld (happend.symm ▸ told) rfl rfl
  cases h with
  | waiting h => exact (h.relay told).1.relayed
  | pulled h => exact hmore h told
  | cleared h => exact hmore h told
  | exposed h => exact hloaded h told
  | encoded h written => exact hloaded h told
  | accepted h written => exact (h.delivered told rfl (observed_sent written _)).relayed
  | refused h written => exact h.withheld told rfl rfl
  | failing h refused => exact h.withheld told rfl rfl
  | closing h => exact h.relayed told
  | @done L h =>
    have hnone : ServerTrace.observed [.finished n sub.id] client sub.id = [] := rfl
    have hnone' : ServerTrace.emissions [.finished n sub.id] sub.source = [] := rfl
    rw [ServerTrace.emissions_append, ServerTrace.observed_append, hnone, hnone', List.append_nil,
      List.append_nil]
    exact h.relayed fun x hx => told x (List.mem_append_left _ hx)
  | stopped h => exact (h.relay told).1.relayed
  | halted h => exact hmore h told

/-- A task begins with its own stream, and asks the source of that. -/
def Own (n : Nat) (client : String) (sub : Subscription) : ServerEvent → Prop
  | .began m other sub' => m = n ∧ other = client ∧ sub' = sub
  | .pulled _ source _ => source = sub.source
  | _ => True

/-- In its rounds a task begins with its own stream and asks that stream's source. -/
private theorem Rounds.own {ps : List (ServerValue × WireValue)} (h : Rounds n client sub L ps) :
    ∀ x ∈ L, Own n client sub x := by
  induction h with
  | none => simp [Own]
  | more before exposed written ih => exact List.forall_mem_append.2 ⟨ih, by simp [Own]⟩

/-- A task with an item in hand has begun with its own stream and asked that stream's source. -/
private theorem Loaded.own {ps : List (ServerValue × WireValue)} {event : Notification ServerValue}
    {wire : Notification WireValue} {nested : List Subscription}
    (h : Loaded n client sub L ps event wire nested) : ∀ x ∈ L, Own n client sub x := by
  cases h with
  | mk before exposed => exact List.forall_mem_append.2 ⟨before.own, by simp [Own]⟩

/-- A task that has ended has begun with its own stream and asked that stream's source. -/
private theorem Ended.own (h : Ended n client sub L) : ∀ x ∈ L, Own n client sub x := by
  cases h with
  | told loaded => exact List.forall_mem_append.2 ⟨loaded.own, by simp [Own]⟩
  | refused loaded => exact List.forall_mem_append.2 ⟨loaded.own, by simp [Own]⟩
  | excused loaded => exact List.forall_mem_append.2 ⟨loaded.own, by simp [Own]⟩
  | silent loaded => exact List.forall_mem_append.2 ⟨loaded.own, by simp [Own]⟩

/-- In every phase a task has begun with its own stream and asked that stream's source. -/
theorem Story.own {phase : Option Phase} (h : Story n client sub phase L) :
    ∀ x ∈ L, Own n client sub x := by
  -- Each step of a task tells only of what it does with its own stream.
  cases h with
  | waiting h => exact h.own
  | pulled h => exact List.forall_mem_append.2 ⟨h.own, by simp [Own]⟩
  | cleared h => exact List.forall_mem_append.2 ⟨h.own, by simp [Own]⟩
  | exposed h => exact h.own
  | encoded h => exact h.own
  | accepted h => exact List.forall_mem_append.2 ⟨h.own, by simp [Own]⟩
  | refused h => exact List.forall_mem_append.2 ⟨h.own, by simp [Own]⟩
  | failing h => exact List.forall_mem_append.2 ⟨h.own, by simp [Own]⟩
  | closing h => exact h.own
  | done h => exact List.forall_mem_append.2 ⟨h.own, by simp [Own]⟩
  | stopped h => exact h.own
  | halted h => exact List.forall_mem_append.2 ⟨h.own, by simp [Own]⟩

end Forwarding

namespace ServerTrace

/-- The first event's beginnings are the first. -/
@[simp] theorem begins_cons (x : ServerEvent) (tr : ServerTrace) :
    begins (x :: tr) = x.begins ++ begins tr := rfl

/-- Beginnings are read off a trace piece by piece. -/
@[simp] theorem begins_append (tr tr' : ServerTrace) :
    begins (tr ++ tr') = begins tr ++ begins tr' := List.flatMap_append

/-- The tasks that begin are those that are started. -/
private theorem begins_started (w : Worker) (client : String) (k : Nat) (subs : List Subscription) :
    begins (.started w subs :: begun client k subs) =
      starts (.started w subs :: begun client k subs) := by
  -- The tasks are numbered one after another, whatever the first number is.
  have hbegun : ∀ k, begins (begun client k subs) = subs.map (·.id) ∧
      starts (begun client k subs) = [] := by
    induction subs with
    | nil => exact fun k => ⟨rfl, rfl⟩
    | cons sub subs ih =>
      exact fun k => ⟨congrArg (sub.id :: ·) (ih (k + 1)).1, (ih (k + 1)).2⟩
  rw [begins_cons, starts_cons, (hbegun k).1, (hbegun k).2, List.append_nil]
  rfl

end ServerTrace

namespace Stage

open ServerTrace (begins_started)

/-- A reply's step begins the tasks it starts. -/
private theorem begins_reply {st st' : Stage} {w : Worker} {client : String} {id : CallId}
    {reply : Reply}
    {es : ServerTrace} {next : Reply ⊕ Except CallError Unit}
    (does : reply.Does w client id st es next st') : es.begins = es.starts := by
  cases does with
  | start subs => exact begins_started _ _ _ _
  | _ => rfl

/-- What a step starts begins in it, and nothing else. -/
private theorem Step.begins {st st' : Stage} {es : ServerTrace} (next : Step st es st') :
    es.begins = es.starts := by
  cases next.does with
  | @handle _ n _ _ _ _ steps =>
    have does := Handling.does n steps
    -- Streams start where an answer or an item was taken, and nowhere else.
    generalize st.handlingEvents n _ = es at does ⊢
    cases does with
    | reply _ does => exact begins_reply does
    | finish _ does => exact begins_reply does
    | _ => rfl
  | @forward n _ _ _ steps =>
    have does := Forwarding.does n steps
    generalize st.forwardingEvents n _ = es at does ⊢
    cases does with
    | start => exact begins_started _ _ _ _
    | _ => rfl
  | _ => rfl

variable {st₀ st : Stage} {tr : ServerTrace}

/-- In a run the tasks that begin are those that are started. -/
theorem Run.begins (run : Run st₀ tr st) : tr.begins = tr.starts := by
  induction run with
  | refl => rfl
  | step _ next ih =>
    rw [ServerTrace.begins_append, ServerTrace.starts_append, ih, next.begins]

/-- What is told of a task that began. -/
theorem Told.of_began (told : Told tr st) {n : Nat} {client : String} {sub : Subscription}
    (began : .began n client sub ∈ tr) :
    Forwarding.Story n client sub (st.server.forwardings[n]?.map (·.phase))
      (tr.of (.forwarding n)) := by
  have hmem : .began n client sub ∈ tr.of (.forwarding n) := ServerTrace.mem_of.2 ⟨began, rfl⟩
  obtain ⟨other, sub', story⟩ := told.forwarding hmem
  obtain ⟨-, rfl, rfl⟩ := story.own _ hmem
  exact story

/-- A task begins with one stream. -/
theorem Told.began_once (told : Told tr st) {n : Nat} {client client' : String}
    {sub sub' : Subscription} (began : .began n client sub ∈ tr)
    (began' : .began n client' sub' ∈ tr) : client' = client ∧ sub' = sub := by
  obtain ⟨-, hclient, hsub⟩ := (told.of_began began).own _ (ServerTrace.mem_of.2 ⟨began', rfl⟩)
  exact ⟨hclient, hsub⟩

/-- Who sent a message, and what the message is. -/
private theorem Run.speaks (fresh : st₀.Fresh) (run : Run st₀ tr st) {w : Worker} {client : String}
    {e : Envelope} {accepted : Bool} (h : .sent w client e accepted ∈ tr) :
    Speaks tr w client e := by
  obtain ⟨pre, post, htr⟩ := List.append_of_mem h
  -- It is so of the step that sends the message.
  obtain ⟨tr₁, st₁, front, back, st₂, run₁, next, hpre, -⟩ := run.at htr
  rcases next.of_sent (run₁.told fresh) (List.mem_append_right _ List.mem_cons_self) with
    h | ⟨n, sub, event, rfl, began, written⟩
  · exact .inl h
  · refine .inr ⟨n, sub, event, rfl, ?_, written⟩
    rw [htr, hpre]
    simp [began]

/-- What a client is told of a stream, it is told by a task that began with this stream. -/
private theorem Run.of_observed (fresh : st₀.Fresh) (run : Run st₀ tr st) {client : String}
    {id : StreamId}
    {x : ServerEvent} (hx : x ∈ tr) {m : ServerMessage} (hm : x.acceptedFor? client = some m)
    {event : Notification WireValue} (told : m.toldOf id = some event) :
    ∃ (n : Nat) (sub : Subscription), x.worker? = some (.forwarding n) ∧
      .began n client sub ∈ tr ∧ sub.id = id := by
  obtain ⟨w, e, rfl, he⟩ := acceptedFor_eq_some hm
  rcases run.speaks fresh hx with ⟨n, id', result, -, hw⟩ | ⟨n, sub, event', rfl, began, hw⟩
  · -- An answer tells of no stream.
    obtain rfl := Option.some.inj ((ServerMessage.serverMessage_of hw).symm.trans he)
    cases told
  · obtain rfl := Option.some.inj ((ServerMessage.serverMessage_of hw).symm.trans he)
    obtain ⟨hid, -⟩ := ServerMessage.observation.inj (ServerMessage.toldOf_eq_some.1 told)
    exact ⟨n, sub, rfl, began, hid⟩

section

variable (fresh : st₀.Fresh) (run : Run st₀ tr st) (few : st.server.mux.numbered ≤ 2 ^ 64)

include fresh run few

/-- A stream has one task. -/
theorem Run.eq_of_began {n n' : Nat} {client client' : String} {sub sub' : Subscription}
    (h : .began n client sub ∈ tr) (h' : .began n' client' sub' ∈ tr) (hid : sub'.id = sub.id) :
    n' = n ∧ client' = client ∧ sub' = sub := by
  have nodup : tr.begins.Nodup := run.begins ▸ run.nodup_starts fresh few
  have heq := ServerTrace.eq_of_mem_flatMap nodup h' h (List.mem_singleton_self _)
    (hid ▸ List.mem_singleton_self _)
  exact ServerEvent.began.inj heq

/-- What a client is told of a stream, it is told by the task of the stream. -/
theorem Run.observed_eq {n : Nat} {client : String} {sub : Subscription}
    (began : .began n client sub ∈ tr) :
    (tr.of (.forwarding n)).observed client sub.id = tr.observed client sub.id := by
  simp only [ServerTrace.observed, observations, ServerTrace.acceptedFor,
    List.filterMap_filterMap]
  refine ServerTrace.filterMap_of fun x hx event hevent => ?_
  obtain ⟨m, hm, told⟩ := Option.bind_eq_some_iff.1 hevent
  obtain ⟨k, sub', hk, began', hid⟩ := run.of_observed fresh hx hm told
  obtain ⟨rfl, -, -⟩ := run.eq_of_began fresh few began began' hid
  exact hk

/-- A client is told of what the task of a stream got from its source. -/
theorem Run.relayed {n : Nat} {client : String} {sub : Subscription}
    (began : .began n client sub ∈ tr) :
    tr.Relayed n client sub.id ((tr.of (.forwarding n)).emissions sub.source)
      (tr.observed client sub.id) := by
  rw [← run.observed_eq fresh few began]
  exact ((run.told fresh).of_began began).relayed fun x hx => mem_of_mem_of hx

end

end Stage

end StreamRpc
