import StreamRpc.Proofs.Server.Messages

/-! # What becomes of streams

A stream in a message that a queue took is passed on, and one in a message that did not get there is
retired.  Once no task is in the middle of something, this has been seen to for every stream that
has a number.  So a stream is active for a client exactly if the client was told about it and it was
retired neither on the client's behalf nor by the task that passed it on.

* `Stage.Run.used`              nothing is told of a stream before it has a number
* `Stage.Run.owner_iff`         who a stream is active for, when no task is in the middle of something
* `Stage.Run.not_owner`         nothing is active for a client that is gone
* `Stage.Run.of_finished`       why the passing on of a stream ended
-/

namespace StreamRpc

namespace ServerEvent

/-- The streams in a message that its queue took. -/
def handed : ServerEvent → List StreamId
  | sent _ _ e true => e.introduces
  | _ => []

/-- The streams in a message that did not get to its queue. -/
def lost : ServerEvent → List StreamId
  | sent _ _ e false => e.introduces
  | unwritable _ _ m _ => m.introduces
  | _ => []

/-- The streams that were retired because their message did not get to its queue. -/
def drops : ServerEvent → List StreamId
  | dropped _ subs => subs.map (·.id)
  | _ => []

/-- The streams that the tasks that passed them on retired. -/
def ends : ServerEvent → List StreamId
  | finished _ id => [id]
  | _ => []

/-- The streams of which an event tells what becomes of them. -/
def uses (x : ServerEvent) : List StreamId :=
  x.carried ++ x.drops ++ x.ends

/-- Whom an event is about. -/
def client? : ServerEvent → Option String
  | numbered _ client _ => some client
  | sent _ client _ _ => some client
  | _ => none

end ServerEvent

namespace ServerTrace

def handed (tr : ServerTrace) : List StreamId :=
  tr.flatMap ServerEvent.handed

def lost (tr : ServerTrace) : List StreamId :=
  tr.flatMap ServerEvent.lost

def drops (tr : ServerTrace) : List StreamId :=
  tr.flatMap ServerEvent.drops

/-- Nothing is handed over before the first event. -/
@[simp] theorem handed_nil : handed [] = [] := rfl

/-- The first event's ids are handed over first. -/
@[simp] theorem handed_cons (x : ServerEvent) (tr : ServerTrace) :
    handed (x :: tr) = x.handed ++ handed tr := rfl

/-- Ids handed over are read off a trace piece by piece. -/
@[simp] theorem handed_append (tr tr' : ServerTrace) :
    handed (tr ++ tr') = handed tr ++ handed tr' := List.flatMap_append

/-- Nothing is lost before the first event. -/
@[simp] theorem lost_nil : lost [] = [] := rfl

/-- The first event's ids are lost first. -/
@[simp] theorem lost_cons (x : ServerEvent) (tr : ServerTrace) :
    lost (x :: tr) = x.lost ++ lost tr := rfl

/-- Ids lost are read off a trace piece by piece. -/
@[simp] theorem lost_append (tr tr' : ServerTrace) : lost (tr ++ tr') = lost tr ++ lost tr' :=
  List.flatMap_append

/-- Nothing is dropped before the first event. -/
@[simp] theorem drops_nil : drops [] = [] := rfl

/-- The first event's ids are dropped first. -/
@[simp] theorem drops_cons (x : ServerEvent) (tr : ServerTrace) :
    drops (x :: tr) = x.drops ++ drops tr := rfl

/-- Ids dropped are read off a trace piece by piece. -/
@[simp] theorem drops_append (tr tr' : ServerTrace) : drops (tr ++ tr') = drops tr ++ drops tr' :=
  List.flatMap_append

end ServerTrace

/-- What is carried either gets there or does not. -/
theorem ServerEvent.carried_cases (x : ServerEvent) {id : StreamId} (h : id ∈ x.carried) :
    id ∈ x.handed ∨ id ∈ x.lost := by
  cases x with
  | sent w client e accepted =>
    cases accepted with
    | true => exact .inl h
    | false => exact .inr h
  | unwritable w client m err => exact .inr h
  | _ => cases h

/-- An id that is lost was carried. -/
private theorem ServerEvent.carried_of_lost (x : ServerEvent) {id : StreamId} (h : id ∈ x.lost) :
    id ∈ x.carried := by
  cases x with
  | sent w client e accepted =>
    cases accepted with
    | true => cases h
    | false => exact h
  | unwritable w client m err => exact h
  | _ => cases h

/-! ## One task -/

/-- Everything has been seen to: what got there was started, and what did not was retired. -/
structure Settled (L : ServerTrace) : Prop where
  numbers : L.numbers = L.carried
  starts : L.starts = L.handed
  drops : L.drops = L.lost

/-- What was retired had not got there. -/
def Dropped (L : ServerTrace) : Prop :=
  L.drops <+: L.lost

/-- What drops the ids it loses has dropped each. -/
private theorem dropped_of_eq {L : ServerTrace} (h : L.drops = L.lost) : Dropped L := by
  unfold Dropped
  exact h ▸ List.prefix_rfl

/-- What is settled has dropped each id it lost. -/
private theorem Settled.dropped {L : ServerTrace} (h : Settled L) : Dropped L :=
  dropped_of_eq h.drops

open ServerMessage (introduces_of)

namespace Handling

variable {n : Nat} {r : Request}

/-- A task that has its answer has handed over, lost and dropped no id. -/
private theorem Answered.fates {L : ServerTrace} {made : Except Failure ServerValue}
    (h : Answered n r L made) : L.handed = [] ∧ L.lost = [] ∧ L.drops = [] := by
  cases h <;> exact ⟨rfl, rfl, rfl⟩

/-- A task with its reply in hand has handed over, lost and dropped no id. -/
theorem Loaded.fates {L : ServerTrace} {wire : Except Failure WireValue}
    {subs : List Subscription} (h : Loaded n r L wire subs) :
    L.handed = [] ∧ L.lost = [] ∧ L.drops = [] := by
  cases h with
  | mk answered exposed =>
    obtain ⟨h1, h2, h3⟩ := answered.fates
    simp [h1, h2, h3, ServerEvent.handed, ServerEvent.lost, ServerEvent.drops]

/-- A task that has written its reply has handed nothing over and dropped what it lost. -/
theorem Written.fates {L : ServerTrace} {e : Envelope} {subs : List Subscription}
    (h : Written n r L e subs) : L.handed = [] ∧ L.drops = L.lost := by
  cases h with
  | plain loaded written =>
    obtain ⟨h1, h2, h3⟩ := loaded.fates
    exact ⟨h1, h3.trans h2.symm⟩
  | excuse loaded refused written =>
    obtain ⟨h1, h2, h3⟩ := loaded.fates
    obtain ⟨-, -, -, h4⟩ := loaded.tally
    simp [h1, h2, h3, h4, ServerEvent.handed, ServerEvent.lost, ServerEvent.drops]

/-- In every phase a handling task has dropped each id it lost. -/
private theorem Story.dropped {phase : Option Phase} {L : ServerTrace} (h : Story n r phase L) :
    Dropped L := by
  unfold Dropped
  cases h with
  | received => exact List.nil_prefix
  | running => exact List.nil_prefix
  | sleeping => exact List.nil_prefix
  | answered h => exact dropped_of_eq (h.fates.2.2.trans h.fates.2.1.symm)
  | exposed h => exact dropped_of_eq (h.fates.2.2.trans h.fates.2.1.symm)
  | encoded h => exact dropped_of_eq h.fates.2
  | accepted h => simp [h.fates.2, ServerEvent.lost, ServerEvent.drops]
  | refused h => simp [h.fates.2, ServerEvent.lost, ServerEvent.drops]
  | done h => simp [h.fates.2, ServerEvent.lost, ServerEvent.drops]
  -- What a failed send drops is all that was introduced.
  | failed h =>
    obtain ⟨-, -, result, h3, h4⟩ := h.tally
    simp [h.fates.2, introduces_of h3, h4, ServerEvent.lost, ServerEvent.drops]
  | lost h refused =>
    obtain ⟨-, -, -, h4⟩ := h.tally
    simp [h.fates, h4, ServerEvent.lost, ServerEvent.drops]

/-- A request that is not being answered has been seen to. -/
theorem Story.settled {phase : Option Phase} {L : ServerTrace} (h : Story n r phase L)
    (quiet : ∀ reply, phase ≠ some (.replying reply)) : Settled L := by
  cases h with
  | received => exact ⟨rfl, rfl, rfl⟩
  | running => exact ⟨rfl, rfl, rfl⟩
  | sleeping => exact ⟨rfl, rfl, rfl⟩
  | answered h => exact absurd rfl (quiet _)
  | exposed h => exact absurd rfl (quiet _)
  | encoded h => exact absurd rfl (quiet _)
  | accepted h => exact absurd rfl (quiet _)
  | refused h => exact absurd rfl (quiet _)
  -- The answer was taken, or refused, or could not be written.
  | done h =>
    obtain ⟨h1, h2, result, h3, h4⟩ := h.tally
    obtain ⟨h5, h6⟩ := h.fates
    refine ⟨?_, ?_, ?_⟩
    · simp [h1, introduces_of h3, h4, ServerEvent.numbers, ServerEvent.carried]
    · simp [h2, h5, introduces_of h3, h4, ServerEvent.starts, ServerEvent.handed]
    · simp [h6, ServerEvent.drops, ServerEvent.lost]
  | failed h =>
    obtain ⟨h1, h2, result, h3, h4⟩ := h.tally
    obtain ⟨h5, h6⟩ := h.fates
    refine ⟨?_, ?_, ?_⟩
    · simp [h1, introduces_of h3, h4, ServerEvent.numbers, ServerEvent.carried]
    · simp [h2, h5, ServerEvent.starts, ServerEvent.handed]
    · simp [h6, introduces_of h3, h4, ServerEvent.drops, ServerEvent.lost]
  -- What cannot be written is not sent either, so its streams are dropped.
  | lost h refused =>
    obtain ⟨h1, h2, h3, h4⟩ := h.tally
    obtain ⟨h5, h6, h7⟩ := h.fates
    refine ⟨?_, ?_, ?_⟩
    · simp [h1, h2, h4, ServerEvent.numbers, ServerEvent.carried]
    · simp [h3, h5, ServerEvent.starts, ServerEvent.handed]
    · simp [h6, h7, h4, ServerEvent.drops, ServerEvent.lost]

end Handling

namespace Forwarding

variable {n : Nat} {client : String} {sub : Subscription}

/-- A task's rounds are settled. -/
theorem Rounds.settled {L : ServerTrace} {ps : List (ServerValue × WireValue)}
    (h : Rounds n client sub L ps) : Settled L := by
  -- By rounds: the streams of each were handed over, and started.
  induction h with
  | none => exact ⟨rfl, rfl, rfl⟩
  | @more L ps v wire nested e before exposed written ih =>
    have hids : (ServerMessage.observation sub.id (.next wire)).introduces =
        nested.map (·.id) := exposed.ids
    refine ⟨?_, ?_, ?_⟩
    · simp [ih.numbers, introduces_of written, hids, ServerEvent.numbers, ServerEvent.carried]
    · simp [ih.starts, introduces_of written, hids, ServerEvent.starts, ServerEvent.handed]
    · simp [ih.drops, ServerEvent.drops, ServerEvent.lost]

/-- A task with a notification in hand has started what it handed over and dropped what it lost. -/
theorem Loaded.fates {L : ServerTrace} {ps : List (ServerValue × WireValue)}
    {event : Notification ServerValue} {wire : Notification WireValue} {nested : List Subscription}
    (h : Loaded n client sub L ps event wire nested) : L.starts = L.handed ∧ L.drops = L.lost := by
  cases h with
  | mk before exposed =>
    have := before.settled
    simp [this.starts, this.drops, ServerEvent.starts, ServerEvent.handed, ServerEvent.drops,
      ServerEvent.lost]

/-- A task that has ended is settled. -/
theorem Ended.settled {L : ServerTrace} (h : Ended n client sub L) : Settled L := by
  have hnumbers := h.tally.numbers
  rw [List.append_nil] at hnumbers
  -- Nothing is left to be carried when a stream has ended.
  suffices hfates : L.starts = L.handed ∧ L.drops = L.lost from ⟨hnumbers, hfates.1, hfates.2⟩
  cases h with
  | told loaded written last =>
    obtain ⟨h1, h2⟩ := loaded.fates
    obtain ⟨-, -, h3⟩ := loaded.tally
    simp [h1, h2, introduces_of written, h3, ServerEvent.starts, ServerEvent.handed,
      ServerEvent.drops, ServerEvent.lost]
  | refused loaded written =>
    obtain ⟨h1, h2⟩ := loaded.fates
    obtain ⟨-, -, h3⟩ := loaded.tally
    simp [h1, h2, introduces_of written, h3, ServerEvent.starts, ServerEvent.handed,
      ServerEvent.drops, ServerEvent.lost]
  | @excused L ps event wire nested err e accepted loaded refused written =>
    obtain ⟨h1, h2⟩ := loaded.fates
    obtain ⟨-, -, h3⟩ := loaded.tally
    have hf : e.introduces = [] := introduces_of written
    cases accepted <;> simp [h1, h2, h3, hf, ServerEvent.starts, ServerEvent.handed,
      ServerEvent.drops, ServerEvent.lost]
  -- Not even the failure can be written, so nothing is sent and all is dropped.
  | silent loaded refused refused' =>
    obtain ⟨h1, h2⟩ := loaded.fates
    obtain ⟨-, -, h3⟩ := loaded.tally
    simp [h1, h2, h3, ServerEvent.starts, ServerEvent.handed, ServerEvent.drops, ServerEvent.lost]

/-- In every phase a forwarding task has dropped each id it lost. -/
private theorem Story.dropped {phase : Option Phase} {L : ServerTrace}
    (h : Story n client sub phase L) :
    Dropped L := by
  unfold Dropped
  cases h with
  | waiting h => exact h.settled.dropped
  | pulled h => simp [h.settled.drops, ServerEvent.drops, ServerEvent.lost]
  | cleared h => simp [h.settled.drops, ServerEvent.drops, ServerEvent.lost]
  | exposed h => exact dropped_of_eq h.fates.2
  | encoded h written => exact dropped_of_eq h.fates.2
  | accepted h written => simp [h.fates.2, ServerEvent.drops, ServerEvent.lost]
  | refused h written => simp [h.fates.2, ServerEvent.drops, ServerEvent.lost]
  -- A notice that cannot be written drops the streams nested in the event it was for.
  | failing h refused =>
    obtain ⟨-, -, h3⟩ := h.tally
    simp [h.fates.2, h3, ServerEvent.drops, ServerEvent.lost]
  | closing h => exact h.settled.dropped
  | done h => simp [h.settled.drops, ServerEvent.drops, ServerEvent.lost]
  | stopped h => exact h.settled.dropped
  | halted h => simp [h.settled.drops, ServerEvent.drops, ServerEvent.lost]

/-- A stream that waits for its next item, or is over, has been seen to. -/
private theorem Story.settled {phase : Option Phase} {L : ServerTrace}
    (h : Story n client sub phase L)
    (quiet : ∀ p, phase = some p → p = .waiting) : Settled L := by
  -- What is told last is about no stream that was numbered.
  have hone : ∀ {L : ServerTrace} {x : ServerEvent}, Settled L → x.numbers = [] → x.carried = [] →
      x.starts = [] → x.handed = [] → x.drops = [] → x.lost = [] → Settled (L ++ [x]) := by
    intro L x h h1 h2 h3 h4 h5 h6
    refine ⟨?_, ?_, ?_⟩
    · simp [h.numbers, h1, h2]
    · simp [h.starts, h3, h4]
    · simp [h.drops, h5, h6]
  cases h with
  | waiting h => exact h.settled
  | pulled h => cases quiet _ rfl
  | cleared h => cases quiet _ rfl
  | exposed h => cases quiet _ rfl
  | encoded h written => cases quiet _ rfl
  | accepted h written => cases quiet _ rfl
  | refused h written => cases quiet _ rfl
  | failing h refused => cases quiet _ rfl
  | closing h => cases quiet _ rfl
  | done h => exact hone h.settled rfl rfl rfl rfl rfl rfl
  | stopped h => exact h.settled
  | halted h => exact hone h.settled rfl rfl rfl rfl rfl rfl

end Forwarding

/-! ## Whom a task is for -/

/-- An event that is about this client, or about none. -/
def For (client : String) (x : ServerEvent) : Prop :=
  ∀ other, x.client? = some other → other = client

/-- An event of no client is for any. -/
private theorem for_of_none {client : String} {x : ServerEvent} (h : x.client? = none) :
    For client x :=
  fun other ho => by
    rw [h] at ho
    cases ho

/-- Numbering is for the client it is done for. -/
private theorem for_numbered (w : Worker) (client : String) (subs : List Subscription) :
    For client (.numbered w client subs) :=
  fun _ ho => (Option.some.inj ho).symm

/-- A send is for the client it goes to. -/
private theorem for_sent (w : Worker) (client : String) (e : Envelope) (accepted : Bool) :
    For client (.sent w client e accepted) :=
  fun _ ho => (Option.some.inj ho).symm

/-- Two lists of events in a row are for a client when both are. -/
private theorem for_append {client : String} {L L' : ServerTrace} (h : ∀ x ∈ L, For client x)
    (h' : ∀ x ∈ L', For client x) : ∀ x ∈ L ++ L', For client x := by
  intro x hx
  rcases List.mem_append.1 hx with hx | hx
  · exact h x hx
  · exact h' x hx

/-- One event is for a client when it is. -/
private theorem for_one {client : String} {x : ServerEvent} (h : For client x) :
    ∀ y ∈ [x], For client y := by
  intro y hy
  obtain rfl := List.mem_singleton.1 hy
  exact h

/-- Two events are for a client when both are. -/
private theorem for_two {client : String} {x y : ServerEvent} (hx : For client x)
    (hy : For client y) :
    ∀ z ∈ [x, y], For client z :=
  for_append (for_one hx) (for_one hy)

namespace Handling

variable {n : Nat} {r : Request}

/-- A task that has its answer has worked for its client only. -/
private theorem Answered.for {L : ServerTrace} {made : Except Failure ServerValue}
    (h : Answered n r L made) : ∀ x ∈ L, For r.replyTo x := by
  cases h with
  | rejected bad => exact for_two (for_of_none rfl) (for_of_none rfl)
  | ended good called ends =>
    exact for_append (for_two (for_of_none rfl) (for_of_none rfl)) (for_one (for_of_none rfl))

/-- A task with its reply in hand has worked for its client only. -/
private theorem Loaded.for {L : ServerTrace} {wire : Except Failure WireValue}
    {subs : List Subscription} (h : Loaded n r L wire subs) : ∀ x ∈ L, For r.replyTo x := by
  cases h with
  | mk answered exposed => exact for_append answered.for (for_one (for_numbered _ _ _))

/-- A task that has written its reply has worked for its client only. -/
private theorem Written.for {L : ServerTrace} {e : Envelope} {subs : List Subscription}
    (h : Written n r L e subs) : ∀ x ∈ L, For r.replyTo x := by
  cases h with
  | plain loaded written => exact loaded.for
  | excuse loaded refused written =>
    exact for_append loaded.for (for_two (for_of_none rfl) (for_of_none rfl))

/-- In every phase a handling task has worked for its client only. -/
theorem Story.for {phase : Option Phase} {L : ServerTrace} (h : Story n r phase L) :
    ∀ x ∈ L, For r.replyTo x := by
  cases h with
  | received => exact for_one (for_of_none rfl)
  | running => exact for_two (for_of_none rfl) (for_of_none rfl)
  | sleeping => exact for_two (for_of_none rfl) (for_of_none rfl)
  | answered h => exact h.for
  | exposed h => exact h.for
  | encoded h => exact h.for
  | accepted h => exact for_append h.for (for_one (for_sent _ _ _ _))
  | refused h => exact for_append h.for (for_one (for_sent _ _ _ _))
  | done h => exact for_append h.for (for_two (for_sent _ _ _ _) (for_of_none rfl))
  | failed h => exact for_append h.for (for_two (for_sent _ _ _ _) (for_of_none rfl))
  | lost h refused => exact for_append h.for (for_two (for_of_none rfl) (for_of_none rfl))

end Handling

namespace Forwarding

variable {n : Nat} {client : String} {sub : Subscription}

/-- A task's rounds are for its client only. -/
private theorem Rounds.for {L : ServerTrace} {ps : List (ServerValue × WireValue)}
    (h : Rounds n client sub L ps) : ∀ x ∈ L, For client x := by
  induction h with
  | none => exact for_one (for_of_none rfl)
  | more before exposed written ih =>
    exact for_append ih (for_append (for_two (for_of_none rfl) (for_numbered _ _ _))
      (for_two (for_sent _ _ _ _) (for_of_none rfl)))

/-- A task with a notification in hand has worked for its client only. -/
private theorem Loaded.for {L : ServerTrace} {ps : List (ServerValue × WireValue)}
    {event : Notification ServerValue} {wire : Notification WireValue} {nested : List Subscription}
    (h : Loaded n client sub L ps event wire nested) : ∀ x ∈ L, For client x := by
  cases h with
  | mk before exposed =>
    exact for_append before.for (for_two (for_of_none rfl) (for_numbered _ _ _))

/-- A task that has ended has worked for its client only. -/
private theorem Ended.for {L : ServerTrace} (h : Ended n client sub L) : ∀ x ∈ L, For client x := by
  cases h with
  | told loaded written last =>
    exact for_append loaded.for (for_two (for_sent _ _ _ _) (for_of_none rfl))
  | refused loaded written =>
    exact for_append loaded.for (for_two (for_sent _ _ _ _) (for_of_none rfl))
  | excused loaded refused written =>
    exact for_append loaded.for (for_append (for_two (for_of_none rfl) (for_of_none rfl))
      (for_one (for_sent _ _ _ _)))
  | silent loaded refused refused' =>
    exact for_append loaded.for (for_two (for_of_none rfl) (for_of_none rfl))

/-- In every phase a forwarding task has worked for its client only. -/
theorem Story.for {phase : Option Phase} {L : ServerTrace} (h : Story n client sub phase L) :
    ∀ x ∈ L, For client x := by
  cases h with
  | waiting h => exact h.for
  | pulled h => exact for_append h.for (for_one (for_of_none rfl))
  | cleared h => exact for_append h.for (for_one (for_of_none rfl))
  | exposed h => exact h.for
  | encoded h written => exact h.for
  | accepted h written => exact for_append h.for (for_one (for_sent _ _ _ _))
  | refused h written => exact for_append h.for (for_one (for_sent _ _ _ _))
  | failing h refused => exact for_append h.for (for_two (for_of_none rfl) (for_of_none rfl))
  | closing h => exact h.for
  | done h => exact for_append h.for (for_one (for_of_none rfl))
  | stopped h => exact h.for
  | halted h => exact for_append h.for (for_one (for_of_none rfl))

/-! ## How the passing on of a stream ends -/

/-- As long as a stream goes on, its client was told of items and of nothing else. -/
private theorem Rounds.plain {L : ServerTrace} {ps : List (ServerValue × WireValue)}
    (h : Rounds n client sub L ps) {w : Worker} {other : String} {e : Envelope} {accepted : Bool}
    (hs : .sent w other e accepted ∈ L) :
    ∃ v, (ServerMessage.observation sub.id (.next v)).toEnvelope = .ok e := by
  -- By rounds, in each of which one item is sent.
  induction h with
  | none => simp at hs
  | more before exposed written ih =>
    simp only [List.mem_append, List.mem_cons, ServerEvent.sent.injEq, reduceCtorEq,
      List.not_mem_nil, or_false, false_or] at hs
    rcases hs with hs | ⟨-, -, rfl, -⟩
    · exact ih hs
    · exact ⟨_, written⟩

/-- A task with a notification in hand has sent its own observations only. -/
private theorem Loaded.plain {L : ServerTrace} {ps : List (ServerValue × WireValue)}
    {event : Notification ServerValue} {wire : Notification WireValue} {nested : List Subscription}
    (h : Loaded n client sub L ps event wire nested) {w : Worker} {other : String} {e : Envelope}
    {accepted : Bool} (hs : .sent w other e accepted ∈ L) :
    ∃ v, (ServerMessage.observation sub.id (.next v)).toEnvelope = .ok e := by
  cases h with
  | mk before exposed =>
    simp only [List.mem_append, List.mem_cons, reduceCtorEq, List.not_mem_nil, or_false] at hs
    exact before.plain hs

/-- A message that is one of these or the last one. -/
private theorem speaks_append {L : ServerTrace} {w : Worker} {other : String} {e : Envelope}
    {accepted : Bool} {es : ServerTrace}
    (before : .sent w other e accepted ∈ L →
      ∃ v, (ServerMessage.observation sub.id (.next v)).toEnvelope = .ok e)
    (after : .sent w other e accepted ∈ es →
      ∃ event, (ServerMessage.observation sub.id event).toEnvelope = .ok e)
    (hs : .sent w other e accepted ∈ L ++ es) :
    ∃ event, (ServerMessage.observation sub.id event).toEnvelope = .ok e := by
  -- An item may have been told of before; whatever ends the stream comes after it.
  rcases List.mem_append.1 hs with hs | hs
  · obtain ⟨v, hv⟩ := before hs
    exact ⟨.next v, hv⟩
  · exact after hs

/-- A task that has ended has sent its own observations only. -/
private theorem Ended.speaks {L : ServerTrace} (h : Ended n client sub L) {w : Worker}
    {other : String}
    {e : Envelope} {accepted : Bool} (hs : .sent w other e accepted ∈ L) :
    ∃ event, (ServerMessage.observation sub.id event).toEnvelope = .ok e := by
  cases h with
  | told loaded written last =>
    refine speaks_append loaded.plain (fun hs => ?_) hs
    simp only [List.mem_cons, ServerEvent.sent.injEq, reduceCtorEq, List.not_mem_nil,
      or_false] at hs
    obtain ⟨-, -, rfl, -⟩ := hs
    exact ⟨_, written⟩
  | refused loaded written =>
    refine speaks_append loaded.plain (fun hs => ?_) hs
    simp only [List.mem_cons, ServerEvent.sent.injEq, reduceCtorEq, List.not_mem_nil,
      or_false] at hs
    obtain ⟨-, -, rfl, -⟩ := hs
    exact ⟨_, written⟩
  -- In place of an event that cannot be written stands the failure that says so.
  | excused loaded refused written =>
    refine speaks_append loaded.plain (fun hs => ?_) hs
    simp only [List.mem_cons, ServerEvent.sent.injEq, reduceCtorEq, List.not_mem_nil,
      or_false, false_or] at hs
    obtain ⟨-, -, rfl, -⟩ := hs
    exact ⟨_, written⟩
  -- Nothing was sent at the end.
  | silent loaded refused refused' =>
    refine speaks_append loaded.plain (fun hs => ?_) hs
    simp at hs

/-- A task's rounds do not finish its stream. -/
private theorem Rounds.unfinished {L : ServerTrace} {ps : List (ServerValue × WireValue)}
    (h : Rounds n client sub L ps) {m : Nat} {id : StreamId} : .finished m id ∉ L := by
  induction h with
  | none => simp
  | more before exposed written ih => simpa using ih

/-- A task with a notification in hand has not finished its stream. -/
private theorem Loaded.unfinished {L : ServerTrace} {ps : List (ServerValue × WireValue)}
    {event : Notification ServerValue} {wire : Notification WireValue} {nested : List Subscription}
    (h : Loaded n client sub L ps event wire nested) {m : Nat} {id : StreamId} :
    .finished m id ∉ L := by
  cases h with
  | mk before exposed => simpa using before.unfinished

/-- Why the passing on of a stream ended: the client was told so, or its queue refused something, or
    not even the failure of the stream could be written. -/
def Over (n : Nat) (client : String) (sub : Subscription) (L : ServerTrace) : Prop :=
  (∃ e event, .sent (.forwarding n) client e true ∈ L ∧
      (ServerMessage.observation sub.id event).toEnvelope = .ok e ∧ event.terminal = true) ∨
    (∃ e, .sent (.forwarding n) client e false ∈ L) ∨
      ∃ m err err', .unwritable (.forwarding n) client m err ∈ L ∧
        (ServerMessage.observation sub.id (.error (.unwritable "observation" err))).toEnvelope =
          .error err'

/-- A stream that is over stays so as the trace grows. -/
private theorem Over.mono {L L' : ServerTrace} (h : Over n client sub L) (more : ∀ x ∈ L, x ∈ L') :
    Over n client sub L' := by
  rcases h with ⟨e, event, hs, hw⟩ | ⟨e, hs⟩ | ⟨m, err, err', hs, hw⟩
  · exact .inl ⟨e, event, more _ hs, hw⟩
  · exact .inr (.inl ⟨e, more _ hs⟩)
  · exact .inr (.inr ⟨m, err, err', more _ hs, hw⟩)

/-- The stream of a task that has ended is over. -/
private theorem Ended.over {L : ServerTrace} (h : Ended n client sub L) :
    Over n client sub L ∧ ∀ m id, .finished m id ∉ L := by
  cases h with
  | @told L ps event wire nested e loaded written last =>
    exact ⟨.inl ⟨e, wire, by simp, written, last⟩, fun m id => by simpa using loaded.unfinished⟩
  | @refused L ps event wire nested e loaded written =>
    exact ⟨.inr (.inl ⟨e, by simp⟩), fun m id => by simpa using loaded.unfinished⟩
  | @excused L ps event wire nested err e accepted loaded refused written =>
    refine ⟨?_, fun m id => by simpa using loaded.unfinished⟩
    -- The excuse is an end if it was taken, and otherwise the send was refused.
    cases accepted with
    | true => exact .inl ⟨e, _, by simp, written, rfl⟩
    | false => exact .inr (.inl ⟨e, by simp⟩)
  | @silent L ps event wire nested err err' loaded refused refused' =>
    refine ⟨.inr (.inr ⟨.observation sub.id wire, err, err', by simp, refused'⟩), fun m id => ?_⟩
    simpa using loaded.unfinished

/-- A task finishes its own stream only, and after the stream is over. -/
theorem Story.of_finished {phase : Option Phase} {L : ServerTrace} (h : Story n client sub phase L)
    {m : Nat} {id : StreamId} (hf : .finished m id ∈ L) :
    m = n ∧ id = sub.id ∧ Over n client sub L := by
  cases h with
  | waiting h => exact absurd hf h.unfinished
  | pulled h => exact absurd hf (by simpa using h.unfinished)
  | cleared h => exact absurd hf (by simpa using h.unfinished)
  | exposed h => exact absurd hf h.unfinished
  | encoded h written => exact absurd hf h.unfinished
  | accepted h written => exact absurd hf (by simpa using h.unfinished)
  | refused h written => exact absurd hf (by simpa using h.unfinished)
  | failing h refused => exact absurd hf (by simpa using h.unfinished)
  | closing h => exact absurd hf (h.over.2 m id)
  -- Only a task that is done has told that it finished, and it told it last.
  | done h =>
    obtain ⟨hover, hnone⟩ := h.over
    rcases List.mem_append.1 hf with hf | hf
    · exact absurd hf (hnone m id)
    · obtain ⟨rfl, rfl⟩ := ServerEvent.finished.inj (List.mem_singleton.1 hf)
      exact ⟨rfl, rfl, hover.mono fun x hx => List.mem_append_left _ hx⟩
  | stopped h => exact absurd hf h.unfinished
  | halted h => exact absurd hf (by simpa using h.unfinished)

/-- Once the client was told that a stream has ended, its task retires it. -/
private theorem Story.finished {phase : Option Phase} {L : ServerTrace}
    (h : Story n client sub phase L)
    (quiet : ∀ p, phase = some p → p = .waiting) {w : Worker} {other : String} {e : Envelope}
    {accepted : Bool} (hs : .sent w other e accepted ∈ L) {id : StreamId}
    {event : Notification WireValue} (he : e.serverMessage? = some (.observation id event))
    (last : event.terminal = true) : .finished n id ∈ L := by
  -- While it goes on, its client is told of values, and none of these is an end.
  have hplain : ∀ {L : ServerTrace} {ps : List (ServerValue × WireValue)},
      Rounds n client sub L ps → .sent w other e accepted ∉ L := by
    intro L ps h hs
    obtain ⟨v, hv⟩ := h.plain hs
    rw [ServerMessage.serverMessage_of hv] at he
    obtain ⟨-, rfl⟩ := ServerMessage.observation.inj (Option.some.inj he)
    cases last
  cases h with
  | waiting h => exact absurd hs (hplain h)
  | pulled h => cases quiet _ rfl
  | cleared h => cases quiet _ rfl
  | exposed h => cases quiet _ rfl
  | encoded h written => cases quiet _ rfl
  | accepted h written => cases quiet _ rfl
  | refused h written => cases quiet _ rfl
  | failing h refused => cases quiet _ rfl
  | closing h => cases quiet _ rfl
  | done h =>
    obtain ⟨event', hv⟩ := h.speaks ((List.mem_append.1 hs).resolve_right (by simp))
    rw [ServerMessage.serverMessage_of hv] at he
    obtain ⟨rfl, -⟩ := ServerMessage.observation.inj (Option.some.inj he)
    simp
  -- A task whose stream was retired has told of no end.
  | stopped h => exact absurd hs (hplain h)
  | halted h => exact absurd hs (by simpa using hplain h)

end Forwarding

/-! ## Who a stream is active for -/

/-- An event that takes a stream away from a client. -/
def ServerEvent.Retires (id : StreamId) (client : String) : ServerEvent → Prop
  | closed ids => id ∈ ids
  | dropped _ subs => id ∈ subs.map (·.id)
  | departed other => other = client
  | finished _ other => id = other
  | withdrawn other => id = other
  | _ => False

namespace ServerTrace

/-- After an event an id has its owner from before or from a numbering. -/
private theorem turn_some {id : StreamId} {client : String} {o : Option String} {x : ServerEvent}
    (h : x.turn id o = some client) : (o = some client ∧ ¬ x.Retires id client) ∨
      ∃ w subs, x = .numbered w client subs ∧ id ∈ subs.map (·.id) := by
  cases x with
  -- An owner is given by a numbering only; all other events keep one or take it away.
  | numbered w other subs =>
    simp only [ServerEvent.turn] at h
    split at h
    · next hid =>
      obtain rfl := Option.some.inj h
      exact .inr ⟨w, subs, rfl, hid⟩
    · exact .inl ⟨h, fun hr => hr⟩
  | closed | dropped | finished | withdrawn =>
    simp only [ServerEvent.turn] at h
    split at h
    · cases h
    · next hid => exact .inl ⟨h, hid⟩
  | departed other =>
    simp only [ServerEvent.turn] at h
    split at h
    · cases h
    · next hne =>
      refine .inl ⟨h, fun heq => hne ?_⟩
      -- The client that departed is another one than the owner.
      rw [h]
      exact congrArg some (Eq.symm heq)
  | _ => exact .inl ⟨h, fun hr => hr.elim⟩

/-- An event that retires nothing of an owner leaves the id to it. -/
private theorem turn_of_not_retires {id : StreamId} {client : String} {x : ServerEvent}
    (h : ¬ x.Retires id client) (hid : id ∉ x.numbers) :
    x.turn id (some client) = some client := by
  -- The events that change an owner are these; each misses the id or the client.
  cases x with
  | numbered w other subs => exact if_neg hid
  | closed ids => exact if_neg h
  | dropped w subs => exact if_neg h
  | departed other => exact if_neg fun heq => h (Option.some.inj heq).symm
  | finished n other => exact if_neg h
  | withdrawn other => exact if_neg h
  | _ => rfl

/-- A stream stays with its client as long as nothing takes it away. -/
private theorem foldl_of_not_retires {id : StreamId} {client : String} {tr : ServerTrace}
    (h : ∀ x ∈ tr, ¬ x.Retires id client) (hid : id ∉ tr.numbers) :
    tr.foldl (fun o x => x.turn id o) (some client) = some client := by
  induction tr with
  | nil => rfl
  | cons x tr ih =>
    rw [numbers_cons, List.mem_append, not_or] at hid
    rw [List.foldl_cons, turn_of_not_retires (h x List.mem_cons_self) hid.1]
    exact ih (fun y hy => h y (List.mem_cons_of_mem _ hy)) hid.2

/-- The stream got its number for the client, and nothing has taken it away since. -/
def Holds (tr : ServerTrace) (id : StreamId) (client : String) : Prop :=
  ∃ pre w subs post, tr = pre ++ .numbered w client subs :: post ∧ id ∈ subs.map (·.id) ∧
    ∀ x ∈ post, ¬ x.Retires id client

/-- An id has its owner from the start, or from a numbering since which nothing retired it. -/
theorem holds_of_foldl {id : StreamId} {client : String} {o : Option String} {tr : ServerTrace}
    (h : tr.foldl (fun o x => x.turn id o) o = some client) :
    (o = some client ∧ ∀ x ∈ tr, ¬ x.Retires id client) ∨ tr.Holds id client := by
  -- By the events, from the first: the number is in the rest, or the stream was active before it
  -- and this event gave the number or left it.
  induction tr generalizing o with
  | nil => exact .inl ⟨h, fun x hx => by cases hx⟩
  | cons x tr ih =>
    rcases ih h with ⟨hx, hrest⟩ | ⟨pre, w, subs, post, rfl, hid, hpost⟩
    · rcases turn_some hx with ⟨ho, hr⟩ | ⟨w, subs, rfl, hid⟩
      · refine .inl ⟨ho, fun y hy => ?_⟩
        rcases List.mem_cons.1 hy with rfl | hy
        · exact hr
        · exact hrest y hy
      · exact .inr ⟨[], w, subs, tr, rfl, hid, hrest⟩
    · exact .inr ⟨x :: pre, w, subs, post, rfl, hid, hpost⟩

/-- Of a trace in which no number is given twice. -/
theorem owner_iff_holds {tr : ServerTrace} (nodup : tr.numbers.Nodup) {id : StreamId}
    {client : String} : tr.owner id = some client ↔ tr.Holds id client := by
  constructor
  · intro h
    rcases holds_of_foldl h with ⟨hnone, -⟩ | h
    · cases hnone
    · exact h
  · rintro ⟨pre, w, subs, post, rfl, hid, hpost⟩
    rw [numbers_append, numbers_cons, List.nodup_append] at nodup
    -- The number is given once, so nothing after it gives the stream to another client.
    have hfresh : id ∉ numbers post := fun hmem =>
      (List.nodup_append.1 nodup.2.1).2.2 id hid id hmem rfl
    have hone : ∀ o, ServerEvent.turn id o (.numbered w client subs) = some client :=
      fun o => if_pos hid
    show (pre ++ _ :: post).foldl (fun o x => x.turn id o) none = _
    rw [List.foldl_append, List.foldl_cons, hone]
    exact foldl_of_not_retires hpost hfresh

end ServerTrace

namespace Stage

/-- No task is in the middle of something. -/
structure Quiet (st : Stage) : Prop where
  handling : ∀ (n : Nat) h, st.server.handlings[n]? = some h → ∀ r, h.phase ≠ .replying r
  forwarding : ∀ (n : Nat) f, st.server.forwardings[n]? = some f → f.phase = .waiting

/-- What the trace has of a handling task is that task's story. -/
theorem Told.handling {tr : ServerTrace} {st : Stage} (told : Told tr st) {n : Nat}
    {x : ServerEvent} (hx : x ∈ tr.of (.handling n)) :
    ∃ r, Handling.Story n r (st.server.handlings[n]?.map (·.phase)) (tr.of (.handling n)) := by
  have h := told.handlings n
  -- A handler that has gone has a story all the same, if it did anything.
  cases hn : st.server.handlings[n]? with
  | some h' =>
    rw [hn] at h
    obtain ⟨r, -, -, -, story⟩ := h
    exact ⟨r, story⟩
  | none =>
    rw [hn] at h
    rcases h with h | ⟨r, story⟩
    · rw [h] at hx
      cases hx
    · exact ⟨r, story⟩

/-- What the trace has of a forwarding task is that task's story. -/
theorem Told.forwarding {tr : ServerTrace} {st : Stage} (told : Told tr st) {n : Nat}
    {x : ServerEvent} (hx : x ∈ tr.of (.forwarding n)) :
    ∃ client sub, Forwarding.Story n client sub (st.server.forwardings[n]?.map (·.phase))
      (tr.of (.forwarding n)) := by
  have h := told.forwardings n
  -- As with handlers, a task that has gone has its whole story behind it.
  cases hn : st.server.forwardings[n]? with
  | some f =>
    rw [hn] at h
    obtain ⟨sub, -, -, story⟩ := h
    exact ⟨f.client, sub, story⟩
  | none =>
    rw [hn] at h
    rcases h with h | ⟨client, sub, story⟩
    · rw [h] at hx
      cases hx
    · exact ⟨client, sub, story⟩

variable {tr : ServerTrace} {st₀ st : Stage}

/-- All that is told of one task is for one client, and what it retired had not got there. -/
private theorem Told.task (told : Told tr st) {w : Worker} {x : ServerEvent} (hx : x ∈ tr.of w) :
    (∃ client, ∀ y ∈ tr.of w, For client y) ∧ Dropped (tr.of w) ∧
      (st.Quiet → Settled (tr.of w)) := by
  cases w with
  | handling n =>
    -- All three are read off the story of the task.
    obtain ⟨r, story⟩ := told.handling hx
    refine ⟨⟨r.replyTo, story.for⟩, story.dropped, fun quiet => story.settled fun reply hp => ?_⟩
    obtain ⟨h, hh, hphase⟩ := Option.map_eq_some_iff.1 hp
    exact quiet.handling n h hh reply hphase
  | forwarding n =>
    obtain ⟨client, sub, story⟩ := told.forwarding hx
    refine ⟨⟨client, story.for⟩, story.dropped, fun quiet => story.settled fun p hp => ?_⟩
    obtain ⟨f, hf, rfl⟩ := Option.map_eq_some_iff.1 hp
    exact quiet.forwarding n f hf

/-- An event that uses an id is some task's. -/
private theorem worker_of_uses {x : ServerEvent} {id : StreamId} (h : id ∈ x.uses) :
    ∃ w, x.worker? = some w := by
  cases x with
  | served e => cases h
  | closed ids => cases h
  | departed client => cases h
  | withdrawn other => cases h
  | _ => exact ⟨_, rfl⟩

/-- The streams in a message got their numbers for the client that it was sent to. -/
theorem Told.numbered_of_sent (told : Told tr st) {w : Worker} {client : String} {e : Envelope}
    {accepted : Bool} (h : .sent w client e accepted ∈ tr) {id : StreamId}
    (hid : id ∈ e.introduces) : ∃ subs, .numbered w client subs ∈ tr ∧ id ∈ subs.map (·.id) := by
  have hmem : .sent w client e accepted ∈ tr.of w := ServerTrace.mem_of.2 ⟨h, rfl⟩
  obtain ⟨⟨other, hfor⟩, -, -⟩ := told.task hmem
  obtain rfl := hfor _ hmem client rfl
  -- What a task carries it numbered itself, and all that is told of it is for one client.
  obtain ⟨cargo, tally⟩ := told.tally w
  have hnumbers : id ∈ (tr.of w).numbers := by
    rw [tally.numbers]
    exact List.mem_append_left _ (List.mem_flatMap.2 ⟨_, hmem, hid⟩)
  obtain ⟨x, hx, hidx⟩ := List.mem_flatMap.1 hnumbers
  obtain ⟨hxtr, hw⟩ := ServerTrace.mem_of.1 hx
  cases x with
  | numbered v to' subs =>
    obtain rfl := hfor _ hx to' rfl
    obtain rfl : v = w := Option.some.inj hw
    exact ⟨subs, hxtr, hidx⟩
  | _ => cases hidx

/-- A stream whose fate is told has a number. -/
theorem Run.used (fresh : st₀.Fresh) (run : Run st₀ tr st) {x : ServerEvent} (hx : x ∈ tr)
    {id : StreamId} (hid : id ∈ x.uses) : id ∈ tr.numbers := by
  have told := run.told fresh
  obtain ⟨w, hw⟩ := worker_of_uses hid
  have hmem : x ∈ tr.of w := ServerTrace.mem_of.2 ⟨hx, hw⟩
  -- A stream that is carried was numbered by the same task.
  have hcarried : ∀ {y : ServerEvent} {v : Worker}, y ∈ tr.of v → id ∈ y.carried →
      id ∈ tr.numbers := by
    intro y v hy hc
    obtain ⟨cargo, tally⟩ := told.tally v
    have hof : id ∈ (tr.of v).numbers := by
      rw [tally.numbers]
      exact List.mem_append_left _ (List.mem_flatMap.2 ⟨y, hy, hc⟩)
    exact (List.filter_sublist.flatMap ServerEvent.numbers).subset hof
  rcases List.mem_append.1 hid with hid | hid
  · rcases List.mem_append.1 hid with hid | hid
    · exact hcarried hmem hid
    -- A stream that is dropped was carried and lost.
    · have hdropped := (told.task hmem).2.1
      have hlost := hdropped.subset (List.mem_flatMap.2 ⟨x, hmem, hid⟩)
      obtain ⟨y, hy, hid⟩ := List.mem_flatMap.1 hlost
      exact hcarried hy (y.carried_of_lost hid)
  · cases x with
    | finished n other =>
      obtain rfl := List.mem_singleton.1 hid
      obtain rfl := Option.some.inj hw
      obtain ⟨client, sub, story⟩ := told.forwarding hmem
      -- A stream that is finished is that of the task, and some message carried it.
      obtain ⟨-, rfl, -⟩ := story.of_finished hmem
      obtain ⟨v, e, hs, hid⟩ := run.of_began fresh (mem_of_mem_of story.began)
      exact hcarried (ServerTrace.mem_of.2 ⟨hs, rfl⟩) hid
    | _ => cases hid

/-- Nothing is told of a stream before it has a number. -/
private theorem Run.used_before (fresh : st₀.Fresh) (run : Run st₀ tr st) {pre post : ServerTrace}
    {x : ServerEvent} (h : tr = pre ++ x :: post) {id : StreamId} (hid : id ∈ x.uses) :
    id ∈ pre.numbers := by
  obtain ⟨tr₁, st₁, front, back, st₂, run₁, next, rfl, -⟩ := run.at h
  have hx : x ∈ tr₁ ++ (front ++ x :: back) := by simp
  have hmem := (run₁.step next).used fresh hx hid
  rw [ServerTrace.numbers_append] at hmem ⊢
  rcases List.mem_append.1 hmem with hmem | hmem
  · exact List.mem_append_left _ hmem
  · -- A step that numbers streams tells of nothing else.
    obtain ⟨y, hy, hn⟩ := List.mem_flatMap.1 hmem
    cases y with
    | numbered w client subs =>
      obtain ⟨hes, -⟩ := next.mux.2 w client subs hy
      have hx' : x ∈ front ++ x :: back := by simp
      rw [hes] at hx'
      obtain rfl := List.mem_singleton.1 hx'
      cases hid
    | _ => cases hn

section

variable (fresh : st₀.Fresh) (run : Run st₀ tr st) (few : st.server.mux.numbered ≤ 2 ^ 64)

include fresh run few

/-- What is told of a stream is told after it has a number. -/
theorem Run.uses_after {pre post : ServerTrace} {w : Worker} {client : String}
    {subs : List Subscription} (h : tr = pre ++ .numbered w client subs :: post) {id : StreamId}
    (hid : id ∈ subs.map (·.id)) {x : ServerEvent} (hx : x ∈ tr) (hu : id ∈ x.uses) :
    x ∈ post := by
  have hnodup := run.nodup_numbers fresh few
  rw [h] at hx
  rcases List.mem_append.1 hx with hx | hx
  -- Before the number, the stream would have had another number of the same name.
  · obtain ⟨front, back, rfl⟩ := List.append_of_mem hx
    have hbefore := run.used_before fresh (h.trans (List.append_assoc ..)) hu
    rw [h, ServerTrace.numbers_append, ServerTrace.numbers_append, List.nodup_append] at hnodup
    exact absurd rfl (hnodup.2.2 id (List.mem_append_left _ hbefore) id
      (List.mem_append_left _ hid))
  · rcases List.mem_cons.1 hx with rfl | hx
    · cases hu
    · exact hx

/-- Some streams were handed over to a client. -/
private theorem Run.introduced_of_holds (quiet : st.Quiet) {id : StreamId} {client : String}
    (h : tr.Holds id client) :
    ∃ w e, .sent w client e true ∈ tr ∧ id ∈ e.introduces := by
  have told := run.told fresh
  obtain ⟨pre, w, subs, post, htr, hid, hpost⟩ := h
  have hmem : .numbered w client subs ∈ tr.of w :=
    ServerTrace.mem_of.2 ⟨by simp [htr], rfl⟩
  obtain ⟨⟨other, hfor⟩, -, hsettled⟩ := told.task hmem
  -- The worker works for one client, which is the owner of what it numbers.
  obtain rfl := hfor _ hmem client rfl
  have settled := hsettled quiet
  have hcarried : id ∈ (tr.of w).carried := by
    rw [← settled.numbers]
    exact List.mem_flatMap.2 ⟨_, hmem, hid⟩
  obtain ⟨x, hx, hidx⟩ := List.mem_flatMap.1 hcarried
  -- What the task carried got to the client, or was lost and is dropped, so not active any more.
  rcases x.carried_cases hidx with hhanded | hlost
  · cases x with
    | sent v to' e accepted =>
      cases accepted with
      | false => cases hhanded
      | true =>
        obtain rfl := hfor _ hx to' rfl
        exact ⟨v, e, mem_of_mem_of hx, hhanded⟩
    | _ => cases hhanded
  · have hdrops : id ∈ (tr.of w).drops := by
      rw [settled.drops]
      exact List.mem_flatMap.2 ⟨x, hx, hlost⟩
    obtain ⟨y, hy, hidy⟩ := List.mem_flatMap.1 hdrops
    have hafter := run.uses_after fresh few htr hid (mem_of_mem_of hy)
      (List.mem_append_left _ (List.mem_append_right _ hidy))
    cases y with
    | dropped v subs' => exact absurd hidy (hpost _ hafter)
    | _ => cases hidy

/-- When no task is in the middle of something, a stream is active for a client that is there
    exactly if the client was told about it, and neither it nor the task that passed the stream on
    has ended it. -/
theorem Run.owner_iff (quiet : st.Quiet) {client : String} (present : .departed client ∉ tr)
    (withdrawn : ∀ id, .withdrawn id ∉ tr)
    (timely : ∀ pre ids post, tr = pre ++ .closed ids :: post →
      ∀ id ∈ ids, id ∈ ServerTrace.numbers pre)
    (id : StreamId) :
    st.server.mux.owner id = some client ↔
      (∃ w e, .sent w client e true ∈ tr ∧ id ∈ e.introduces) ∧
        (∀ ids, .closed ids ∈ tr → id ∉ ids) ∧ ∀ n, .finished n id ∉ tr := by
  have told := run.told fresh
  have hnodup := run.nodup_numbers fresh few
  rw [run.owner fresh few, ServerTrace.owner_iff_holds hnodup]
  constructor
  · intro h
    refine ⟨run.introduced_of_holds fresh few quiet h, ?_, ?_⟩
    · intro ids hclosed hmem
      obtain ⟨pre, w, subs, post, htr, hid, hpost⟩ := h
      -- Before the stream got its number no client could ask for it to be closed.
      rw [htr] at hclosed
      rcases List.mem_append.1 hclosed with hclosed | hclosed
      · obtain ⟨front, back, rfl⟩ := List.append_of_mem hclosed
        have hbefore := timely front ids _ (htr.trans (List.append_assoc ..)) id hmem
        rw [htr, ServerTrace.numbers_append, ServerTrace.numbers_append, List.nodup_append]
          at hnodup
        exact hnodup.2.2 id (List.mem_append_left _ hbefore) id (List.mem_append_left _ hid) rfl
      · rcases List.mem_cons.1 hclosed with heq | hclosed
        · cases heq
        · exact hpost _ hclosed hmem
    · intro n hfinished
      obtain ⟨pre, w, subs, post, htr, hid, hpost⟩ := h
      have hafter := run.uses_after fresh few htr hid hfinished (by simp [ServerEvent.uses,
        ServerEvent.ends])
      exact hpost _ hafter rfl
  · rintro ⟨⟨w, e, hs, hid⟩, hclosed, hfinished⟩
    obtain ⟨subs, numbered, hidx⟩ := told.numbered_of_sent hs hid
    obtain ⟨pre, post, htr⟩ := List.append_of_mem numbered
    refine ⟨pre, w, subs, post, htr, hidx, fun y hy hr => ?_⟩
    have hytr : y ∈ tr := by
      rw [htr]
      exact List.mem_append_right _ (List.mem_cons_of_mem _ hy)
    cases y with
    | closed ids => exact hclosed ids hytr hr
    | departed a =>
      obtain rfl : a = client := hr
      exact present hytr
    | finished n other =>
      obtain rfl : id = other := hr
      exact hfinished n hytr
    | withdrawn other => exact withdrawn other hytr
    | dropped u subs' =>
      -- What was dropped had not got there, and one message carries the stream.
      have hy' : .dropped u subs' ∈ tr.of u := ServerTrace.mem_of.2 ⟨hytr, rfl⟩
      have hlost := (told.task hy').2.1.subset (List.mem_flatMap.2 ⟨_, hy', hr⟩)
      obtain ⟨z, hz, hidz⟩ := List.mem_flatMap.1 hlost
      have heq := run.eq_of_carried fresh few (mem_of_mem_of hz) hs (z.carried_of_lost hidz) hid
      rw [heq] at hidz
      cases hidz
    | _ => exact hr

/-- When no task is in the middle of something, nothing is active for a client that is gone. -/
theorem Run.not_owner (quiet : st.Quiet) {client : String} (gone : .departed client ∈ tr)
    (silent : ∀ pre post, tr = pre ++ .departed client :: post →
      ∀ w e, .sent w client e true ∉ post) (id : StreamId) :
    st.server.mux.owner id ≠ some client := by
  intro h
  rw [run.owner fresh few, ServerTrace.owner_iff_holds (run.nodup_numbers fresh few)] at h
  obtain ⟨w, e, hs, hide⟩ := run.introduced_of_holds fresh few quiet h
  obtain ⟨pre, v, subs, post, htr, hid, hpost⟩ := h
  -- The stream was handed over after it got its number; the departure was heard before that, and
  -- then nothing is handed over, or after it, and then the stream is retired.
  have hafter := run.uses_after fresh few htr hid hs
    (List.mem_append_left _ (List.mem_append_left _ hide))
  rw [htr] at gone
  rcases List.mem_append.1 gone with gone | gone
  · obtain ⟨front, back, rfl⟩ := List.append_of_mem gone
    have hsplit : tr = front ++ .departed client :: (back ++ .numbered v client subs :: post) := by
      rw [htr, List.append_assoc, List.cons_append]
    exact silent front _ hsplit w e
      (List.mem_append_right _ (List.mem_cons_of_mem _ hafter))
  · rcases List.mem_cons.1 gone with heq | gone
    · cases heq
    · exact hpost _ gone rfl

/-- Why the passing on of a stream ended that a client was told about: the client was told so, or
    its queue refused something, or not even the failure of the stream could be written. -/
theorem Run.of_finished {n : Nat} {id : StreamId} (h : .finished n id ∈ tr) {w : Worker}
    {client : String} {e : Envelope} (hs : .sent w client e true ∈ tr) (hid : id ∈ e.introduces) :
    ∃ sub : Subscription, sub.id = id ∧ Forwarding.Over n client sub tr := by
  have told := run.told fresh
  have hmem : .finished n id ∈ tr.of (.forwarding n) := ServerTrace.mem_of.2 ⟨h, rfl⟩
  obtain ⟨other, sub, story⟩ := told.forwarding hmem
  obtain ⟨-, rfl, hover⟩ := story.of_finished hmem
  obtain ⟨v, e', hs', hid'⟩ := run.of_began fresh (mem_of_mem_of story.began)
  -- The id was introduced to one client only, the one the task works for.
  have heq := run.eq_of_carried fresh few hs' hs hid' hid
  obtain ⟨-, rfl, -, -⟩ := ServerEvent.sent.inj heq
  exact ⟨sub, rfl, hover.mono fun x hx => mem_of_mem_of hx⟩

end

/-- Once a client was told that a stream has ended, and no task is in the middle of something, the
    stream was retired. -/
theorem Run.finished_of_told (fresh : st₀.Fresh) (run : Run st₀ tr st) (quiet : st.Quiet)
    {w : Worker} {client : String} {e : Envelope} {accepted : Bool}
    (hs : .sent w client e accepted ∈ tr) {id : StreamId} {event : Notification WireValue}
    (he : e.serverMessage? = some (.observation id event)) (last : event.terminal = true) :
    ∃ n, .finished n id ∈ tr := by
  have told := run.told fresh
  obtain ⟨pre, post, htr⟩ := List.append_of_mem hs
  rcases run.of_sent fresh htr with ⟨n, cid, result, -, hr⟩ | ⟨n, sub, event', rfl, -, -⟩
  -- An answer tells of no end.
  · rw [ServerMessage.serverMessage_of hr] at he
    cases he
  · have hmem : .sent (.forwarding n) client e accepted ∈ tr.of (.forwarding n) :=
      ServerTrace.mem_of.2 ⟨hs, rfl⟩
    obtain ⟨other, sub', story⟩ := told.forwarding hmem
    refine ⟨n, mem_of_mem_of (story.finished (fun p hp => ?_) hmem he last)⟩
    obtain ⟨f, hf, rfl⟩ := Option.map_eq_some_iff.1 hp
    exact quiet.forwarding n f hf

end Stage

end StreamRpc
