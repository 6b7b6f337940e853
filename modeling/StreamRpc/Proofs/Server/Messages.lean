import Mathlib.Data.List.Flatten
import Mathlib.Data.List.Pairwise
import StreamRpc.Proofs.Server.Books
import StreamRpc.Proofs.Server.Heard

/-! # Streams and the messages that carry them

Each stream that a task gives a number to is carried by at most one message of that task, and the
task starts only streams that were carried by a message the queue took.  As no number is given
twice, the same is true of a whole run.

* `Stage.Run.nodup_carried`   no stream is carried twice
* `Stage.Run.of_began`        a stream that begins was introduced to its client
* `Stage.Run.of_sent`         who sends a message, and what the message is
-/

namespace StreamRpc

namespace ServerMessage

/-- The streams that stand in the slots of a message. -/
def introduces : ServerMessage → List StreamId
  | reply _ (.ok v) => v.slots
  | observation _ (.next v) => v.slots
  | _ => []

/-- All streams that a message speaks of. -/
def mentions : ServerMessage → List StreamId
  | observation id event => id :: introduces (observation id event)
  | m => m.introduces

end ServerMessage

/-- What a server says with an envelope. -/
def Envelope.serverMessage? (e : Envelope) : Option ServerMessage :=
  (ServerMessage.ofEnvelope e).toOption

/-- The streams that stand in the slots of the message in an envelope. -/
def Envelope.introduces (e : Envelope) : List StreamId :=
  e.serverMessage?.elim [] ServerMessage.introduces

/-- An envelope that was written for a message is read as it. -/
theorem ServerMessage.serverMessage_of {m : ServerMessage} {e : Envelope}
    (h : m.toEnvelope = .ok e) : e.serverMessage? = some m := by
  simp [Envelope.serverMessage?, ofEnvelope_toEnvelope h, Except.toOption]

/-- An envelope introduces the ids of the message it was written for. -/
theorem ServerMessage.introduces_of {m : ServerMessage} {e : Envelope}
    (h : m.toEnvelope = .ok e) : e.introduces = m.introduces := by
  simp [Envelope.introduces, serverMessage_of h]

namespace ServerEvent

/-- The streams in the slots of the message that was sent, or could not be written. -/
def carried : ServerEvent → List StreamId
  | sent _ _ e _ => e.introduces
  | unwritable _ _ m _ => m.introduces
  | _ => []

/-- The streams that are started. -/
def starts : ServerEvent → List StreamId
  | started _ subs => subs.map (·.id)
  | _ => []

/-- The stream that begins. -/
def begins : ServerEvent → List StreamId
  | began _ _ sub => [sub.id]
  | _ => []

end ServerEvent

namespace ServerTrace

/-- The streams carried by messages, in order. -/
def carried (tr : ServerTrace) : List StreamId :=
  tr.flatMap ServerEvent.carried

/-- The streams that were started, in order. -/
def starts (tr : ServerTrace) : List StreamId :=
  tr.flatMap ServerEvent.starts

/-- The streams that began, in order. -/
def begins (tr : ServerTrace) : List StreamId :=
  tr.flatMap ServerEvent.begins

/-- Nothing is numbered before the first event. -/
@[simp] theorem numbers_nil : numbers [] = [] := rfl

/-- The first event's ids are numbered first. -/
@[simp] theorem numbers_cons (x : ServerEvent) (tr : ServerTrace) :
    numbers (x :: tr) = x.numbers ++ numbers tr := rfl

/-- Ids numbered are read off a trace piece by piece. -/
@[simp] theorem numbers_append (tr tr' : ServerTrace) :
    numbers (tr ++ tr') = numbers tr ++ numbers tr' := List.flatMap_append

/-- Nothing is carried before the first event. -/
@[simp] theorem carried_nil : carried [] = [] := rfl

/-- The first event's ids are carried first. -/
@[simp] theorem carried_cons (x : ServerEvent) (tr : ServerTrace) :
    carried (x :: tr) = x.carried ++ carried tr := rfl

/-- Ids carried are read off a trace piece by piece. -/
@[simp] theorem carried_append (tr tr' : ServerTrace) :
    carried (tr ++ tr') = carried tr ++ carried tr' := List.flatMap_append

/-- Nothing is started before the first event. -/
@[simp] theorem starts_nil : starts [] = [] := rfl

/-- The first event's ids are started first. -/
@[simp] theorem starts_cons (x : ServerEvent) (tr : ServerTrace) :
    starts (x :: tr) = x.starts ++ starts tr := rfl

/-- Ids started are read off a trace piece by piece. -/
@[simp] theorem starts_append (tr tr' : ServerTrace) :
    starts (tr ++ tr') = starts tr ++ starts tr' := List.flatMap_append

end ServerTrace

open ServerMessage (introduces_of)

/-! ## One task -/

/-- The streams that a task numbered are those its messages carried and those that it has not sent
    yet, and it started only streams that were carried. -/
structure Tally (L : ServerTrace) (cargo : List StreamId) : Prop where
  numbers : L.numbers = L.carried ++ cargo
  starts : L.starts.Sublist L.carried

namespace Handling

variable {n : Nat} {r : Request}

/-- A reply introduces the streams that its result was exposed with. -/
private theorem ExposesResult.introduces {made : Except Failure ServerValue}
    {wire : Except Failure WireValue} {subs : List Subscription} (h : ExposesResult made wire subs)
    (id : CallId) : (ServerMessage.reply id wire).introduces = subs.map (·.id) := by
  -- Exposing keeps the side, and a failure introduces nothing.
  cases made with
  | ok v =>
    cases wire with
    | ok w => exact h.ids
    | error f => cases h
  | error f =>
    cases wire with
    | ok w => cases h
    | error f' =>
      obtain ⟨-, rfl⟩ := h
      rfl

/-- A request that has its answer has numbered, carried and started nothing. -/
theorem Answered.tally {L : ServerTrace} {made : Except Failure ServerValue}
    (h : Answered n r L made) : L.numbers = [] ∧ L.carried = [] ∧ L.starts = [] := by
  cases h <;> exact ⟨rfl, rfl, rfl⟩

/-- A request with its reply in hand has numbered the streams in that, and carried none. -/
theorem Loaded.tally {L : ServerTrace} {wire : Except Failure WireValue}
    {subs : List Subscription} (h : Loaded n r L wire subs) :
    L.numbers = subs.map (·.id) ∧ L.carried = [] ∧ L.starts = [] ∧
      (ServerMessage.reply r.id wire).introduces = subs.map (·.id) := by
  cases h with
  | mk answered exposed =>
    -- Nothing is numbered or carried before the answer is exposed.
    obtain ⟨h1, h2, h3⟩ := answered.tally
    refine ⟨?_, ?_, ?_, ExposesResult.introduces exposed r.id⟩
    · simp [h1, ServerEvent.numbers]
    · simp [h2, ServerEvent.carried]
    · simp [h3, ServerEvent.starts]

/-- A request that has written its reply has numbered what it carried and what is in the reply. -/
theorem Written.tally {L : ServerTrace} {e : Envelope} {subs : List Subscription}
    (h : Written n r L e subs) :
    L.numbers = L.carried ++ subs.map (·.id) ∧ L.starts = [] ∧
      ∃ result, (ServerMessage.reply r.id result).toEnvelope = .ok e ∧
        (ServerMessage.reply r.id result).introduces = subs.map (·.id) := by
  cases h with
  | plain loaded written =>
    obtain ⟨h1, h2, h3, h4⟩ := loaded.tally
    exact ⟨by rw [h1, h2, List.nil_append], h3, _, written, h4⟩
  -- The excuse carries no stream, so what was numbered for the value has to be dropped.
  | excuse loaded refused written =>
    obtain ⟨h1, h2, h3, h4⟩ := loaded.tally
    refine ⟨?_, ?_, _, written, rfl⟩
    · simp [h1, h2, h4, ServerEvent.numbers, ServerEvent.carried]
    · simp [h3, ServerEvent.starts]

/-- The books of a request are in order in every phase. -/
private theorem Story.tally {phase : Option Phase} {L : ServerTrace} (h : Story n r phase L) :
    ∃ cargo, Tally L cargo := by
  cases h with
  | received => exact ⟨[], rfl, List.nil_sublist _⟩
  | running => exact ⟨[], rfl, List.nil_sublist _⟩
  | sleeping => exact ⟨[], rfl, List.nil_sublist _⟩
  | answered h =>
    obtain ⟨h1, h2, h3⟩ := h.tally
    exact ⟨[], by rw [h1, h2, List.nil_append], by rw [h3]; exact List.nil_sublist _⟩
  -- The streams of the answer are the cargo from when they have numbers until the answer is sent;
  -- then they were carried, or given up.
  | exposed h =>
    obtain ⟨h1, h2, h3, -⟩ := h.tally
    exact ⟨_, by rw [h1, h2, List.nil_append], by rw [h3]; exact List.nil_sublist _⟩
  | encoded h =>
    obtain ⟨h1, h2, -⟩ := h.tally
    exact ⟨_, h1, by rw [h2]; exact List.nil_sublist _⟩
  | accepted h =>
    obtain ⟨h1, h2, result, h3, h4⟩ := h.tally
    refine ⟨[], ?_, ?_⟩
    · simp [h1, introduces_of h3, h4, ServerEvent.numbers, ServerEvent.carried]
    · simp [h2, ServerEvent.starts]
  | refused h =>
    obtain ⟨h1, h2, result, h3, h4⟩ := h.tally
    refine ⟨[], ?_, ?_⟩
    · simp [h1, introduces_of h3, h4, ServerEvent.numbers, ServerEvent.carried]
    · simp [h2, ServerEvent.starts]
  | done h =>
    obtain ⟨h1, h2, result, h3, h4⟩ := h.tally
    refine ⟨[], ?_, ?_⟩
    · simp [h1, introduces_of h3, h4, ServerEvent.numbers, ServerEvent.carried]
    · simp [h2, introduces_of h3, h4, ServerEvent.starts, ServerEvent.carried]
  | failed h =>
    obtain ⟨h1, h2, result, h3, h4⟩ := h.tally
    refine ⟨[], ?_, ?_⟩
    · simp [h1, introduces_of h3, h4, ServerEvent.numbers, ServerEvent.carried]
    · simp [h2, ServerEvent.starts]
  | lost h refused =>
    obtain ⟨h1, h2, h3, h4⟩ := h.tally
    refine ⟨[], ?_, ?_⟩
    · simp [h1, h2, h4, ServerEvent.numbers, ServerEvent.carried]
    · simp [h3, ServerEvent.starts]

end Handling

namespace Forwarding

variable {n : Nat} {client : String} {sub : Subscription}

/-- An observation introduces the streams that its event was exposed with. -/
private theorem ExposesEvent.introduces {event : Notification ServerValue}
    {wire : Notification WireValue} {nested : List Subscription}
    (h : ExposesEvent event wire nested) (id : StreamId) :
    (ServerMessage.observation id wire).introduces = nested.map (·.id) := by
  -- Exposing keeps the kind of event, and only an item introduces streams.
  cases event with
  | next v =>
    cases wire with
    | next w => exact h.ids
    | error f => cases h
    | completed => cases h
  | error f =>
    cases wire with
    | next w => cases h
    | error f' =>
      obtain ⟨-, rfl⟩ := h
      rfl
    | completed => cases h
  | completed =>
    cases wire with
    | next w => cases h
    | error f => cases h
    | completed =>
      obtain rfl := h
      rfl

/-- In its rounds a stream's task has carried and started what it numbered. -/
private theorem Rounds.tally {L : ServerTrace} {ps : List (ServerValue × WireValue)}
    (h : Rounds n client sub L ps) : L.numbers = L.carried ∧ L.starts = L.carried := by
  -- By rounds: in each, what was numbered was carried at once and started.
  induction h with
  | none => exact ⟨rfl, rfl⟩
  | @more L ps v wire nested e before exposed written ih =>
    obtain ⟨h1, h2⟩ := ih
    have hids : (ServerMessage.observation sub.id (.next wire)).introduces =
        nested.map (·.id) := exposed.ids
    constructor
    · simp [h1, introduces_of written, hids, ServerEvent.numbers, ServerEvent.carried]
    · simp [h2, introduces_of written, hids, ServerEvent.starts, ServerEvent.carried]

/-- A stream's task with an observation in hand has numbered what it carried and what is in that. -/
theorem Loaded.tally {L : ServerTrace} {ps : List (ServerValue × WireValue)}
    {event : Notification ServerValue} {wire : Notification WireValue} {nested : List Subscription}
    (h : Loaded n client sub L ps event wire nested) :
    L.numbers = L.carried ++ nested.map (·.id) ∧ L.starts = L.carried ∧
      (ServerMessage.observation sub.id wire).introduces = nested.map (·.id) := by
  cases h with
  | mk before exposed =>
    -- What the earlier items numbered was carried; this one's ids are not yet.
    obtain ⟨h1, h2⟩ := before.tally
    refine ⟨?_, ?_, ExposesEvent.introduces exposed sub.id⟩
    · simp [h1, ServerEvent.numbers, ServerEvent.carried]
    · simp [h2, ServerEvent.starts, ServerEvent.carried]

/-- A stream's task that has ended has carried what it numbered. -/
theorem Ended.tally {L : ServerTrace} (h : Ended n client sub L) : Tally L [] := by
  -- The last item went like the others, or its streams were dropped and nothing was carried.
  cases h with
  | told loaded written last =>
    obtain ⟨h1, h2, h3⟩ := loaded.tally
    constructor
    · simp [h1, introduces_of written, h3, ServerEvent.numbers, ServerEvent.carried]
    · simp [h2, introduces_of written, h3, ServerEvent.starts, ServerEvent.carried]
  | refused loaded written =>
    obtain ⟨h1, h2, h3⟩ := loaded.tally
    constructor
    · simp [h1, introduces_of written, h3, ServerEvent.numbers, ServerEvent.carried]
    · simp [h2, ServerEvent.starts, ServerEvent.carried]
  | excused loaded refused written =>
    obtain ⟨h1, h2, h3⟩ := loaded.tally
    have hf : _ = ([] : List StreamId) := introduces_of written
    constructor
    · simp [h1, hf, h3, ServerEvent.numbers, ServerEvent.carried]
    · simp [h2, ServerEvent.starts, ServerEvent.carried]
  | silent loaded refused refused' =>
    obtain ⟨h1, h2, h3⟩ := loaded.tally
    constructor
    · simp [h1, h3, ServerEvent.numbers, ServerEvent.carried]
    · simp [h2, ServerEvent.starts, ServerEvent.carried]

/-- The books of a stream are in order in every phase. -/
private theorem Story.tally {phase : Option Phase} {L : ServerTrace}
    (h : Story n client sub phase L) : ∃ cargo, Tally L cargo := by
  cases h with
  | waiting h =>
    obtain ⟨h1, h2⟩ := h.tally
    exact ⟨[], by rw [h1, List.append_nil], by rw [h2]⟩
  | pulled h =>
    obtain ⟨h1, h2⟩ := h.tally
    exact ⟨[], by simp [h1, ServerEvent.numbers, ServerEvent.carried],
      by simp [h2, ServerEvent.starts, ServerEvent.carried]⟩
  | cleared h =>
    obtain ⟨h1, h2⟩ := h.tally
    exact ⟨[], by simp [h1, ServerEvent.numbers, ServerEvent.carried],
      by simp [h2, ServerEvent.starts, ServerEvent.carried]⟩
  -- While an item is being written, what is nested in it is still under way.
  | exposed h =>
    obtain ⟨h1, h2, -⟩ := h.tally
    exact ⟨_, h1, by rw [h2]⟩
  | encoded h written =>
    obtain ⟨h1, h2, -⟩ := h.tally
    exact ⟨_, h1, by rw [h2]⟩
  -- The message has introduced its streams, so nothing is under way any more.
  | accepted h written =>
    obtain ⟨h1, h2, h3⟩ := h.tally
    refine ⟨[], ?_, ?_⟩
    · simp [h1, introduces_of written, h3, ServerEvent.numbers, ServerEvent.carried]
    · simp [h2, ServerEvent.starts, ServerEvent.carried]
  | refused h written =>
    obtain ⟨h1, h2, h3⟩ := h.tally
    refine ⟨[], ?_, ?_⟩
    · simp [h1, introduces_of written, h3, ServerEvent.numbers, ServerEvent.carried]
    · simp [h2, ServerEvent.starts, ServerEvent.carried]
  | failing h refused =>
    obtain ⟨h1, h2, h3⟩ := h.tally
    refine ⟨[], ?_, ?_⟩
    · simp [h1, h3, ServerEvent.numbers, ServerEvent.carried]
    · simp [h2, ServerEvent.starts, ServerEvent.carried]
  | closing h => exact ⟨[], h.tally⟩
  | done h =>
    obtain ⟨h1, h2⟩ := h.tally
    exact ⟨[], by simp [h1, ServerEvent.numbers, ServerEvent.carried],
      by simpa [ServerEvent.starts, ServerEvent.carried] using h2⟩
  | stopped h =>
    obtain ⟨h1, h2⟩ := h.tally
    exact ⟨[], by rw [h1, List.append_nil], by rw [h2]⟩
  | halted h =>
    obtain ⟨h1, h2⟩ := h.tally
    exact ⟨[], by simp [h1, ServerEvent.numbers, ServerEvent.carried],
      by simp [h2, ServerEvent.starts, ServerEvent.carried]⟩

end Forwarding

/-! ## All tasks -/

namespace ServerTrace

/-- What is in two parts of a list without repetitions is in one part twice. -/
theorem eq_of_mem_flatMap {α β : Type} {l : List α} {f : α → List β} (h : (l.flatMap f).Nodup)
    {x y : α} (hx : x ∈ l) (hy : y ∈ l) {b : β} (hbx : b ∈ f x) (hby : b ∈ f y) : x = y := by
  by_contra hne
  have hsymm : Std.Symm (Function.onFun List.Disjoint f) :=
    ⟨fun _ _ hd _ hx hy => hd hy hx⟩
  exact (List.nodup_flatMap.1 h).2.forall hx hy hne hbx hby

/-- What each task does with its own things only, and at most once, is done at most once by all
    tasks together. -/
theorem nodup_flatMap_of_local {α : Type} {tr : ServerTrace} {f g : ServerEvent → List α}
    (nodup : (tr.flatMap g).Nodup) (hnone : ∀ x : ServerEvent, x.worker? = none → f x = [])
    (hlocal : ∀ w, ((tr.of w).flatMap f).Sublist ((tr.of w).flatMap g)) :
    (tr.flatMap f).Nodup := by
  -- Within one task it is at most once, as a part of what is at most once.
  have hown : ∀ w, ((tr.of w).flatMap f).Nodup := fun w =>
    ((hlocal w).trans (List.filter_sublist.flatMap g)).nodup nodup
  -- Whatever a task does with it goes back to something of its own.
  have hfrom : ∀ {x : ServerEvent} {w : Worker} {a : α}, x ∈ tr → x.worker? = some w →
      a ∈ f x → ∃ y ∈ tr, y.worker? = some w ∧ a ∈ g y := by
    intro x w a hx hw ha
    have hmem : a ∈ (tr.of w).flatMap g :=
      (hlocal w).subset (List.mem_flatMap.2 ⟨x, mem_of.2 ⟨hx, hw⟩, ha⟩)
    obtain ⟨y, hy, hay⟩ := List.mem_flatMap.1 hmem
    exact ⟨y, (mem_of.1 hy).1, (mem_of.1 hy).2, hay⟩
  refine List.nodup_flatMap.2 ⟨fun x hx => ?_, ?_⟩
  · cases hw : x.worker? with
    | none =>
      rw [hnone x hw]
      exact List.nodup_nil
    | some w => exact (List.nodup_flatMap.1 (hown w)).1 x (mem_of.2 ⟨hx, hw⟩)
  · refine List.pairwise_iff_forall_sublist.2 fun {x y} hxy => ?_
    have hx : x ∈ tr := hxy.subset (by simp)
    have hy : y ∈ tr := hxy.subset (by simp)
    intro a hax hay
    cases hwx : x.worker? with
    | none => simp [hnone x hwx] at hax
    | some w =>
      cases hwy : y.worker? with
      | none => simp [hnone y hwy] at hay
      | some w' =>
        -- Two events with the same thing go back to one, which has one task: they are of the same
        -- task, where this does not happen.
        obtain ⟨x', hx', hwx', hax'⟩ := hfrom hx hwx hax
        obtain ⟨y', hy', hwy', hay'⟩ := hfrom hy hwy hay
        obtain rfl := eq_of_mem_flatMap nodup hx' hy' hax' hay'
        obtain rfl : w = w' := Option.some.inj (hwx'.symm.trans hwy')
        have hpair := (List.nodup_flatMap.1 (hown w)).2
        have hxy' : List.Sublist [x, y] (tr.of w) := by
          have hboth : ServerTrace.of [x, y] w = [x, y] := by
            rw [of_cons, of_cons, if_pos hwx, if_pos hwy, of_nil]
          rw [← hboth]
          exact hxy.filter _
        exact List.pairwise_iff_forall_sublist.1 hpair hxy' hax hay

end ServerTrace

namespace Stage

/-- What a task has numbered and not carried is its cargo. -/
theorem Told.tally {tr : ServerTrace} {st : Stage} (told : Told tr st) (w : Worker) :
    ∃ cargo, Tally (tr.of w) cargo := by
  cases w with
  | handling n =>
    have h := told.handlings n
    cases hn : st.server.handlings[n]? with
    | some h' =>
      rw [hn] at h
      obtain ⟨r, -, -, -, story⟩ := h
      exact story.tally
    | none =>
      rw [hn] at h
      -- A task that is not there has not begun, or is over.
      rcases h with h | ⟨r, story⟩
      · rw [h]
        exact ⟨[], rfl, List.nil_sublist _⟩
      · exact story.tally
  -- Forwarding tasks have stories of the same form.
  | forwarding n =>
    have h := told.forwardings n
    cases hn : st.server.forwardings[n]? with
    | some f =>
      rw [hn] at h
      obtain ⟨sub, -, -, story⟩ := h
      exact story.tally
    | none =>
      rw [hn] at h
      rcases h with h | ⟨client, sub, story⟩
      · rw [h]
        exact ⟨[], rfl, List.nil_sublist _⟩
      · exact story.tally

section

variable {st₀ st : Stage} {tr : ServerTrace} (fresh : st₀.Fresh) (run : Run st₀ tr st)
  (few : st.server.mux.numbered ≤ 2 ^ 64)

include fresh run few

/-- No stream is carried twice. -/
theorem Run.nodup_carried : tr.carried.Nodup := by
  refine ServerTrace.nodup_flatMap_of_local (run.nodup_numbers fresh few) ?_ fun w => ?_
  · intro x hx
    cases x <;> first | rfl | cases hx
  · obtain ⟨cargo, tally⟩ := (run.told fresh).tally w
    show List.Sublist _ (tr.of w).numbers
    rw [tally.numbers]
    exact List.sublist_append_left _ _

/-- No stream is started twice. -/
theorem Run.nodup_starts : tr.starts.Nodup := by
  refine ServerTrace.nodup_flatMap_of_local (run.nodup_numbers fresh few) ?_ fun w => ?_
  · intro x hx
    cases x <;> first | rfl | cases hx
  · obtain ⟨cargo, tally⟩ := (run.told fresh).tally w
    show List.Sublist _ (tr.of w).numbers
    rw [tally.numbers]
    exact tally.starts.trans (List.sublist_append_left _ _)

/-- A stream that is carried by two messages is carried by one. -/
theorem Run.eq_of_carried {x y : ServerEvent} (hx : x ∈ tr) (hy : y ∈ tr) {id : StreamId}
    (hix : id ∈ x.carried) (hiy : id ∈ y.carried) : x = y :=
  ServerTrace.eq_of_mem_flatMap (run.nodup_carried fresh few) hx hy hix hiy

end

end Stage

/-! ## Who says what -/

/-- A stream's task that is in its rounds has begun. -/
private theorem Forwarding.Rounds.began {n : Nat} {client : String} {sub : Subscription}
    {L : ServerTrace}
    {ps : List (ServerValue × WireValue)} (h : Rounds n client sub L ps) :
    ServerEvent.began n client sub ∈ L := by
  induction h with
  | none => exact List.mem_singleton_self _
  | more _ _ _ ih => exact List.mem_append_left _ ih

/-- A stream's task with an observation in hand has begun. -/
private theorem Forwarding.Loaded.began {n : Nat} {client : String} {sub : Subscription}
    {L : ServerTrace} {ps : List (ServerValue × WireValue)} {event : Notification ServerValue}
    {wire : Notification WireValue} {nested : List Subscription}
    (h : Loaded n client sub L ps event wire nested) : ServerEvent.began n client sub ∈ L := by
  cases h with
  | mk before _ => exact List.mem_append_left _ before.began

/-- A stream's task that has ended has begun. -/
private theorem Forwarding.Ended.began {n : Nat} {client : String} {sub : Subscription}
    {L : ServerTrace}
    (h : Ended n client sub L) : ServerEvent.began n client sub ∈ L := by
  cases h with
  | told loaded => exact List.mem_append_left _ loaded.began
  | refused loaded => exact List.mem_append_left _ loaded.began
  | excused loaded => exact List.mem_append_left _ loaded.began
  | silent loaded => exact List.mem_append_left _ loaded.began

/-- The story of a stream begins with its beginning. -/
theorem Forwarding.Story.began {n : Nat} {client : String} {sub : Subscription}
    {phase : Option Phase} {L : ServerTrace} (h : Story n client sub phase L) :
    ServerEvent.began n client sub ∈ L := by
  -- Every story goes on from an earlier one, and the first is the beginning of the task.
  cases h with
  | waiting h => exact h.began
  | pulled h => exact List.mem_append_left _ h.began
  | cleared h => exact List.mem_append_left _ h.began
  | exposed h => exact h.began
  | encoded h => exact h.began
  | accepted h => exact List.mem_append_left _ h.began
  | refused h => exact List.mem_append_left _ h.began
  | failing h => exact List.mem_append_left _ h.began
  | closing h => exact h.began
  | done h => exact List.mem_append_left _ h.began
  | stopped h => exact h.began
  | halted h => exact List.mem_append_left _ h.began

namespace Stage

/-- An answer is sent when it is written. -/
private theorem sent_of_reply {st st' : Stage} {w w' : Worker} {client client' : String}
    {id : CallId}
    {reply : Reply} {es : ServerTrace} {next : Reply ⊕ Except CallError Unit} {e : Envelope}
    {accepted : Bool} (does : reply.Does w client id st es next st')
    (h : .sent w' client' e accepted ∈ es) :
    w' = w ∧ client' = client ∧ (∃ subs, reply = .encoded e subs) ∧
      accepted = (st.transport.send client e).1.isOk := by
  cases does with
  | accept taken =>
    obtain ⟨rfl, rfl, rfl, rfl⟩ := ServerEvent.sent.inj (List.mem_singleton.1 h)
    exact ⟨rfl, rfl, ⟨_, rfl⟩, by rw [taken]; rfl⟩
  | refuse refused =>
    obtain ⟨rfl, rfl, rfl, rfl⟩ := ServerEvent.sent.inj (List.mem_singleton.1 h)
    exact ⟨rfl, rfl, ⟨_, rfl⟩, by rw [refused]; rfl⟩
  -- Starting the nested tasks tells of beginnings only.
  | start subs => obtain h | ⟨_, _, _, _, h⟩ := ServerTrace.mem_started h <;> cases h
  | _ => simp at h

/-- The streams in an answer begin when the queue has taken it. -/
private theorem began_of_reply {st st' : Stage} {w : Worker} {client client' : String} {id : CallId}
    {reply : Reply} {es : ServerTrace} {next : Reply ⊕ Except CallError Unit} {n : Nat}
    {sub : Subscription} (does : reply.Does w client id st es next st')
    (h : .began n client' sub ∈ es) :
    client' = client ∧ ∃ subs, reply = .accepted subs ∧
      .began n client sub ∈ begun client st.server.nextTask subs := by
  -- Only an accepted reply begins tasks.
  cases does with
  | start subs =>
    have hb := (List.mem_cons.1 h).resolve_left (by simp)
    obtain ⟨_, _, _, _, heq⟩ := ServerTrace.mem_begun hb
    obtain ⟨-, rfl, -⟩ := ServerEvent.began.inj heq
    exact ⟨rfl, subs, rfl, hb⟩
  | _ => simp at h

/-- Who sends a message, and what the message is. -/
def Speaks (tr : ServerTrace) (w : Worker) (client : String) (e : Envelope) : Prop :=
  (∃ n id result, w = .handling n ∧ (ServerMessage.reply id result).toEnvelope = .ok e) ∨
    ∃ n sub event, w = .forwarding n ∧ .began n client sub ∈ tr ∧
      (ServerMessage.observation sub.id event).toEnvelope = .ok e

/-- A stream that begins was introduced to its client. -/
def Introduced (tr : ServerTrace) (client : String) (id : StreamId) : Prop :=
  ∃ w e, .sent w client e true ∈ tr ∧ id ∈ e.introduces

/-- A request that is there has its story in the trace. -/
theorem Told.of_handling {tr : ServerTrace} {st : Stage} (told : Told tr st) {n : Nat}
    {h : Handling} (found : st.server.handlings[n]? = some h) :
    ∃ r : Request, r.replyTo = h.client ∧ r.id = h.id ∧ r.method = h.method ∧
      Handling.Story n r (some h.phase) (tr.of (.handling n)) := by
  have := told.handlings n
  rwa [found] at this

/-- A stream that is there has its story in the trace. -/
theorem Told.of_forwarding {tr : ServerTrace} {st : Stage} (told : Told tr st) {n : Nat}
    {f : Forwarding} (found : st.server.forwardings[n]? = some f) :
    ∃ sub : Subscription, f.id = sub.id ∧ f.source = sub.source ∧
      Forwarding.Story n f.client sub (some f.phase) (tr.of (.forwarding n)) := by
  have := told.forwardings n
  rwa [found] at this

/-- What is told of one task is told in the trace. -/
theorem mem_of_mem_of {tr : ServerTrace} {w : Worker} {x : ServerEvent} (h : x ∈ tr.of w) :
    x ∈ tr :=
  (ServerTrace.mem_of.1 h).1

/-- A task of the server is about to send this message to a client. -/
inductive Sending (st : Stage) : Worker → String → Envelope → Prop where
  | answer {n : Nat} {h : Handling} {e : Envelope} {subs : List Subscription}
      (found : st.server.handlings[n]? = some h) (phase : h.phase = .replying (.encoded e subs)) :
      Sending st (.handling n) h.client e
  | item {n : Nat} {f : Forwarding} {e : Envelope} {terminal : Bool} {nested : List Subscription}
      (found : st.server.forwardings[n]? = some f) (phase : f.phase = .encoded e terminal nested) :
      Sending st (.forwarding n) f.client e
  | failure {n : Nat} {f : Forwarding} {e : Envelope} {failure : Failure}
      (found : st.server.forwardings[n]? = some f) (phase : f.phase = .failing failure)
      (written : (ServerMessage.observation f.id (.error failure)).toEnvelope = .ok e) :
      Sending st (.forwarding n) f.client e

/-- What a step sends some task was about to send, and whether it is taken is up to the queue. -/
theorem Step.sender {es : ServerTrace} {st st' : Stage} (next : Step st es st') {w : Worker}
    {client : String} {e : Envelope} {accepted : Bool} (h : .sent w client e accepted ∈ es) :
    Sending st w client e ∧ accepted = (st.transport.send client e).1.isOk := by
  cases next.works h rfl with
  | @handle _ n _ _ _ found steps =>
    -- A request sends its answer once this is written.
    have does := Handling.does n steps
    generalize st.handlingEvents n _ = es at does h
    cases does with
    | reply phase does =>
      obtain ⟨rfl, rfl, ⟨subs, rfl⟩, htaken⟩ := sent_of_reply does h
      exact ⟨.answer found phase, htaken⟩
    | finish phase does =>
      obtain ⟨rfl, rfl, ⟨subs, rfl⟩, htaken⟩ := sent_of_reply does h
      exact ⟨.answer found phase, htaken⟩
    | _ => simp at h
  | @forward n _ _ found steps =>
    -- A stream sends an item once this is written, or the failure in place of one.
    have does := Forwarding.does n steps
    generalize st.forwardingEvents n _ = es at does h
    cases does with
    | accept phase taken =>
      obtain ⟨rfl, rfl, rfl, rfl⟩ := ServerEvent.sent.inj (List.mem_singleton.1 h)
      exact ⟨.item found phase, by rw [taken]; rfl⟩
    | refuse phase refused =>
      obtain ⟨rfl, rfl, rfl, rfl⟩ := ServerEvent.sent.inj (List.mem_singleton.1 h)
      exact ⟨.item found phase, by rw [refused]; rfl⟩
    | tell phase written =>
      obtain ⟨rfl, rfl, rfl, rfl⟩ := ServerEvent.sent.inj (List.mem_singleton.1 h)
      exact ⟨.failure found phase written, rfl⟩
    | start => obtain h | ⟨_, _, _, _, h⟩ := ServerTrace.mem_started h <;> cases h
    | _ => simp at h

/-- A step sends what the story of its task says. -/
theorem Step.of_sent {tr es : ServerTrace} {st st' : Stage} (told : Told tr st)
    (next : Step st es st') {w : Worker} {client : String} {e : Envelope} {accepted : Bool}
    (h : .sent w client e accepted ∈ es) : Speaks tr w client e := by
  -- Whoever sends has the written message in its phase, and the story says where it comes from.
  cases (next.sender h).1 with
  | answer found phase =>
    obtain ⟨r, -, -, -, story⟩ := told.of_handling found
    rw [phase] at story
    cases story with
    | encoded hw =>
      obtain ⟨-, -, result, hres, -⟩ := hw.tally
      exact .inl ⟨_, r.id, result, rfl, hres⟩
  | item found phase =>
    obtain ⟨sub, -, -, story⟩ := told.of_forwarding found
    rw [phase] at story
    cases story with
    | encoded hl written => exact .inr ⟨_, sub, _, rfl, mem_of_mem_of hl.began, written⟩
  | failure found phase written =>
    obtain ⟨sub, hid, -, story⟩ := told.of_forwarding found
    exact .inr ⟨_, sub, _, rfl, mem_of_mem_of story.began, hid ▸ written⟩

end Stage

/-- An answer whose streams are to be started has been taken by the queue. -/
private theorem Handling.Story.of_accepted {n : Nat} {r : Request} {subs : List Subscription}
    {L : ServerTrace} (h : Story n r (some (.replying (.accepted subs))) L) :
    ∃ e, .sent (.handling n) r.replyTo e true ∈ L ∧ e.introduces = subs.map (·.id) := by
  cases h with
  | accepted hw =>
    obtain ⟨-, -, result, hres, hi⟩ := hw.tally
    exact ⟨_, List.mem_append_right _ (List.mem_singleton_self _), (introduces_of hres).trans hi⟩

/-- An item whose streams are to be started has been taken by the queue. -/
private theorem Forwarding.Story.of_accepted {n : Nat} {client : String} {sub : Subscription}
    {terminal : Bool} {nested : List Subscription} {L : ServerTrace}
    (h : Story n client sub (some (.accepted terminal nested)) L) :
    ∃ e, .sent (.forwarding n) client e true ∈ L ∧ e.introduces = nested.map (·.id) := by
  cases h with
  | accepted hl written =>
    obtain ⟨-, -, hi⟩ := hl.tally
    exact ⟨_, List.mem_append_right _ (List.mem_singleton_self _), (introduces_of written).trans hi⟩

namespace Stage

/-- A task of the server is about to start these streams of a client. -/
inductive Starting (st : Stage) (client : String) (subs : List Subscription) : Prop where
  | answer {n : Nat} {h : Handling} (found : st.server.handlings[n]? = some h)
      (same : h.client = client) (phase : h.phase = .replying (.accepted subs)) :
      Starting st client subs
  | item {n : Nat} {f : Forwarding} {terminal : Bool}
      (found : st.server.forwardings[n]? = some f) (same : f.client = client)
      (phase : f.phase = .accepted terminal subs) : Starting st client subs

/-- The streams that a step begins are those that some task was about to start. -/
theorem Step.starting {es : ServerTrace} {st st' : Stage} (next : Step st es st') {n : Nat}
    {client : String} {sub : Subscription} (h : .began n client sub ∈ es) :
    ∃ subs, .began n client sub ∈ begun client st.server.nextTask subs ∧
      Starting st client subs := by
  cases next.works h rfl with
  | @handle _ m _ _ _ found steps =>
    -- Streams begin when the answer that carries them has been taken.
    have does := Handling.does m steps
    generalize st.handlingEvents m _ = es at does h
    cases does with
    | reply phase does =>
      obtain ⟨rfl, subs, rfl, hb⟩ := began_of_reply does h
      exact ⟨subs, hb, .answer found rfl phase⟩
    | finish phase does =>
      obtain ⟨rfl, subs, rfl, hb⟩ := began_of_reply does h
      exact ⟨subs, hb, .answer found rfl phase⟩
    | _ => simp at h
  | @forward m _ _ found steps =>
    -- The same for the streams in an item.
    have does := Forwarding.does m steps
    generalize st.forwardingEvents m _ = es at does h
    cases does with
    | @start terminal nested phase =>
      have hb := (List.mem_cons.1 h).resolve_left (by simp)
      obtain ⟨_, _, _, _, heq⟩ := ServerTrace.mem_begun hb
      obtain ⟨-, rfl, -⟩ := ServerEvent.began.inj heq
      exact ⟨nested, hb, .item found rfl phase⟩
    | tell => simp [sending] at h
    | _ => simp at h

/-- The streams that a task is about to start were introduced to their client. -/
theorem Told.of_starting {tr : ServerTrace} {st : Stage} (told : Told tr st) {client : String}
    {subs : List Subscription} (starting : Starting st client subs) {id : StreamId}
    (hid : id ∈ subs.map (·.id)) : Introduced tr client id := by
  -- Tasks are started only for a message that was taken, and it introduces their streams.
  cases starting with
  | answer found same phase =>
    obtain ⟨r, hc, hi, hm, story⟩ := told.of_handling found
    rw [phase] at story
    obtain ⟨e, he, hids⟩ := story.of_accepted
    exact ⟨_, e, same ▸ hc ▸ mem_of_mem_of he, hids ▸ hid⟩
  | item found same phase =>
    obtain ⟨sub', hi, hs, story⟩ := told.of_forwarding found
    rw [phase] at story
    obtain ⟨e, he, hids⟩ := story.of_accepted
    exact ⟨_, e, same ▸ mem_of_mem_of he, hids ▸ hid⟩

/-- The streams that a step begins were introduced to their client. -/
private theorem Step.of_began {tr es : ServerTrace} {st st' : Stage} (told : Told tr st)
    (next : Step st es st') {n : Nat} {client : String} {sub : Subscription}
    (h : .began n client sub ∈ es) : Introduced tr client sub.id := by
  obtain ⟨subs, hb, starting⟩ := next.starting h
  obtain ⟨_, _, sub', hsub, heq⟩ := ServerTrace.mem_begun hb
  obtain ⟨-, -, rfl⟩ := ServerEvent.began.inj heq
  exact told.of_starting starting (List.mem_map_of_mem hsub)

/-- What was introduced stays so as the trace grows. -/
private theorem Introduced.mono {tr tr' : ServerTrace} {client : String} {id : StreamId}
    (h : Introduced tr client id) (hsub : ∀ x ∈ tr, x ∈ tr') : Introduced tr' client id := by
  obtain ⟨w, e, he, hid⟩ := h
  exact ⟨w, e, hsub _ he, hid⟩

/-- A stream was introduced to its client before it began. -/
theorem Run.introduced_before {st₀ st : Stage} {tr pre post : ServerTrace} (fresh : st₀.Fresh)
    (run : Run st₀ tr st) {n : Nat} {client : String} {sub : Subscription}
    (h : tr = pre ++ .began n client sub :: post) : Introduced pre client sub.id := by
  -- The step that begins the stream comes after all that introduced it.
  obtain ⟨tr₁, st₁, front, back, st₂, run₁, next, rfl, -⟩ := run.at h
  have hmem : .began n client sub ∈ front ++ .began n client sub :: back := by simp
  exact (next.of_began (run₁.told fresh) hmem).mono fun x hx => List.mem_append_left _ hx

/-- A stream that began was introduced to its client. -/
theorem Run.of_began {st₀ st : Stage} {tr : ServerTrace} (fresh : st₀.Fresh)
    (run : Run st₀ tr st) {n : Nat} {client : String} {sub : Subscription}
    (h : .began n client sub ∈ tr) : Introduced tr client sub.id := by
  obtain ⟨pre, post, htr⟩ := List.append_of_mem h
  refine (run.introduced_before fresh htr).mono fun x hx => ?_
  rw [htr]
  exact List.mem_append_left _ hx

/-- Who sent a message, and what the message is; a stream that it is about was introduced before. -/
theorem Run.of_sent {st₀ st : Stage} {tr pre post : ServerTrace} (fresh : st₀.Fresh)
    (run : Run st₀ tr st) {w : Worker} {client : String} {e : Envelope} {accepted : Bool}
    (h : tr = pre ++ .sent w client e accepted :: post) :
    (∃ n id result, w = .handling n ∧ (ServerMessage.reply id result).toEnvelope = .ok e) ∨
      ∃ n, ∃ sub : Subscription, ∃ event, w = .forwarding n ∧ Introduced pre client sub.id ∧
        (ServerMessage.observation sub.id event).toEnvelope = .ok e := by
  obtain ⟨tr₁, st₁, front, back, st₂, run₁, next, rfl, -⟩ := run.at h
  have hmem : .sent w client e accepted ∈ front ++ .sent w client e accepted :: back := by simp
  -- The step that sends it knows which task speaks; a forwarding task began before that step.
  rcases next.of_sent (run₁.told fresh) hmem with h | ⟨n, sub, event, hw, hb, he⟩
  · exact .inl h
  · refine .inr ⟨n, sub, event, hw, ?_, he⟩
    exact (run₁.of_began fresh hb).mono fun x hx => List.mem_append_left _ hx

end Stage

end StreamRpc
