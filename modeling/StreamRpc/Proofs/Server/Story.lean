import StreamRpc.Proofs.Server.Inversion
import StreamRpc.Proofs.Server.Numbering

/-! # What is told of one task

The events of one task come in an order that its code fixes: a request is answered, the streams in
the answer get their numbers, the message is written, sent, and the streams are started or dropped.
Passing on a stream does the same with each item, one after another.  A *story* is such an order of
events, as far as the phase of the task.  Each step of a task goes on with its story.

* `Handling.Story.step`     for requests
* `Forwarding.Story.step`   for streams
-/

namespace StreamRpc

namespace ServerTrace

/-- No events tell of no task. -/
@[simp] theorem of_nil (w : Worker) : of [] w = [] := rfl

/-- The first event is told of its own task. -/
@[simp] theorem of_cons (x : ServerEvent) (tr : ServerTrace) (w : Worker) :
    of (x :: tr) w = if x.worker? = some w then x :: of tr w else of tr w := by
  simp only [of, List.filter_cons, decide_eq_true_eq]

/-- What is told of a task is read off a trace piece by piece. -/
theorem of_append (tr tr' : ServerTrace) (w : Worker) : of (tr ++ tr') w = of tr w ++ of tr' w :=
  List.filter_append tr tr'

/-- What is told of a task is what the trace tells of it. -/
theorem mem_of {tr : ServerTrace} {w : Worker} {x : ServerEvent} :
    x ∈ of tr w ↔ x ∈ tr ∧ x.worker? = some w := by
  simp only [of, List.mem_filter, decide_eq_true_eq]

/-- What is kept of one task is all that there is, if nobody else tells of such things. -/
theorem filterMap_of {α : Type} {f : ServerEvent → Option α} {tr : ServerTrace} {w : Worker}
    (own : ∀ x ∈ tr, ∀ a, f x = some a → x.worker? = some w) :
    (tr.of w).filterMap f = tr.filterMap f := by
  induction tr with
  | nil => rfl
  | cons x tr ih =>
    have ih' := ih fun y hy => own y (List.mem_cons_of_mem _ hy)
    rw [of_cons]
    -- An event of somebody else gives nothing under the filter.
    split
    · rw [List.filterMap_cons, List.filterMap_cons, ih']
    · next hw =>
      cases hf : f x with
      | none => rw [List.filterMap_cons_none hf, ih']
      | some a => exact absurd (own x List.mem_cons_self a hf) hw

/-- Nothing else is told of streams that begin, and their tasks have numbers from here on. -/
theorem mem_begun {client : String} {k : Nat} {subs : List Subscription} {x : ServerEvent}
    (h : x ∈ begun client k subs) : ∃ n, k ≤ n ∧ ∃ sub ∈ subs, x = .began n client sub := by
  -- By the streams; each takes the next number.
  induction subs generalizing k with
  | nil => simp [begun] at h
  | cons sub subs ih =>
    rcases List.mem_cons.1 h with h | h
    · exact ⟨k, Nat.le_refl k, sub, List.mem_cons_self, h⟩
    · obtain ⟨n, hn, sub', hs, hx⟩ := ih h
      exact ⟨n, Nat.le_of_succ_le hn, sub', List.mem_cons_of_mem _ hs, hx⟩

/-- When streams start, nothing else is told than that and which tasks begin. -/
theorem mem_started {w : Worker} {client : String} {k : Nat} {subs : List Subscription}
    {x : ServerEvent} (h : x ∈ .started w subs :: begun client k subs) :
    x = .started w subs ∨ ∃ n, k ≤ n ∧ ∃ sub ∈ subs, x = .began n client sub :=
  (List.mem_cons.1 h).imp_right mem_begun

/-- A request does not hear of the streams that begin. -/
@[simp] theorem of_begun_handling (client : String) (k n : Nat) (subs : List Subscription) :
    of (begun client k subs) (.handling n) = [] := by
  induction subs generalizing k with
  | nil => rfl
  | cons sub subs ih => simpa [begun] using ih (k + 1)

/-- A stream does not hear of those that begin after it. -/
private theorem of_begun_of_lt (client : String) {k n : Nat} (h : n < k)
    (subs : List Subscription) :
    of (begun client k subs) (.forwarding n) = [] := by
  induction subs generalizing k with
  | nil => rfl
  | cons sub subs ih =>
    have hk : ¬ k = n := by omega
    simpa [begun, hk] using ih (Nat.lt_succ_of_lt h)

end ServerTrace

/-! ## Requests -/

/-- The outcome that goes over the wire for an outcome with sources. -/
def ExposesResult : Except Failure ServerValue → Except Failure WireValue → List Subscription → Prop
  | .ok v, .ok wire, subs => Exposes v wire subs
  | .error f, .error f', subs => f = f' ∧ subs = []
  | _, _, _ => False

namespace Handling

/-- What is told of a request up to its answer. -/
inductive Answered (n : Nat) (r : Request) : ServerTrace → Except Failure ServerValue → Prop where
  /-- Its arguments were turned down. -/
  | rejected {f : Failure} (bad : plainArgs r.args = .error f) :
      Answered n r [.requested n r, .answered n (.error f) (.error f)] (.error f)
  /-- Its method was called and came to an end. -/
  | ended {args : List PlainValue} {router : Router} {b : Behaviour} {e : Ending} {st : Stage}
      (good : plainArgs r.args = .ok args)
      (called : router.invoke { client := r.replyTo, method := r.method, args } = b)
      (ends : b.ending? = some e) :
      Answered n r
        [.requested n r, .invoked n { client := r.replyTo, method := r.method, args } b,
          .answered n (e.result r.method) (st.made (e.result r.method))]
        (st.made (e.result r.method))

/-- What is told of a request until the streams in its answer have numbers. -/
inductive Loaded (n : Nat) (r : Request) :
    ServerTrace → Except Failure WireValue → List Subscription → Prop where
  | mk {L : ServerTrace} {made : Except Failure ServerValue} {wire : Except Failure WireValue}
      {subs : List Subscription} (answered : Answered n r L made)
      (exposed : ExposesResult made wire subs) :
      Loaded n r (L ++ [.numbered (.handling n) r.replyTo subs]) wire subs

/-- What is told of a request until its answer is written. -/
inductive Written (n : Nat) (r : Request) :
    ServerTrace → Envelope → List Subscription → Prop where
  | plain {L : ServerTrace} {wire : Except Failure WireValue} {subs : List Subscription}
      {e : Envelope} (loaded : Loaded n r L wire subs)
      (written : (ServerMessage.reply r.id wire).toEnvelope = .ok e) : Written n r L e subs
  /-- A failure takes the place of an answer that cannot be written. -/
  | excuse {L : ServerTrace} {wire : Except Failure WireValue} {subs : List Subscription}
      {err : CodecError} {e : Envelope} (loaded : Loaded n r L wire subs)
      (refused : (ServerMessage.reply r.id wire).toEnvelope = .error err)
      (written : (ServerMessage.reply r.id (.error (.unwritable "reply" err))).toEnvelope = .ok e) :
      Written n r
        (L ++ [.unwritable (.handling n) r.replyTo (.reply r.id wire) err,
          .dropped (.handling n) subs]) e []

/-- What is told of a request that is in a phase, or over. -/
inductive Story (n : Nat) (r : Request) : Option Phase → ServerTrace → Prop where
  | received : Story n r (some (.received r.args)) [.requested n r]
  | running {args : List PlainValue} {router : Router} {b₀ b : Behaviour}
      (good : plainArgs r.args = .ok args)
      (called : router.invoke { client := r.replyTo, method := r.method, args } = b₀)
      (same : b.ending? = b₀.ending?) :
      Story n r (some (.running b))
        [.requested n r, .invoked n { client := r.replyTo, method := r.method, args } b₀]
  | sleeping {args : List PlainValue} {router : Router} {b₀ b : Behaviour} {till : Nat}
      (good : plainArgs r.args = .ok args)
      (called : router.invoke { client := r.replyTo, method := r.method, args } = b₀)
      (same : b.ending? = b₀.ending?) :
      Story n r (some (.sleeping till b))
        [.requested n r, .invoked n { client := r.replyTo, method := r.method, args } b₀]
  | answered {L : ServerTrace} {made : Except Failure ServerValue} (h : Answered n r L made) :
      Story n r (some (.replying (.answered made))) L
  | exposed {L : ServerTrace} {wire : Except Failure WireValue} {subs : List Subscription}
      (h : Loaded n r L wire subs) : Story n r (some (.replying (.exposed wire subs))) L
  | encoded {L : ServerTrace} {e : Envelope} {subs : List Subscription}
      (h : Written n r L e subs) : Story n r (some (.replying (.encoded e subs))) L
  | accepted {L : ServerTrace} {e : Envelope} {subs : List Subscription}
      (h : Written n r L e subs) :
      Story n r (some (.replying (.accepted subs))) (L ++ [.sent (.handling n) r.replyTo e true])
  | refused {L : ServerTrace} {e : Envelope} {subs : List Subscription} {err : TransportError}
      (h : Written n r L e subs) :
      Story n r (some (.replying (.refused err subs)))
        (L ++ [.sent (.handling n) r.replyTo e false])
  | done {L : ServerTrace} {e : Envelope} {subs : List Subscription} (h : Written n r L e subs) :
      Story n r none
        (L ++ [.sent (.handling n) r.replyTo e true, .started (.handling n) subs])
  | failed {L : ServerTrace} {e : Envelope} {subs : List Subscription} (h : Written n r L e subs) :
      Story n r none
        (L ++ [.sent (.handling n) r.replyTo e false, .dropped (.handling n) subs])
  /-- Not even the failure could be written. -/
  | lost {L : ServerTrace} {wire : Except Failure WireValue} {subs : List Subscription}
      {err : CodecError} (h : Loaded n r L wire subs)
      (refused : (ServerMessage.reply r.id wire).toEnvelope = .error err) :
      Story n r none
        (L ++ [.unwritable (.handling n) r.replyTo (.reply r.id wire) err,
          .dropped (.handling n) subs])

/-- Exposing a value numbers its sources in order. -/
private theorem step_exposes (st : Stage) (client : String) (v : ServerValue) :
    Exposes v (st.expose client v).1 (st.expose client v).2.1 :=
  st.server.mux.expose_exposes client v

/-- One step of an answer goes on with the story of its request. -/
private theorem Story.step_reply {n : Nat} {r : Request} {st st' : Stage} {reply : Reply}
    {L es : ServerTrace} {next : Reply ⊕ Except CallError Unit}
    (story : Story n r (some (.replying reply)) L)
    (does : reply.Does (.handling n) r.replyTo r.id st es next st') :
    Story n r (next.elim (fun reply => some (.replying reply)) fun _ => none)
      (L ++ ServerTrace.of es (.handling n)) := by
  -- What the step does fixes the phase before it, and so the last part of the story that there is.
  cases does with
  | expose v =>
    cases story with
    | answered h =>
      have hx : ExposesResult (.ok v) (.ok (st.expose r.replyTo v).1)
          (st.expose r.replyTo v).2.1 := step_exposes st r.replyTo v
      simpa using Story.exposed (.mk h hx)
  | exposeNone f =>
    cases story with
    | answered h =>
      have hx : ExposesResult (.error f) (.error f) [] := And.intro rfl rfl
      simpa using Story.exposed (.mk h hx)
  | write written =>
    cases story with
    | exposed h => simpa using Story.encoded (.plain h written)
  | excuse unwritable written =>
    cases story with
    | exposed h => simpa using Story.encoded (.excuse h unwritable written)
  | lose unwritable =>
    cases story with
    | exposed h => simpa using Story.lost h unwritable
  | accept =>
    cases story with
    | encoded h => simpa using Story.accepted h
  -- A refused reply keeps the streams until they are dropped.
  | @refuse e subs err t =>
    cases story with
    | encoded h =>
      have hrefused : Story n r (some (.replying (.refused err subs))) _ := .refused h
      simpa using hrefused
  | start subs =>
    cases story with
    | accepted h => simpa using Story.done h
  | drop err subs =>
    cases story with
    | refused h => simpa using Story.failed h

/-- One step of a request goes on with its story. -/
theorem Story.step {n clock : Nat} {r : Request} {st st' : Stage} {h : Handling}
    {L : ServerTrace} {phase : Option Phase} (hclient : r.replyTo = h.client) (hid : r.id = h.id)
    (hmethod : r.method = h.method) (story : Story n r (some h.phase) L)
    (go : st.advance? clock h = some (phase, st')) :
    Story n r phase (L ++ ServerTrace.of (st.handlingEvents n h) (.handling n)) := by
  have does := Handling.does n go
  generalize st.handlingEvents n h = es at does ⊢
  obtain ⟨client, id, method, ph⟩ := h
  -- The request of the story is the one that the task deals with.
  subst hclient hid hmethod
  cases does with
  | call phase good =>
    obtain rfl : ph = _ := phase
    cases story with
    | received => simpa using Story.running good rfl rfl
  | reject phase bad =>
    obtain rfl : ph = _ := phase
    cases story with
    | received => simpa using Story.answered (.rejected bad)
  | answer phase =>
    obtain rfl : ph = _ := phase
    cases story with
    | running good called same => simpa using Story.answered (.ended good called same.symm)
  | @sleep ms after phase =>
    obtain rfl : ph = _ := phase
    cases story with
    | running good called same =>
      have hsleeping : Story n r (some (.sleeping (clock + ms) after)) _ :=
        .sleeping good called same
      simpa using hsleeping
  | wake phase due =>
    obtain rfl : ph = _ := phase
    cases story with
    | sleeping good called same => simpa using Story.running good called same
  -- Once there is an answer, the story goes on with the reply.
  | reply phase does =>
    obtain rfl : ph = _ := phase
    exact story.step_reply does
  | finish phase does =>
    obtain rfl : ph = _ := phase
    exact story.step_reply does

end Handling

/-! ## Streams -/

/-- The notification that goes over the wire for a notification with sources. -/
def ExposesEvent :
    Notification ServerValue → Notification WireValue → List Subscription → Prop
  | .next v, .next wire, subs => Exposes v wire subs
  | .error f, .error f', subs => f = f' ∧ subs = []
  | .completed, .completed, subs => subs = []
  | _, _, _ => False

namespace Forwarding

variable (n : Nat) (client : String) (sub : Subscription)

/-- What is told of a stream up to the time when it waits for its next item, and the items that
    went to the client until then. -/
inductive Rounds : ServerTrace → List (ServerValue × WireValue) → Prop where
  | none : Rounds [.began n client sub] []
  | more {L : ServerTrace} {ps : List (ServerValue × WireValue)} {v : ServerValue}
      {wire : WireValue} {nested : List Subscription} {e : Envelope} (before : Rounds L ps)
      (exposed : Exposes v wire nested)
      (written : (ServerMessage.observation sub.id (.next wire)).toEnvelope = .ok e) :
      Rounds
        (L ++ [.pulled n sub.source (.next v), .numbered (.forwarding n) client nested,
          .sent (.forwarding n) client e true, .started (.forwarding n) nested])
        (ps ++ [(v, wire)])

/-- What is told of a stream whose next item, the one with these events, has been given numbers. -/
inductive Loaded : ServerTrace → List (ServerValue × WireValue) → Notification ServerValue →
    Notification WireValue → List Subscription → Prop where
  | mk {L : ServerTrace} {ps : List (ServerValue × WireValue)} {event : Notification ServerValue}
      {wire : Notification WireValue} {nested : List Subscription} (before : Rounds n client sub L ps)
      (exposed : ExposesEvent event wire nested) :
      Loaded (L ++ [.pulled n sub.source event, .numbered (.forwarding n) client nested]) ps event
        wire nested

/-- How the passing on of a stream can come to its end. -/
inductive Ended : ServerTrace → Prop where
  /-- The client was told the last thing that the source yielded. -/
  | told {L : ServerTrace} {ps : List (ServerValue × WireValue)}
      {event : Notification ServerValue} {wire : Notification WireValue}
      {nested : List Subscription} {e : Envelope}
      (loaded : Loaded n client sub L ps event wire nested)
      (written : (ServerMessage.observation sub.id wire).toEnvelope = .ok e)
      (last : wire.terminal = true) :
      Ended (L ++ [.sent (.forwarding n) client e true, .started (.forwarding n) nested])
  /-- The client's queue refused an item. -/
  | refused {L : ServerTrace} {ps : List (ServerValue × WireValue)}
      {event : Notification ServerValue} {wire : Notification WireValue}
      {nested : List Subscription} {e : Envelope}
      (loaded : Loaded n client sub L ps event wire nested)
      (written : (ServerMessage.observation sub.id wire).toEnvelope = .ok e) :
      Ended (L ++ [.sent (.forwarding n) client e false, .dropped (.forwarding n) nested])
  /-- An item could not be written, and a failure was sent instead. -/
  | excused {L : ServerTrace} {ps : List (ServerValue × WireValue)}
      {event : Notification ServerValue} {wire : Notification WireValue}
      {nested : List Subscription} {err : CodecError} {e : Envelope} {accepted : Bool}
      (loaded : Loaded n client sub L ps event wire nested)
      (refused : (ServerMessage.observation sub.id wire).toEnvelope = .error err)
      (written : (ServerMessage.observation sub.id
        (.error (.unwritable "observation" err))).toEnvelope = .ok e) :
      Ended
        (L ++ [.unwritable (.forwarding n) client (.observation sub.id wire) err,
          .dropped (.forwarding n) nested, .sent (.forwarding n) client e accepted])
  /-- An item could not be written, nor the failure. -/
  | silent {L : ServerTrace} {ps : List (ServerValue × WireValue)}
      {event : Notification ServerValue} {wire : Notification WireValue}
      {nested : List Subscription} {err err' : CodecError}
      (loaded : Loaded n client sub L ps event wire nested)
      (refused : (ServerMessage.observation sub.id wire).toEnvelope = .error err)
      (refused' : (ServerMessage.observation sub.id
        (.error (.unwritable "observation" err))).toEnvelope = .error err') :
      Ended
        (L ++ [.unwritable (.forwarding n) client (.observation sub.id wire) err,
          .dropped (.forwarding n) nested])

/-- What is told of a stream whose task is in a phase, or over. -/
inductive Story : Option Phase → ServerTrace → Prop where
  | waiting {L : ServerTrace} {ps : List (ServerValue × WireValue)}
      (h : Rounds n client sub L ps) : Story (some .waiting) L
  | pulled {L : ServerTrace} {ps : List (ServerValue × WireValue)}
      {event : Notification ServerValue} (h : Rounds n client sub L ps) :
      Story (some (.pulled event)) (L ++ [.pulled n sub.source event])
  | cleared {L : ServerTrace} {ps : List (ServerValue × WireValue)}
      {event : Notification ServerValue} (h : Rounds n client sub L ps) :
      Story (some (.cleared event)) (L ++ [.pulled n sub.source event])
  | exposed {L : ServerTrace} {ps : List (ServerValue × WireValue)}
      {event : Notification ServerValue} {wire : Notification WireValue}
      {nested : List Subscription} (h : Loaded n client sub L ps event wire nested) :
      Story (some (.exposed wire nested)) L
  | encoded {L : ServerTrace} {ps : List (ServerValue × WireValue)}
      {event : Notification ServerValue} {wire : Notification WireValue}
      {nested : List Subscription} {e : Envelope}
      (h : Loaded n client sub L ps event wire nested)
      (written : (ServerMessage.observation sub.id wire).toEnvelope = .ok e) :
      Story (some (.encoded e wire.terminal nested)) L
  | accepted {L : ServerTrace} {ps : List (ServerValue × WireValue)}
      {event : Notification ServerValue} {wire : Notification WireValue}
      {nested : List Subscription} {e : Envelope}
      (h : Loaded n client sub L ps event wire nested)
      (written : (ServerMessage.observation sub.id wire).toEnvelope = .ok e) :
      Story (some (.accepted wire.terminal nested)) (L ++ [.sent (.forwarding n) client e true])
  | refused {L : ServerTrace} {ps : List (ServerValue × WireValue)}
      {event : Notification ServerValue} {wire : Notification WireValue}
      {nested : List Subscription} {e : Envelope}
      (h : Loaded n client sub L ps event wire nested)
      (written : (ServerMessage.observation sub.id wire).toEnvelope = .ok e) :
      Story (some (.refused nested)) (L ++ [.sent (.forwarding n) client e false])
  | failing {L : ServerTrace} {ps : List (ServerValue × WireValue)}
      {event : Notification ServerValue} {wire : Notification WireValue}
      {nested : List Subscription} {err : CodecError}
      (h : Loaded n client sub L ps event wire nested)
      (refused : (ServerMessage.observation sub.id wire).toEnvelope = .error err) :
      Story (some (.failing (.unwritable "observation" err)))
        (L ++ [.unwritable (.forwarding n) client (.observation sub.id wire) err,
          .dropped (.forwarding n) nested])
  | closing {L : ServerTrace} (h : Ended n client sub L) : Story (some .closing) L
  | done {L : ServerTrace} (h : Ended n client sub L) : Story none (L ++ [.finished n sub.id])
  /-- The stream was retired while the task waited. -/
  | stopped {L : ServerTrace} {ps : List (ServerValue × WireValue)}
      (h : Rounds n client sub L ps) : Story none L
  /-- The stream was retired when the task had just got an item. -/
  | halted {L : ServerTrace} {ps : List (ServerValue × WireValue)}
      {event : Notification ServerValue} (h : Rounds n client sub L ps) :
      Story none (L ++ [.pulled n sub.source event])

variable {n client sub}

/-- Exposing an event numbers its sources in order. -/
private theorem exposeEvent_exposes (st : Stage) (client : String)
    (event : Notification ServerValue) :
    ExposesEvent event (exposeEvent st client event).1 (exposeEvent st client event).2.1 := by
  cases event with
  | next v => exact Handling.step_exposes st client v
  | error f => exact And.intro rfl rfl
  | completed => exact rfl

/-- A task that was told of an item starts the streams in it, and then ends or waits for more. -/
private theorem Story.start {L : ServerTrace} {ps : List (ServerValue × WireValue)}
    {event : Notification ServerValue} {wire : Notification WireValue} {nested : List Subscription}
    {e : Envelope} (h : Loaded n client sub L ps event wire nested)
    (written : (ServerMessage.observation sub.id wire).toEnvelope = .ok e) :
    Story n client sub (some (if wire.terminal then .closing else .waiting))
      (L ++ [.sent (.forwarding n) client e true] ++ [.started (.forwarding n) nested]) := by
  cases hlast : wire.terminal with
  | true =>
    rw [List.append_assoc]
    exact .closing (.told h written hlast)
  | false =>
    cases h with
    -- An item that is not the last is a value on both sides, and the round is complete.
    | mk before exposed =>
      cases wire with
      | next w =>
        cases event with
        | next v =>
          simpa using Story.waiting (.more before exposed written)
        | error f => cases exposed
        | completed => cases exposed
      | error f => cases hlast
      | completed => cases hlast

/-- One step of passing on a stream goes on with its story. -/
theorem Story.step {st : Stage} {f : Forwarding} {L : ServerTrace} {o : Outcome}
    (hn : n < st.server.nextTask)
    (hclient : f.client = client) (hid : f.id = sub.id) (hsource : f.source = sub.source)
    (story : Story n client sub (some f.phase) L) (go : f.step? st = some o) :
    Story n client sub o.phase
      (L ++ ServerTrace.of (st.forwardingEvents n f) (.forwarding n)) := by
  have does := Forwarding.does n go
  generalize st.forwardingEvents n f = es at does ⊢
  obtain ⟨client', id, source, signal, ph⟩ := f
  subst hclient hid hsource
  -- The phase says how far the story has come, and the step is the next thing in it.
  cases does with
  | pull phase =>
    obtain rfl : ph = _ := phase
    cases story with
    | waiting h => simpa using Story.pulled h
  | dry phase =>
    obtain rfl : ph = _ := phase
    cases story with
    | waiting h => simpa using Story.pulled h
  | stop phase =>
    obtain rfl : ph = _ := phase
    cases story with
    | waiting h => simpa [finish] using Story.stopped h
  | clear phase =>
    obtain rfl : ph = _ := phase
    cases story with
    | pulled h => simpa using Story.cleared h
  | halt phase =>
    obtain rfl : ph = _ := phase
    cases story with
    | pulled h => simpa [finish] using Story.halted h
  | @expose event phase =>
    obtain rfl : ph = _ := phase
    cases story with
    | cleared h => simpa using Story.exposed (.mk h (exposeEvent_exposes st client' event))
  | write phase written =>
    obtain rfl : ph = _ := phase
    cases story with
    | exposed h => simpa using Story.encoded h written
  | fail phase unwritable =>
    obtain rfl : ph = _ := phase
    cases story with
    | exposed h => simpa using Story.failing h unwritable
  | accept phase =>
    obtain rfl : ph = _ := phase
    cases story with
    | encoded h written => simpa using Story.accepted h written
  | refuse phase =>
    obtain rfl : ph = _ := phase
    cases story with
    | encoded h written => simpa using Story.refused h written
  -- The tasks that begin have later numbers, so their events are in no story of this one.
  | start phase =>
    obtain rfl : ph = _ := phase
    cases story with
    | accepted h written =>
      simpa [ServerTrace.of_begun_of_lt client' hn] using Story.start h written
  | drop phase =>
    obtain rfl : ph = _ := phase
    cases story with
    | refused h written => simpa using Story.closing (.refused h written)
  | tell phase written =>
    obtain rfl : ph = _ := phase
    cases story with
    | failing h refused => simpa [Stage.sending] using Story.closing (.excused h refused written)
  | hush phase unwritable =>
    obtain rfl : ph = _ := phase
    cases story with
    | failing h refused => simpa using Story.closing (.silent h refused unwritable)
  | close phase =>
    obtain rfl : ph = _ := phase
    cases story with
    | closing h => simpa [finish] using Story.done h

end Forwarding

end StreamRpc
