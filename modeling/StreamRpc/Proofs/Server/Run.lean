import StreamRpc.Proofs.Envelope
import StreamRpc.Proofs.Lists
import StreamRpc.Server.Serve

/-! # Runs of a server

A server runs by steps of its tasks, in any order.  What can be told of a step is a list of events,
and the events of all steps, in order, are the trace of a run.  Between the steps anything may
happen around the server: messages arrive, queues come and go, sending starts to fail, sources have
items or not, methods change what they do.

* `Stage.Step`       one step, with what can be told of it
* `Stage.Talks`      what is told of sending is what is done to the transport
* `Stage.Run`        a run, with its trace
* `Stage.play_run`   a run that is carried out move by move
-/

namespace StreamRpc

/-! ## Events -/

/-- A task of a server. -/
inductive Worker where
  | handling (n : Nat)
  | forwarding (n : Nat)
  deriving DecidableEq

/-- What can be told of a step of a server. -/
inductive ServerEvent where
  /-- An envelope was taken off the server's queue. -/
  | served (e : Envelope)
  /-- A request was given to a task. -/
  | requested (n : Nat) (r : Request)
  /-- A client said which streams it no longer wants, and they were retired. -/
  | closed (ids : List StreamId)
  /-- A client is gone, and its streams were retired. -/
  | departed (client : String)
  /-- A method was called, and the call comes to this. -/
  | invoked (n : Nat) (call : Invocation) (b : Behaviour)
  /-- A request has its answer, the second time with the sources in it made. -/
  | answered (n : Nat) (result : Except Failure DraftValue) (made : Except Failure ServerValue)
  /-- A source yielded something, or came to its end. -/
  | pulled (n : Nat) (source : SourceRef) (event : Notification ServerValue)
  /-- The streams in a message got numbers. -/
  | numbered (w : Worker) (client : String) (subs : List Subscription)
  /-- A message could not be written. -/
  | unwritable (w : Worker) (client : String) (m : ServerMessage) (err : CodecError)
  /-- A message was sent, and the queue took it or refused it. -/
  | sent (w : Worker) (client : String) (e : Envelope) (accepted : Bool)
  /-- The streams in a message that did not get to its queue were retired. -/
  | dropped (w : Worker) (subs : List Subscription)
  /-- The streams in a message that the queue took were started. -/
  | started (w : Worker) (subs : List Subscription)
  /-- The task that passes on a stream came to be. -/
  | began (n : Nat) (client : String) (sub : Subscription)
  /-- The task that passes on a stream retired it at the end. -/
  | finished (n : Nat) (id : StreamId)
  /-- A stream was retired from outside. -/
  | withdrawn (id : StreamId)

/-- What a run can tell, the oldest first. -/
abbrev ServerTrace := List ServerEvent

/-- The task that an event is about. -/
@[simp] def ServerEvent.worker? : ServerEvent → Option Worker
  | requested n _ => some (.handling n)
  | invoked n _ _ => some (.handling n)
  | answered n _ _ => some (.handling n)
  | pulled n _ _ => some (.forwarding n)
  | numbered w _ _ => some w
  | unwritable w _ _ _ => some w
  | sent w _ _ _ => some w
  | dropped w _ => some w
  | started w _ => some w
  | began n _ _ => some (.forwarding n)
  | finished n _ => some (.forwarding n)
  | served _ => none
  | closed _ => none
  | departed _ => none
  | withdrawn _ => none

/-- The message that was sent, to whom, and whether the queue took it. -/
def ServerEvent.sending? : ServerEvent → Option (String × Envelope × Bool)
  | sent _ client e accepted => some (client, e, accepted)
  | _ => none

/-- What a trace tells of one task. -/
def ServerTrace.of (tr : ServerTrace) (w : Worker) : ServerTrace :=
  tr.filter fun e => e.worker? = some w

/-! ## What can be told of a step -/

/-- The answer to a call, with the sources made that are in it. -/
def Stage.made (st : Stage) : Except Failure DraftValue → Except Failure ServerValue
  | .error f => .error f
  | .ok draft => .ok (st.sources.build draft).1

/-- The tasks of streams that come to be, with these numbers on. -/
def begun (client : String) : Nat → List Subscription → ServerTrace
  | _, [] => []
  | n, sub :: subs => .began n client sub :: begun client (n + 1) subs

/-- What is told of a message that cannot be written. -/
def ServerMessage.writing (m : ServerMessage) (w : Worker) (client : String)
    (subs : List Subscription) : ServerTrace :=
  match m.toEnvelope with
  | .ok _ => []
  | .error err => [.unwritable w client m err, .dropped w subs]

/-- What is told of sending a message. -/
def Stage.sending (st : Stage) (w : Worker) (client : String) (e : Envelope) : ServerEvent :=
  .sent w client e (st.transport.send client e).1.isOk

namespace Stage

/-- What is told of the next step of an answer. -/
def replyEvents (st : Stage) (w : Worker) (client : String) (id : CallId) : Reply → ServerTrace
  | .answered (.ok v) => [.numbered w client (st.expose client v).2.1]
  | .answered (.error _) => [.numbered w client []]
  | .exposed result subs => (ServerMessage.reply id result).writing w client subs
  | .encoded e _ => [st.sending w client e]
  | .accepted subs => .started w subs :: begun client st.server.nextTask subs
  | .refused _ subs => [.dropped w subs]

/-- What is told of the next step of a request. -/
def handlingEvents (st : Stage) (n : Nat) (h : Handling) : ServerTrace :=
  match h.phase with
  | .received args =>
    match plainArgs args with
    | .ok args =>
      let call : Invocation := { client := h.client, method := h.method, args }
      [.invoked n call (st.server.router.invoke call)]
    | .error f => [.answered n (.error f) (.error f)]
  | .running (.ends e) => [.answered n (e.result h.method) (st.made (e.result h.method))]
  | .replying r => st.replyEvents (.handling n) h.client h.id r
  | _ => []

/-- What is told of asking the source of a stream. -/
def pullEvents (st : Stage) (n : Nat) (f : Forwarding) : ServerTrace :=
  if st.tracker.signal f.signal = .armed then
    match (st.sources.poll f.source).1 with
    | .pending => []
    | .item e => [.pulled n f.source (Forwarding.eventOf e)]
    | .ended => [.pulled n f.source .completed]
  else []

/-- What is told of the next step of passing on a stream. -/
def forwardingEvents (st : Stage) (n : Nat) (f : Forwarding) : ServerTrace :=
  let w := Worker.forwarding n
  match f.phase with
  | .waiting => st.pullEvents n f
  | .pulled _ => []
  | .cleared event => [.numbered w f.client (Forwarding.exposeEvent st f.client event).2.1]
  | .exposed event nested => (ServerMessage.observation f.id event).writing w f.client nested
  | .encoded e _ _ => [st.sending w f.client e]
  | .accepted _ nested => .started w nested :: begun f.client st.server.nextTask nested
  | .refused nested => [.dropped w nested]
  | .failing failure =>
    match (ServerMessage.observation f.id (.error failure)).toEnvelope with
    | .ok e => [st.sending w f.client e]
    | .error _ => []
  | .closing => [.finished n f.id]

/-- What is told of an envelope that was taken off the server's queue. -/
def acceptEvents (st : Stage) (e : Envelope) : ServerTrace :=
  .served e ::
    match ClientMessage.ofEnvelope e with
    | .ok (.request r) => [.requested st.server.nextTask r]
    | .ok (.closed ids) => [.closed ids]
    | .error _ => []

/-- What is told of reading the server's queue. -/
def serveEvents (st : Stage) : ServerTrace :=
  match st.server.inbox.map st.transport.receive with
  | some (.envelope e, _) => st.acceptEvents e
  | _ => []

/-- What is told of hearing of a departure. -/
def departEvents (st : Stage) : ServerTrace :=
  match st.server.departures.bind st.transport.departure? with
  | some (client, _) => [.departed client]
  | none => []

/-! ## Runs -/

/-- Two stages have the same streams and the same tasks. -/
structure SameWork (st st' : Stage) : Prop where
  mux : st'.server.mux = st.server.mux
  handlings : st'.server.handlings = st.server.handlings
  forwardings : st'.server.forwardings = st.server.forwardings
  nextTask : st'.server.nextTask = st.server.nextTask

/-- One step of a server, or a change around it. -/
inductive Step : Stage → ServerTrace → Stage → Prop where
  | serve {st st' : Stage} (go : st.serve? = some st') : Step st st.serveEvents st'
  | depart {st st' : Stage} (go : st.depart? = some st') : Step st st.departEvents st'
  | handle {st st' : Stage} {clock n : Nat} {h : Handling}
      (found : st.server.handlings[n]? = some h) (go : st.handle? clock n = some st') :
      Step st (st.handlingEvents n h) st'
  | forward {st st' : Stage} {n : Nat} {f : Forwarding} {retires : Option StreamId}
      (found : st.server.forwardings[n]? = some f) (go : st.forward? n = some (st', retires)) :
      Step st (st.forwardingEvents n f) st'
  | withdraw (st : Stage) (id : StreamId) : Step st [.withdrawn id] (st.retire id)
  | around {st st' : Stage} (same : st.SameWork st') : Step st [] st'

/-- The server has the same methods, and reads and watches as before. -/
structure SamePorts (s s' : Server) : Prop where
  router : s'.router = s.router
  queue : s'.queue = s.queue
  inbox : s'.inbox = s.inbox
  departures : s'.departures = s.departures

/-- What is told of the transport is what happens to it: one message is sent to a client, and what
    its queue says to it is what is told, or none is sent. -/
structure Talks (st : Stage) (client : String) (es : ServerTrace) (st' : Stage) : Prop where
  ports : SamePorts st.server st'.server
  said : es.filterMap ServerEvent.sending? = [] ∧ st'.transport = st.transport ∨
    ∃ e, es.filterMap ServerEvent.sending? = [(client, e, (st.transport.send client e).1.isOk)] ∧
      st'.transport = (st.transport.send client e).2

/-- A run from a stage, with its trace. -/
inductive Run (st₀ : Stage) : ServerTrace → Stage → Prop where
  | refl : Run st₀ [] st₀
  | step {tr es : ServerTrace} {st st' : Stage} (run : Run st₀ tr st) (next : Step st es st') :
      Run st₀ (tr ++ es) st'

/-- Two runs in a row are one, with the traces in a row. -/
theorem Run.trans {st₀ st₁ st₂ : Stage} {tr tr' : ServerTrace} (h : Run st₀ tr st₁)
    (h' : Run st₁ tr' st₂) : Run st₀ (tr ++ tr') st₂ := by
  induction h' with
  | refl => rwa [List.append_nil]
  | step _ next ih =>
    rw [← List.append_assoc]
    exact ih.step next

/-- Every event of a run was told of some step. -/
theorem Run.at {st₀ st : Stage} {tr : ServerTrace} (h : Run st₀ tr st) {x : ServerEvent}
    {pre post : ServerTrace} (hx : tr = pre ++ x :: post) :
    ∃ tr₁ st₁ front back st₂, Run st₀ tr₁ st₁ ∧ Step st₁ (front ++ x :: back) st₂ ∧
      pre = tr₁ ++ front ∧ ∃ tr₂, Run st₂ tr₂ st ∧ post = back ++ tr₂ := by
  induction h generalizing post with
  | refl => simp at hx
  | @step tr es st st' run next ih =>
    -- The event was told before the last step or of it.
    rcases append_eq_cases hx with ⟨mid, htr, rfl⟩ | ⟨mid, rfl, hes⟩
    · obtain ⟨tr₁, st₁, front, back, st₂, h1, h2, h3, tr₂, h4, rfl⟩ := ih htr
      exact ⟨tr₁, st₁, front, back, st₂, h1, h2, h3, tr₂ ++ es, h4.step next,
        (List.append_assoc _ _ _)⟩
    · exact ⟨tr, st, mid, post, st', run, hes ▸ next, rfl, [], .refl, (List.append_nil _).symm⟩

/-! ## Carrying out runs -/

/-- A choice of what happens next. -/
inductive Move where
  | serve
  | depart
  | handle (clock n : Nat)
  | forward (n : Nat)
  | withdraw (id : StreamId)
  | meanwhile (change : Transport → Transport)

/-- Makes a move, if it can be made. -/
def move? (st : Stage) : Move → Option (ServerTrace × Stage)
  | .serve => st.serve?.map fun st' => (st.serveEvents, st')
  | .depart => st.depart?.map fun st' => (st.departEvents, st')
  | .handle clock n =>
    st.server.handlings[n]?.bind fun h =>
      (st.handle? clock n).map fun st' => (st.handlingEvents n h, st')
  | .forward n =>
    st.server.forwardings[n]?.bind fun f =>
      (st.forward? n).map fun r => (st.forwardingEvents n f, r.1)
  | .withdraw id => some ([.withdrawn id], st.retire id)
  | .meanwhile change => some ([], { st with transport := change st.transport })

/-- Makes moves in turn, and stops at the first that cannot be made. -/
def play (st : Stage) : List Move → ServerTrace × Stage
  | [] => ([], st)
  | m :: ms =>
    match st.move? m with
    | none => ([], st)
    | some (es, st') => (es ++ (st'.play ms).1, (st'.play ms).2)

/-- A move that can be made is a step. -/
theorem move_step {st st' : Stage} {m : Move} {es : ServerTrace}
    (h : st.move? m = some (es, st')) : Step st es st' := by
  -- Each move is defined just when its step is, with the same events.
  cases m with
  | serve =>
    obtain ⟨_, go, heq⟩ := Option.map_eq_some_iff.1 h
    obtain ⟨rfl, rfl⟩ := Prod.mk.injEq .. ▸ heq
    exact .serve go
  | depart =>
    obtain ⟨_, go, heq⟩ := Option.map_eq_some_iff.1 h
    obtain ⟨rfl, rfl⟩ := Prod.mk.injEq .. ▸ heq
    exact .depart go
  | handle clock n =>
    obtain ⟨_, found, h⟩ := Option.bind_eq_some_iff.1 h
    obtain ⟨_, go, heq⟩ := Option.map_eq_some_iff.1 h
    obtain ⟨rfl, rfl⟩ := Prod.mk.injEq .. ▸ heq
    exact .handle found go
  | forward n =>
    obtain ⟨_, found, h⟩ := Option.bind_eq_some_iff.1 h
    obtain ⟨_, go, heq⟩ := Option.map_eq_some_iff.1 h
    obtain ⟨rfl, rfl⟩ := Prod.mk.injEq .. ▸ heq
    exact .forward found go
  -- The moves of the environment are always possible.
  | withdraw id =>
    obtain ⟨rfl, rfl⟩ := Prod.mk.injEq .. ▸ Option.some.inj h
    exact .withdraw st id
  | meanwhile change =>
    obtain ⟨rfl, rfl⟩ := Prod.mk.injEq .. ▸ Option.some.inj h
    exact .around ⟨rfl, rfl, rfl, rfl⟩

/-- What is carried out is a run. -/
theorem play_run (st : Stage) (ms : List Move) : Run st (st.play ms).1 (st.play ms).2 := by
  induction ms generalizing st with
  | nil => exact .refl
  | cons m ms ih =>
    unfold play
    -- A move that is not possible ends the play.
    split
    · exact .refl
    · next es st' h =>
      have first : Run st ([] ++ es) st' := Run.refl.step (move_step h)
      rw [List.nil_append] at first
      exact first.trans (ih st')

end Stage

/-! ## Launched servers -/

/-- The server that is launched with these methods where nothing has happened yet, and the transport
    it leaves. -/
def Server.launched (router : Router) : Server × Transport :=
  let (s, t) := Server.launch router {} {}
  (s.toOption.getD {}, t)

/-- The launch comes to a server, whatever its methods are. -/
theorem Server.launch_launched (router : Router) :
    Server.launch router {} {} = (.ok (launched router).1, (launched router).2) := rfl

/-- What such a server starts from. -/
def Stage.launched (router : Router) : Stage :=
  { server := (Server.launched router).1, sources := {}, transport := (Server.launched router).2 }

end StreamRpc
