import StreamRpc.Proofs.Message.Canonical
import StreamRpc.Proofs.Server.Fates

/-! # Requests and their answers

Every request that the server takes off its queue is given to a task of its own, which calls the
method once and sends one answer.  The answer is what the method returned, with numbers for its
streams, or its failure, or a failure that says that neither could be written.

* `ServerTrace.tasksFor_eq`   a request that came once was given to one task
* `Delivers`                  what goes over the wire for what a method came to
* `Stage.Run.of_reply`        what the task did that sent an answer
-/

namespace StreamRpc

/-- The request in an envelope. -/
def Envelope.request? (e : Envelope) : Option Request :=
  match ClientMessage.ofEnvelope e with
  | .ok (.request r) => some r
  | _ => none

/-- An envelope that is read as a request is one. -/
theorem Envelope.request_of {e : Envelope} {r : Request}
    (h : ClientMessage.ofEnvelope e = .ok (.request r)) : e.request? = some r := by
  simp only [request?, h]

/-- Who asks, and under which number. -/
def Request.key (r : Request) : String × CallId :=
  (r.replyTo, r.id)

namespace ServerEvent

/-- The request that was given to a task. -/
def asked? : ServerEvent → Option Request
  | requested _ r => some r
  | _ => none

/-- The envelope that was taken off the server's queue. -/
def intake? : ServerEvent → Option Envelope
  | served e => some e
  | _ => none

/-- The task that was given the request of this client with this number. -/
def taskFor? (client : String) (id : CallId) : ServerEvent → Option Nat
  | requested n r => if r.key = (client, id) then some n else none
  | _ => none

/-- What this task called, and what the call comes to. -/
def invocation? (n : Nat) : ServerEvent → Option (Invocation × Behaviour)
  | invoked m call b => if m = n then some (call, b) else none
  | _ => none

end ServerEvent

namespace ServerTrace

/-- The requests that were given to tasks, in order. -/
def asked (tr : ServerTrace) : List Request :=
  tr.filterMap ServerEvent.asked?

/-- The envelopes that were taken off the server's queue, in order. -/
def intake (tr : ServerTrace) : List Envelope :=
  tr.filterMap ServerEvent.intake?

/-- The tasks that were given the request of a client with a number. -/
def tasksFor (tr : ServerTrace) (client : String) (id : CallId) : List Nat :=
  tr.filterMap (ServerEvent.taskFor? client id)

/-- The calls of methods by a task, and what they come to. -/
def invocations (tr : ServerTrace) (n : Nat) : List (Invocation × Behaviour) :=
  tr.filterMap (ServerEvent.invocation? n)

/-- The tasks for a call are read off a trace piece by piece. -/
private theorem tasksFor_append (tr tr' : ServerTrace) (client : String) (id : CallId) :
    tasksFor (tr ++ tr') client id = tasksFor tr client id ++ tasksFor tr' client id :=
  List.filterMap_append

/-- Invocations are read off a trace piece by piece. -/
@[simp] theorem invocations_append (tr tr' : ServerTrace) (n : Nat) :
    invocations (tr ++ tr') n = invocations tr n ++ invocations tr' n :=
  List.filterMap_append

/-- An invocation is among a task's when the trace has it. -/
theorem mem_invocations {tr : ServerTrace} {n : Nat} {call : Invocation} {b : Behaviour} :
    (call, b) ∈ tr.invocations n ↔ .invoked n call b ∈ tr := by
  constructor
  · intro h
    obtain ⟨x, hx, heq⟩ := List.mem_filterMap.1 h
    -- Only an invocation by the same handler counts.
    cases x with
    | invoked m call' b' =>
      simp only [ServerEvent.invocation?] at heq
      split at heq
      · next hm =>
        obtain ⟨rfl, rfl⟩ := Prod.mk.injEq .. ▸ Option.some.inj heq
        exact hm ▸ hx
      · cases heq
    | _ => cases heq
  · exact fun h => List.mem_filterMap.2 ⟨_, h, if_pos rfl⟩

/-- A task's invocations are all in its own part of the trace. -/
theorem invocations_of (tr : ServerTrace) (n : Nat) :
    invocations (tr.of (.handling n)) n = tr.invocations n := by
  refine filterMap_of fun x _ a hx => ?_
  cases x with
  | invoked m call b =>
    simp only [ServerEvent.invocation?] at hx
    split at hx
    · next hm => rw [hm, ServerEvent.worker?]
    · cases hx
  | _ => cases hx

/-- A request that came once was given to one task. -/
theorem tasksFor_eq {tr : ServerTrace} (nodup : (tr.asked.map Request.key).Nodup) {n : Nat}
    {r : Request} (h : .requested n r ∈ tr) : tr.tasksFor r.replyTo r.id = [n] := by
  obtain ⟨pre, post, rfl⟩ := List.append_of_mem h
  have hsplit : asked (pre ++ .requested n r :: post) = asked pre ++ r :: asked post := by
    simp [asked, ServerEvent.asked?]
  rw [hsplit, List.map_append, List.map_cons, List.nodup_append, List.nodup_cons] at nodup
  -- No other request has the key, neither before nor after this one.
  obtain ⟨-, ⟨hpost, -⟩, hpre⟩ := nodup
  have hnone : ∀ es : ServerTrace, r.key ∉ es.asked.map Request.key →
      es.tasksFor r.replyTo r.id = [] := by
    intro es hes
    refine List.filterMap_eq_nil_iff.2 fun x hx => ?_
    cases x with
    | requested m q =>
      refine if_neg fun hkey => hes ?_
      exact List.mem_map.2 ⟨q, List.mem_filterMap.2 ⟨_, hx, rfl⟩, hkey⟩
    | _ => rfl
  -- What is left of the trace is this one event.
  have hself : ServerEvent.taskFor? r.replyTo r.id (.requested n r) = some n := if_pos rfl
  rw [tasksFor_append, hnone pre fun hmem => hpre _ hmem _ List.mem_cons_self rfl, List.nil_append,
    tasksFor, List.filterMap_cons, hself]
  exact congrArg (n :: ·) (hnone post hpost)

end ServerTrace

/-! ## What is asked -/

namespace Stage

/-- The requests of a step are those in the envelopes that it takes in. -/
private theorem Step.asked {st st' : Stage} {es : ServerTrace} (next : Step st es st') :
    es.asked = es.intake.filterMap Envelope.request? := by
  -- Tasks neither take envelopes nor give requests to others.
  have hquiet : (∀ x ∈ es, x.heard = false) →
      es.asked = es.intake.filterMap Envelope.request? := by
    intro hes
    have hnone : es.asked = [] ∧ es.intake = [] := by
      constructor <;> refine List.filterMap_eq_nil_iff.2 fun x hx => ?_
      all_goals
        have h := hes x hx
        cases x <;> first | rfl | cases h
    rw [hnone.1, hnone.2]
    rfl
  cases next.does with
  | @request _ e r _ _ _ means =>
    have asks : e.request? = some r := by simp [Envelope.request?, means]
    show [r] = [e].filterMap Envelope.request?
    simp [asks]
  | @cancel _ e _ _ _ _ means | @ignore _ e _ _ _ _ means =>
    have asks : e.request? = none := by simp [Envelope.request?, means]
    show [] = [e].filterMap Envelope.request?
    simp [asks]
  | handle => exact hquiet (heard_handling _ _ _)
  | forward => exact hquiet (heard_forwarding _ _ _)
  | _ => rfl

/-- The requests that tasks were given are those in the envelopes that came. -/
theorem Run.asked {st₀ st : Stage} {tr : ServerTrace} (run : Run st₀ tr st) :
    tr.asked = tr.intake.filterMap Envelope.request? := by
  induction run with
  | refl => rfl
  | step _ next ih =>
    rw [ServerTrace.asked, ServerTrace.intake, List.filterMap_append, List.filterMap_append,
      List.filterMap_append]
    exact congrArg₂ (· ++ ·) ih next.asked

/-- An answer on its way calls no method. -/
theorem invoked_notMem_of_reply {st st' : Stage} {w : Worker} {client : String} {id : CallId}
    {reply : Reply} {es : ServerTrace} {next : Reply ⊕ Except CallError Unit}
    (does : reply.Does w client id st es next st') {n : Nat} {call : Invocation} {b : Behaviour} :
    .invoked n call b ∉ es := by
  intro hmem
  cases does with
  | start subs =>
    obtain h | ⟨_, _, _, _, h⟩ := ServerTrace.mem_started hmem <;> cases h
  | _ => simp at hmem

/-- Only a request calls a method, when it begins. -/
theorem of_invoked_handling {st st' : Stage} {clock m n : Nat} {h : Handling} {es : ServerTrace}
    {phase : Option Handling.Phase} (does : h.Does clock m st es phase st') {call : Invocation}
    {b : Behaviour} (hmem : .invoked n call b ∈ es) : b = st.server.router.invoke call := by
  cases does with
  | call phase good =>
    obtain ⟨-, rfl, rfl⟩ := ServerEvent.invoked.inj (List.mem_singleton.1 hmem)
    rfl
  | reply phase does => exact absurd hmem (invoked_notMem_of_reply does)
  | finish phase does => exact absurd hmem (invoked_notMem_of_reply does)
  | _ => simp at hmem

/-- The method that was called is what the server had under its name. -/
theorem Step.of_invoked {st st' : Stage} {es : ServerTrace} (next : Step st es st') {n : Nat}
    {call : Invocation} {b : Behaviour} (h : .invoked n call b ∈ es) :
    b = st.server.router.invoke call := by
  cases next.works h rfl with
  | @handle _ m _ _ _ found steps => exact of_invoked_handling (Handling.does m steps) h
  | @forward m f _ found steps =>
    -- A stream tells of no request.
    obtain ⟨subs, -, hof⟩ := pass_tasks (n := m) steps
    have hmem : .invoked n call b ∈ ServerTrace.of (st.forwardingEvents m f) (.handling n) :=
      ServerTrace.mem_of.2 ⟨h, rfl⟩
    rw [hof _ (by simp), ServerTrace.of_begun_handling] at hmem
    cases hmem

end Stage

/-- Arguments without streams get to the method as they are. -/
theorem plainArgs_widen (args : List PlainValue) : plainArgs (args.map Value.widen) = .ok args := by
  have h : (args.map Value.widen).mapM (Value.toPlain (σ := StreamId)) = .ok args := by
    induction args with
    | nil => rfl
    | cons v args ih =>
      rw [List.map_cons, List.mapM_cons]
      exact bind_eq_ok_iff.2 ⟨v, Value.toPlain_widen v, bind_eq_ok_iff.2 ⟨args, ih, rfl⟩⟩
  rw [plainArgs, h]

/-! ## Sources in what a method returned -/

namespace Blueprint

mutual

/-- Making the sources in a value changes the slots and nothing else. -/
private theorem map_buildValue (v : DraftValue) (s : Sources) :
    ((buildValue v s).1.map fun _ => ()) = v.map fun _ => () := by
  -- Building replaces the source in each slot and leaves the shape alone.
  cases v with
  | list items =>
    simp only [buildValue, Value.map_list]
    exact congrArg Value.list (map_buildValues items s)
  | record fields =>
    simp only [buildValue, Value.map_record]
    exact congrArg Value.record (map_buildFields fields s)
  | present v => exact congrArg Value.present (map_buildValue v s)
  | variant name v => exact congrArg (Value.variant name) (map_buildValue v s)
  | _ => rfl

/-- Values that are built differ from their drafts in the sources only. -/
private theorem map_buildValues (vs : List DraftValue) (s : Sources) :
    ((buildValues vs s).1.map (Value.map fun _ => ())) = vs.map (Value.map fun _ => ()) := by
  cases vs with
  | nil => rfl
  | cons v vs =>
    simp only [buildValues, List.map_cons]
    rw [map_buildValue v s, map_buildValues vs _]

/-- Fields that are built differ from their drafts in the sources only. -/
private theorem map_buildFields (fields : List (String × DraftValue)) (s : Sources) :
    ((buildFields fields s).1.map fun (name, v) => (name, v.map fun _ => ())) =
      fields.map fun (name, v) => (name, v.map fun _ => ()) := by
  cases fields with
  | nil => rfl
  | cons field fields =>
    obtain ⟨name, v⟩ := field
    simp only [buildFields, List.map_cons]
    rw [map_buildValue v s, map_buildFields fields _]

end

end Blueprint

/-- An outcome with its sources made. -/
inductive Builds : Except Failure DraftValue → Except Failure ServerValue → Prop where
  | value {draft : DraftValue} {made : ServerValue}
      (shape : (made.map fun _ => ()) = draft.map fun _ => ()) : Builds (.ok draft) (.ok made)
  | failure (f : Failure) : Builds (.error f) (.error f)

/-- A result is built from its draft. -/
private theorem Stage.builds (st : Stage) (result : Except Failure DraftValue) :
    Builds result (st.made result) := by
  cases result with
  | ok draft => exact .value (Blueprint.map_buildValue draft st.sources)
  | error f => exact .failure f

/-! ## Answers -/

/-- What goes over the wire for what a method came to, as the task that called it tells. -/
inductive Delivers (tr : ServerTrace) (client : String) (n : Nat) :
    Except Failure DraftValue → Except Failure WireValue → Prop where
  /-- A value comes with numbers for its streams, in their order. -/
  | value {draft : DraftValue} {made : ServerValue} {wire : WireValue} {subs : List Subscription}
      (answered : .answered n (.ok draft) (.ok made) ∈ tr)
      (built : (made.map fun _ => ()) = draft.map fun _ => ())
      (numbered : .numbered (.handling n) client subs ∈ tr) (exposed : Exposes made wire subs)
      (shallow : draft.depth ≤ maxDepth) : Delivers tr client n (.ok draft) (.ok wire)
  /-- A failure comes as it is. -/
  | failure (f : Failure) : Delivers tr client n (.error f) (.error f)
  /-- A value whose lengths fit cannot be written only if it is too deep. -/
  | deep {draft : DraftValue} {made : ServerValue} {wire : WireValue} {subs : List Subscription}
      {err : CodecError} (answered : .answered n (.ok draft) (.ok made) ∈ tr)
      (built : (made.map fun _ => ()) = draft.map fun _ => ())
      (exposed : Exposes made wire subs)
      (refused : ServerMessage.ReplyFits wire → maxDepth < draft.depth ∧ err = .nestingTooDeep) :
      Delivers tr client n (.ok draft) (.error (.unwritable "reply" err))
  /-- A failure cannot be written only if some length in it does not fit. -/
  | long {f : Failure} {err : CodecError} (refused : ¬ (ServerMessage.resultItem (.error f)).Fits) :
      Delivers tr client n (.error f) (.error (.unwritable "reply" err))

/-- What was delivered stays so as the trace grows. -/
theorem Delivers.mono {tr tr' : ServerTrace} {client : String} {n : Nat}
    {result : Except Failure DraftValue} {wire : Except Failure WireValue}
    (h : Delivers tr client n result wire) (sub : ∀ x ∈ tr, x ∈ tr') :
    Delivers tr' client n result wire := by
  cases h with
  | value answered built numbered exposed shallow =>
    exact .value (sub _ answered) built (sub _ numbered) exposed shallow
  | failure f => exact .failure f
  | deep answered built exposed refused => exact .deep (sub _ answered) built exposed refused
  | long refused => exact .long refused

/-- Only a value comes as a value. -/
theorem Delivers.value_of_ok {tr : ServerTrace} {client : String} {n : Nat}
    {result : Except Failure DraftValue} {wire : WireValue}
    (h : Delivers tr client n result (.ok wire)) : ∃ draft, result = .ok draft := by
  cases h with
  | value => exact ⟨_, rfl⟩

/-- A value is nested as deep on the wire as its draft. -/
private theorem Exposes.depth_of_built {draft : DraftValue} {made : ServerValue} {wire : WireValue}
    {subs : List Subscription} (h : Exposes made wire subs)
    (built : (made.map fun _ => ()) = draft.map fun _ => ()) : wire.depth = draft.depth := by
  rw [h.depth, ← Value.depth_map (fun _ => ()) made, built, Value.depth_map]

section

variable {L : ServerTrace} {client : String} {n : Nat} {id : CallId} {e : Envelope}
  {result : Except Failure DraftValue} {made : Except Failure ServerValue}
  {wire : Except Failure WireValue} {subs : List Subscription}

/-- A reply that was written delivers its result. -/
private theorem Delivers.of_written (answered : .answered n result made ∈ L)
    (built : Builds result made)
    (numbered : .numbered (.handling n) client subs ∈ L) (exposed : ExposesResult made wire subs)
    (written : (ServerMessage.reply id wire).toEnvelope = .ok e) :
    Delivers L client n result wire := by
  cases built with
  | value shape =>
    cases wire with
    | ok wire =>
      have hexposed : Exposes _ wire subs := exposed
      have hdepth := (ServerMessage.fits_of_reply written).1
      -- What can be written is not too deep, and exposing does not change the depth.
      rw [hexposed.depth_of_built shape] at hdepth
      exact .value answered shape numbered hexposed hdepth
    | error f => cases exposed
  | failure f =>
    cases wire with
    | ok wire => cases exposed
    | error f' =>
      obtain ⟨rfl, -⟩ := exposed
      exact .failure f

/-- A reply that could not be written delivers the failure in its place. -/
private theorem Delivers.of_refused {err : CodecError} (answered : .answered n result made ∈ L)
    (built : Builds result made) (exposed : ExposesResult made wire subs)
    (refused : (ServerMessage.reply id wire).toEnvelope = .error err) :
    Delivers L client n result (.error (.unwritable "reply" err)) := by
  cases built with
  | @value draft made shape =>
    cases wire with
    | ok wire =>
      have hexposed : Exposes made wire subs := exposed
      -- Depth is the only bound on a reply whose lengths fit, and that bound is kept or broken by
      -- the draft already.
      refine .deep answered shape hexposed fun fits => ?_
      have hdepth : wire.depth = draft.depth := hexposed.depth_of_built shape
      obtain ⟨hshallow, hdeep⟩ := ServerMessage.reply_of_fits id fits
      rcases Nat.lt_or_ge maxDepth draft.depth with hlt | hle
      · rw [hdeep (hdepth ▸ hlt)] at refused
        exact ⟨hlt, (Except.error.inj refused).symm⟩
      · obtain ⟨e, he⟩ := hshallow (hdepth ▸ hle)
        rw [he] at refused
        cases refused
    | error f => cases exposed
  | failure f =>
    cases wire with
    | ok wire => cases exposed
    | error f' =>
      obtain ⟨rfl, -⟩ := exposed
      -- A failure has no depth to speak of, so some length must be at fault.
      refine .long fun fits => ?_
      rw [ServerMessage.reply_toEnvelope id fits (by rintro v ⟨⟩)] at refused
      cases refused

end

namespace Handling

/-- What a method was called for, and what came of it. -/
structure Called (n : Nat) (r : Request) (args : List PlainValue) (L : ServerTrace)
    (b : Behaviour) (ending : Ending) (made : Except Failure ServerValue) : Prop where
  once : L.invocations n = [({ client := r.replyTo, method := r.method, args }, b)]
  ends : b.ending? = some ending
  answered : .answered n (ending.result r.method) made ∈ L
  built : Builds (ending.result r.method) made

/-- A call stays made when its task invokes nothing more. -/
private theorem Called.append {n : Nat} {r : Request} {args : List PlainValue} {L : ServerTrace}
    {b : Behaviour} {ending : Ending} {made : Except Failure ServerValue}
    (h : Called n r args L b ending made) {es : ServerTrace} (hes : es.invocations n = []) :
    Called n r args (L ++ es) b ending made where
  once := by rw [ServerTrace.invocations_append, hes, List.append_nil, h.once]
  ends := h.ends
  answered := List.mem_append_left _ h.answered
  built := h.built

/-- A request with good arguments that has its answer has been called. -/
private theorem Answered.called {n : Nat} {r : Request} {L : ServerTrace}
    {made : Except Failure ServerValue} (h : Answered n r L made) {args : List PlainValue}
    (good : plainArgs r.args = .ok args) : ∃ b ending, Called n r args L b ending made := by
  -- The arguments are good, so the method was called and the call has ended.
  cases h with
  | rejected bad =>
    rw [good] at bad
    cases bad
  | @ended args' _ b ending st good' _ ends =>
    rw [good] at good'
    obtain rfl := Except.ok.inj good'
    refine ⟨b, ending, ?_, ends, by simp, st.builds _⟩
    simp only [ServerTrace.invocations, List.filterMap_cons, ServerEvent.invocation?, if_true,
      List.filterMap_nil]

/-- A request with good arguments whose reply is in hand has been called. -/
private theorem Loaded.called {n : Nat} {r : Request} {L : ServerTrace}
    {wire : Except Failure WireValue}
    {subs : List Subscription} (h : Loaded n r L wire subs) {args : List PlainValue}
    (good : plainArgs r.args = .ok args) :
    ∃ b ending made, Called n r args L b ending made ∧ ExposesResult made wire subs ∧
      .numbered (.handling n) r.replyTo subs ∈ L := by
  cases h with
  | mk answered exposed =>
    obtain ⟨b, ending, called⟩ := answered.called good
    exact ⟨b, ending, _, called.append rfl, exposed, by simp⟩

/-- An answer that is written has what the method came to. -/
theorem Written.called {n : Nat} {r : Request} {L : ServerTrace} {e : Envelope}
    {subs : List Subscription} (h : Written n r L e subs) {args : List PlainValue}
    (good : plainArgs r.args = .ok args) :
    ∃ b ending made wire, Called n r args L b ending made ∧
      e.serverMessage? = some (.reply r.id wire) ∧
      Delivers L r.replyTo n (ending.result r.method) wire := by
  cases h with
  | plain loaded written =>
    obtain ⟨b, ending, made, called, exposed, numbered⟩ := loaded.called good
    exact ⟨b, ending, made, _, called, ServerMessage.serverMessage_of written,
      .of_written called.answered called.built numbered exposed written⟩
  -- The call was the same; only what its result could not be written as is left out.
  | excuse loaded refused written =>
    obtain ⟨b, ending, made, called, exposed, numbered⟩ := loaded.called good
    refine ⟨b, ending, made, _, called.append rfl, ServerMessage.serverMessage_of written, ?_⟩
    have delivers : Delivers _ r.replyTo n _ _ :=
      .of_refused called.answered called.built exposed refused
    exact delivers.mono fun x hx => List.mem_append_left _ hx

/-- Nothing is sent before the answer is written. -/
theorem Answered.unsent {n : Nat} {r : Request} {L : ServerTrace}
    {made : Except Failure ServerValue} (h : Answered n r L made) (w : Worker) (client : String)
    (e : Envelope) (accepted : Bool) : .sent w client e accepted ∉ L := by
  cases h <;> simp

/-- A request with its reply in hand has sent nothing. -/
theorem Loaded.unsent {n : Nat} {r : Request} {L : ServerTrace} {wire : Except Failure WireValue}
    {subs : List Subscription} (h : Loaded n r L wire subs) (w : Worker) (client : String)
    (e : Envelope) (accepted : Bool) : .sent w client e accepted ∉ L := by
  cases h with
  | mk answered exposed => simp [answered.unsent]

/-- A request that has written its reply has sent nothing yet. -/
theorem Written.unsent {n : Nat} {r : Request} {L : ServerTrace} {e : Envelope}
    {subs : List Subscription} (h : Written n r L e subs) (w : Worker) (client : String)
    (e' : Envelope) (accepted : Bool) : .sent w client e' accepted ∉ L := by
  cases h with
  | plain loaded written => exact loaded.unsent w client e' accepted
  | excuse loaded refused written => simp [loaded.unsent]

/-- What is told up to an answer that was sent, and that nothing is called after it. -/
theorem Story.of_sent {n : Nat} {r : Request} {phase : Option Phase} {L : ServerTrace}
    (h : Story n r phase L) {w : Worker} {client : String} {e : Envelope} {accepted : Bool}
    (hsent : .sent w client e accepted ∈ L) :
    ∃ L' subs more, Written n r L' e subs ∧ client = r.replyTo ∧ L = L' ++ more ∧
      more.invocations n = [] := by
  -- The answer is sent once, as the last thing but for what becomes of its streams.
  have hlast : ∀ {L' : ServerTrace} {e' : Envelope} {accepted' : Bool} {subs : List Subscription}
      {after : ServerTrace}, Written n r L' e' subs →
      L = L' ++ .sent (.handling n) r.replyTo e' accepted' :: after →
      (∀ x ∈ after, ∃ subs', x = .started (.handling n) subs' ∨ x = .dropped (.handling n) subs') →
      ∃ L' subs more, Written n r L' e subs ∧ client = r.replyTo ∧ L = L' ++ more ∧
        more.invocations n = [] := by
    intro L' e' accepted' subs after hw hL hafter
    have hnone : after.invocations n = [] := by
      refine List.filterMap_eq_nil_iff.2 fun x hx => ?_
      obtain ⟨subs', rfl | rfl⟩ := hafter x hx <;> rfl
    rw [hL] at hsent
    rcases List.mem_append.1 hsent with hmem | hmem
    · exact absurd hmem (hw.unsent w client e accepted)
    · rcases List.mem_cons.1 hmem with heq | hmem
      · obtain ⟨-, rfl, rfl, -⟩ := ServerEvent.sent.inj heq
        exact ⟨L', subs, _, hw, rfl, hL, hnone⟩
      · obtain ⟨subs', heq | heq⟩ := hafter _ hmem <;> cases heq
  -- In every phase the answer is still to be sent, or the story is of that form.
  cases h with
  | received => simp at hsent
  | running good called same => simp at hsent
  | sleeping good called same => simp at hsent
  | answered h => exact absurd hsent (h.unsent w client e accepted)
  | exposed h => exact absurd hsent (h.unsent w client e accepted)
  | encoded h => exact absurd hsent (h.unsent w client e accepted)
  | accepted h => exact hlast h rfl (by simp)
  | refused h => exact hlast h rfl (by simp)
  | done h => exact hlast h rfl (by simp)
  | failed h => exact hlast h rfl (by simp)
  | lost h refused => simp [h.unsent] at hsent

/-- The story of a request begins with its coming. -/
theorem Answered.requested {n : Nat} {r : Request} {L : ServerTrace}
    {made : Except Failure ServerValue} (h : Answered n r L made) : .requested n r ∈ L := by
  cases h <;> simp

/-- A request that has written its reply was asked. -/
theorem Written.requested {n : Nat} {r : Request} {L : ServerTrace} {e : Envelope}
    {subs : List Subscription} (h : Written n r L e subs) : .requested n r ∈ L := by
  cases h with
  | plain loaded written =>
    cases loaded with
    | mk answered exposed => simp [answered.requested]
  | excuse loaded refused written =>
    cases loaded with
    | mk answered exposed => simp [answered.requested]

end Handling

namespace Stage

/-- An answer that was sent is that of a task to its request, whose method it called once. -/
theorem Run.of_reply {st₀ st : Stage} {tr : ServerTrace} (fresh : st₀.Fresh) (run : Run st₀ tr st)
    {v : Worker} {client : String} {e : Envelope} {accepted : Bool}
    (hsent : .sent v client e accepted ∈ tr) {id : CallId} {wire : Except Failure WireValue}
    (he : e.serverMessage? = some (.reply id wire)) :
    ∃ n r, v = .handling n ∧ .requested n r ∈ tr ∧ r.replyTo = client ∧ r.id = id ∧
      ∀ args, plainArgs r.args = .ok args → ∃ b ending,
        tr.invocations n = [({ client, method := r.method, args }, b)] ∧
          b.ending? = some ending ∧ Delivers tr client n (ending.result r.method) wire := by
  obtain ⟨pre, post, heq⟩ := List.append_of_mem hsent
  -- Only requests send replies: what a stream sends is an observation.
  have hworker : ∃ n, v = .handling n := by
    rcases run.of_sent fresh heq with ⟨n, id', result, hv, -⟩ | ⟨n, sub, event, -, -, hw⟩
    · exact ⟨n, hv⟩
    · rw [ServerMessage.serverMessage_of hw] at he
      cases he
  obtain ⟨n, rfl⟩ := hworker
  have hof : .sent (.handling n) client e accepted ∈ tr.of (.handling n) :=
    ServerTrace.mem_of.2 ⟨hsent, rfl⟩
  obtain ⟨r, story⟩ := (run.told fresh).handling hof
  obtain ⟨L, subs, more, written, rfl, hL, hmore⟩ := story.of_sent hof
  have hsub : ∀ x ∈ L, x ∈ tr := fun x hx =>
    mem_of_mem_of (w := .handling n) (hL ▸ List.mem_append_left _ hx)
  -- The number in the reply is read back from the bytes that were written.
  have hid : r.id = id := by
    obtain ⟨-, -, result, hw, -⟩ := written.tally
    rw [ServerMessage.serverMessage_of hw] at he
    exact (ServerMessage.reply.inj (Option.some.inj he)).1
  refine ⟨n, r, rfl, hsub _ written.requested, rfl, hid, fun args good => ?_⟩
  obtain ⟨b, ending, made, wire', called, he', delivers⟩ := written.called good
  rw [he] at he'
  obtain ⟨-, rfl⟩ := ServerMessage.reply.inj (Option.some.inj he')
  refine ⟨b, ending, ?_, called.ends, delivers.mono hsub⟩
  rw [← ServerTrace.invocations_of, hL, ServerTrace.invocations_append, hmore, List.append_nil,
    called.once]

end Stage

end StreamRpc
