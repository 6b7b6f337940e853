import StreamRpc.Proofs.Server.Attempts
import StreamRpc.Proofs.Value.Plain

/-! # What requests are settled with

A request with streams in its arguments is turned down, and no method is called.  Otherwise it is
settled with what its method comes to: a value, the failure that the method fails with, or a failure
made of any other error or a panic.  The methods are those that the server has when the request has
its first turn.

* `Ending.answers`         what goes back for the way in which a method ends
* `Settles`                what settles a request
* `Stage.FirstTurn`        the methods that the server has when a request has its first turn
* `Stage.carry_settles`    whatever a request's task sends settles the request
* `Stage.turn_received`    the first turn of a request
-/

namespace StreamRpc

/-- What goes back for the way in which a method ended. -/
inductive Ending.Answers (method : String) : Ending → Except Failure DraftValue → Prop where
  | value (v : DraftValue) : Answers method (.returned v) (.ok v)
  /-- A failure goes back as it is, whatever contexts were put around it. -/
  | failure (f : Failure) (contexts : List String) :
      Answers method (.raised { cause := .failure f, contexts }) (.error f)
  | error (message : String) (contexts : List String) :
      Answers method (.raised { cause := .text message, contexts })
        (.error {
          kind := .application
          message := ": ".intercalate (contexts.reverse ++ [message]) })
  | panicked (message : String) :
      Answers method (.panicked (some message))
        (.error { kind := .application, message := method ++ " panicked: " ++ message })
  | collapsed :
      Answers method (.panicked none)
        (.error { kind := .application, message := method ++ " panicked" })

/-- An ending answers with the result it has. -/
theorem Ending.answers (method : String) (e : Ending) : e.Answers method (e.result method) := by
  cases e with
  | returned v => exact .value v
  | raised e =>
    obtain ⟨cause, contexts⟩ := e
    cases cause with
    | failure f => exact .failure f contexts
    | text message => exact .error message contexts
  | panicked message =>
    cases message with
    | none => exact .collapsed
    | some message => exact .panicked message

/-- A request of a task is settled with this, by a server with these methods. -/
inductive Settles (tr : ServerTrace) (n : Nat) (r : Request) (router : Router) :
    Except Failure WireValue → Prop where
  /-- There are streams in the arguments, and the first is named; nothing was called. -/
  | rejected {id : StreamId} {rest : List StreamId}
      (first : r.args.flatMap Value.slots = id :: rest) (uncalled : tr.invocations n = []) :
      Settles tr n r router (.error {
        kind := .badArguments
        message := "arguments may not contain observables (found " ++ id.display ++ ")" })
  /-- There is no such method. -/
  | unknown {args : List PlainValue} {wire : Except Failure WireValue}
      (plain : r.args = args.map Value.widen) (absent : router.handlers[r.method]? = none)
      (delivers : Delivers tr r.replyTo n
        (.error { kind := .methodNotFound, message := r.method }) wire) :
      Settles tr n r router wire
  /-- The method was called once, and has ended. -/
  | ended {args : List PlainValue} {handler : Handler} {ending : Ending}
      {result : Except Failure DraftValue} {wire : Except Failure WireValue}
      (plain : r.args = args.map Value.widen)
      (found : router.handlers[r.method]? = some handler)
      (called : tr.invocations n = [({ client := r.replyTo, method := r.method, args },
        handler { client := r.replyTo, method := r.method, args })])
      (ends : (handler { client := r.replyTo, method := r.method, args }).ending? = some ending)
      (answers : ending.Answers r.method result)
      (delivers : Delivers tr r.replyTo n result wire) : Settles tr n r router wire

/-- What a call came to settles the request. -/
private theorem Settles.of_called {tr : ServerTrace} {n : Nat} {r : Request} {router : Router}
    {args : List PlainValue} {ending : Ending} {wire : Except Failure WireValue}
    (plain : r.args = args.map Value.widen)
    (called : tr.invocations n = [({ client := r.replyTo, method := r.method, args },
      router.invoke { client := r.replyTo, method := r.method, args })])
    (ends : (router.invoke { client := r.replyTo, method := r.method, args }).ending? =
      some ending)
    (delivers : Delivers tr r.replyTo n (ending.result r.method) wire) :
    Settles tr n r router wire := by
  unfold Router.invoke at called ends
  -- A call of a method nobody handles ends at once, with a failure.
  cases found : router.handlers[r.method]? with
  | none =>
    simp only [found] at ends
    obtain rfl := Option.some.inj ends
    exact .unknown plain found delivers
  | some handler =>
    simp only [found] at called ends
    exact .ended plain found called ends (ending.answers r.method) delivers

/-! ## What turns a request down -/

/-- The number of a stream is shown with a few digits. -/
private theorem StreamId.length_display (id : StreamId) : (Wire.utf8 id.display).length ≤ 84 := by
  have digits : (Nat.repr id.val.toNat).length ≤ 20 :=
    Nat.repr_length id.val.toNat 20 (by decide) (lt_trans id.val.toNat_lt (by norm_num))
  have hrepr : (Wire.utf8 (Nat.repr id.val.toNat)).length ≤ 80 :=
    (Wire.length_utf8_le _).trans (Nat.mul_le_mul_left 4 digits)
  have hhead : (Wire.utf8 "obs-").length = 4 := by decide
  show (Wire.utf8 ("obs-" ++ Nat.repr id.val.toNat)).length ≤ 84
  rw [Wire.length_utf8_append, hhead]
  omega

/-- So what turns down a request is short. -/
private theorem length_found (id : StreamId) :
    (Wire.utf8 ("arguments may not contain observables (found " ++ id.display ++ ")")).length ≤
      1000 := by
  have hhead : (Wire.utf8 "arguments may not contain observables (found ").length = 45 := by decide
  have hend : (Wire.utf8 ")").length = 1 := by decide
  have hid := id.length_display
  rw [Wire.length_utf8_append, Wire.length_utf8_append, hhead, hend]
  omega

namespace Handling

/-- A request with streams in its arguments calls nothing. -/
private theorem Story.uncalled {n : Nat} {r : Request} {phase : Option Phase} {L : ServerTrace}
    (h : Story n r phase L) {f : Failure} (bad : plainArgs r.args = .error f) :
    L.invocations n = [] := by
  have hanswered : ∀ {L' : ServerTrace} {made : Except Failure ServerValue},
      Answered n r L' made → L'.invocations n = [] := by
    intro L' made h
    -- Arguments that are not plain are turned down before the method is looked up.
    cases h with
    | rejected => rfl
    | ended good => simp [bad] at good
  have hloaded : ∀ {L' : ServerTrace} {wire : Except Failure WireValue}
      {subs : List Subscription}, Loaded n r L' wire subs → L'.invocations n = [] := by
    rintro _ _ _ ⟨answered, -⟩
    rw [ServerTrace.invocations_append, hanswered answered]
    rfl
  -- The same holds at each later stage, as nothing more is invoked.
  have hwritten : ∀ {L' : ServerTrace} {e : Envelope} {subs : List Subscription},
      Written n r L' e subs → L'.invocations n = [] := by
    intro L' e subs h
    cases h with
    | plain loaded => exact hloaded loaded
    | excuse loaded =>
      rw [ServerTrace.invocations_append, hloaded loaded]
      rfl
  cases h with
  | received => rfl
  | running good => simp [bad] at good
  | sleeping good => simp [bad] at good
  | answered h => exact hanswered h
  | exposed h => exact hloaded h
  | encoded h => exact hwritten h
  | accepted h => rw [ServerTrace.invocations_append, hwritten h]; rfl
  | refused h => rw [ServerTrace.invocations_append, hwritten h]; rfl
  | done h => rw [ServerTrace.invocations_append, hwritten h]; rfl
  | failed h => rw [ServerTrace.invocations_append, hwritten h]; rfl
  | lost h => rw [ServerTrace.invocations_append, hloaded h]; rfl

/-- What turns down a request with streams in its arguments is short, and is sent as it is. -/
private theorem Written.rejected {n : Nat} {r : Request} {L : ServerTrace} {e : Envelope}
    {subs : List Subscription} (h : Written n r L e subs) {f : Failure}
    (bad : plainArgs r.args = .error f) : e.serverMessage? = some (.reply r.id (.error f)) ∧
      .answered n (.error f) (.error f) ∈ L := by
  have hloaded : ∀ {L' : ServerTrace} {wire : Except Failure WireValue}
      {subs : List Subscription}, Loaded n r L' wire subs →
        wire = .error f ∧ .answered n (.error f) (.error f) ∈ L' := by
    rintro _ wire _ ⟨answered, exposed⟩
    -- Bad arguments are answered with their own failure.
    cases answered with
    | rejected bad' =>
      rw [bad] at bad'
      obtain rfl := Except.error.inj bad'
      cases wire with
      | ok v => cases exposed
      | error f' => exact ⟨congrArg Except.error exposed.1.symm, by simp⟩
    | ended good => simp [bad] at good
  cases h with
  | plain loaded written =>
    obtain ⟨rfl, hmem⟩ := hloaded loaded
    exact ⟨ServerMessage.serverMessage_of written, hmem⟩
  | excuse loaded refused written =>
    obtain ⟨rfl, -⟩ := hloaded loaded
    -- a text that short can always be written
    obtain ⟨id, rest, -, rfl⟩ := plainArgs_of_error bad
    have short := length_found id
    obtain ⟨e', he'⟩ := (ServerMessage.writes_failure (f := {
      kind := .badArguments
      message := "arguments may not contain observables (found " ++ id.display ++ ")" })
      short r.id ⟨0⟩).1
    rw [he'] at refused
    cases refused

end Handling

namespace Stage

variable {st₀ st st' : Stage} {tr es : ServerTrace}

/-! ## The turns of a request -/

/-- Reading past what is illegible only serves envelopes. -/
private theorem served_of_mem_passAll (st : Stage) : ∀ x ∈ st.passAll.1, ∃ e, x = .served e := by
  refine passAll_induct (P := fun _ es _ => ∀ x ∈ es, ∃ e, x = .served e) ?_ ?_ st
  · simp
  · rintro st e st₁ es st₂ - ih x hx
    rcases List.mem_cons.1 hx with rfl | hx
    · exact ⟨e, rfl⟩
    · exact ih x hx

/-- What is told in a turn of a task was told of its step. -/
private theorem of_mem_tryMove {m : Move} {x : ServerEvent} (h : x ∈ (st.tryMove m).1) :
    ∃ es st', st.move? m = some (es, st') ∧ x ∈ es := by
  unfold tryMove at h
  cases hm : st.move? m with
  | none =>
    rw [hm] at h
    cases h
  | some p =>
    rw [hm] at h
    exact ⟨p.1, p.2, rfl, h⟩

/-- What is told in the turn of a request is told of its task. -/
private theorem of_mem_handle {clock n : Nat} {x : ServerEvent}
    (h : x ∈ (st.tryMove (.handle clock n)).1) :
    ∃ task phase st', st.server.handlings[n]? = some task ∧
      st.advance? clock task = some (phase, st') ∧ x ∈ st.handlingEvents n task := by
  obtain ⟨es, st', go, hx⟩ := of_mem_tryMove h
  obtain ⟨task, found, tried⟩ := Option.bind_eq_some_iff.1 go
  obtain ⟨st₁, step, heq⟩ := Option.map_eq_some_iff.1 tried
  obtain ⟨rfl, rfl⟩ := Prod.mk.injEq .. ▸ heq
  obtain ⟨phase, st₂, steps, -⟩ := handle_eq found step
  exact ⟨task, phase, st₂, found, steps, hx⟩

/-- What is told in the turn of a stream is told of its task. -/
private theorem of_mem_forward {n : Nat} {x : ServerEvent} (h : x ∈ (st.tryMove (.forward n)).1) :
    ∃ task o, st.server.forwardings[n]? = some task ∧ task.step? st = some o ∧
      x ∈ st.forwardingEvents n task := by
  obtain ⟨es, st', go, hx⟩ := of_mem_tryMove h
  obtain ⟨task, found, tried⟩ := Option.bind_eq_some_iff.1 go
  obtain ⟨⟨st₁, retires⟩, step, heq⟩ := Option.map_eq_some_iff.1 tried
  obtain ⟨rfl, rfl⟩ := Prod.mk.injEq .. ▸ heq
  obtain ⟨o, steps, -, -⟩ := forward_eq found step
  exact ⟨task, o, found, steps, hx⟩

/-- Of a request nothing is told but in its own turns, apart from its coming. -/
private theorem told_in_turn {t : Turn} {n : Nat} {x : ServerEvent} (h : x ∈ (st.turn t).1)
    (own : x.worker? = some (.handling n)) (unheard : x.heard = false) :
    ∃ clock task phase st', t = .handle clock n ∧ st.server.handlings[n]? = some task ∧
      st.advance? clock task = some (phase, st') ∧ x ∈ st.handlingEvents n task := by
  have hserved : ∀ e, x ≠ .served e := by
    rintro e rfl
    cases unheard
  -- what other tasks tell is not of this request, unless they start it, and requests are not started
  have elsewhere : ∀ {L : ServerTrace} {client : String} {k : Nat} {subs : List Subscription},
      L.of (.handling n) = ServerTrace.of (begun client k subs) (.handling n) → x ∉ L := by
    intro L client k subs hof hx
    have hmem : x ∈ L.of (.handling n) := ServerTrace.mem_of.2 ⟨hx, own⟩
    rw [hof, ServerTrace.of_begun_handling] at hmem
    cases hmem
  cases t with
  | serve =>
    rcases List.mem_append.1 h with h | h
    · obtain ⟨e, rfl⟩ := st.served_of_mem_passAll _ h
      exact absurd rfl (hserved e)
    · obtain ⟨es, st', go, hx⟩ := of_mem_tryMove h
      obtain ⟨st₁, -, heq⟩ := Option.map_eq_some_iff.1 go
      obtain ⟨rfl, rfl⟩ := Prod.mk.injEq .. ▸ heq
      simp [st.passAll.2.heard_serveEvents x hx] at unheard
  | pass =>
    simp only [turn] at h
    split at h
    · exact absurd (List.mem_singleton.1 h) (hserved _)
    · cases h
  | depart =>
    obtain ⟨es, st', go, hx⟩ := of_mem_tryMove h
    obtain ⟨st₁, step, heq⟩ := Option.map_eq_some_iff.1 go
    obtain ⟨rfl, rfl⟩ := Prod.mk.injEq .. ▸ heq
    obtain ⟨watcher, client, t, -, -, hes, -⟩ := depart_eq step
    rw [hes] at hx
    obtain rfl := List.mem_singleton.1 hx
    cases unheard
  | handle clock m =>
    obtain ⟨task, phase, st₂, found, steps, hx⟩ := of_mem_handle h
    -- Only its own task can tell of it, and that has its turn here.
    by_cases hm : m = n
    · subst hm
      exact ⟨clock, task, phase, st₂, rfl, found, steps, hx⟩
    · obtain ⟨subs, -, hof⟩ := advance_tasks (n := m) steps
      exact absurd hx (elsewhere (hof _ (by simpa using Ne.symm hm)))
  | forward m =>
    obtain ⟨task, o, -, steps, hx⟩ := of_mem_forward h
    obtain ⟨subs, -, hof⟩ := pass_tasks (n := m) steps
    exact absurd hx (elsewhere (hof _ (by simp)))
  | withdraw id =>
    obtain rfl := List.mem_singleton.1 h
    cases own
  | _ => cases h

/-- What is told of a request when a schedule is carried out was told in one of its turns. -/
private theorem told_in_carry {ts : List Turn} {n : Nat} {x : ServerEvent} (h : x ∈ (st.carry ts).1)
    (own : x.worker? = some (.handling n)) (unheard : x.heard = false) :
    ∃ ts₁ clock ts₂, ts = ts₁ ++ .handle clock n :: ts₂ ∧
      ∃ task phase st', (st.carry ts₁).2.server.handlings[n]? = some task ∧
        (st.carry ts₁).2.advance? clock task = some (phase, st') ∧
          x ∈ (st.carry ts₁).2.handlingEvents n task := by
  induction ts generalizing st with
  | nil => cases h
  | cons t ts ih =>
    -- It was told in the first turn or in a later one.
    rcases List.mem_append.1 h with h | h
    · obtain ⟨clock, task, phase, st', rfl, found, steps, hx⟩ := told_in_turn h own unheard
      exact ⟨[], clock, ts, rfl, task, phase, st', found, steps, hx⟩
    · obtain ⟨ts₁, clock, ts₂, rfl, rest⟩ := ih h
      exact ⟨t :: ts₁, clock, ts₂, rfl, rest⟩

/-- When this request has its first turn, the server has these methods. -/
def FirstTurn (st₀ : Stage) (ts : List Turn) (n : Nat) (r : Request) (router : Router) : Prop :=
  ∃ ts₁ clock ts₂, ts = ts₁ ++ .handle clock n :: ts₂ ∧
    (st₀.carry ts₁).2.server.handlings[n]? = some
      { client := r.replyTo, id := r.id, method := r.method, phase := .received r.args } ∧
    (st₀.carry ts₁).2.server.router = router

/-- What the server has of a request is what came, and the story is that of the request. -/
private theorem Run.handling_of_requested (fresh : st₀.Fresh) (run : Run st₀ tr st)
    {later : ServerTrace}
    (after : Run st later st') {n : Nat} {r : Request} (requested : .requested n r ∈ tr ++ later)
    {task : Handling} (found : st.server.handlings[n]? = some task) :
    r.replyTo = task.client ∧ r.id = task.id ∧ r.method = task.method ∧
      Handling.Story n r (some task.phase) (tr.of (.handling n)) := by
  have told := (run.told fresh).handlings n
  rw [found] at told
  obtain ⟨q, hclient, hid, hmethod, story⟩ := told
  have hq : .requested n q ∈ tr ++ later :=
    List.mem_append_left _ (ServerTrace.mem_of.1 story.requested).1
  -- A task has one request, so the one in its story is the one that was asked.
  have hsame : (n, q) = (n, r) :=
    List.inj_on_of_nodup_map ((run.trans after).nodup_requests fresh)
      (ServerTrace.mem_requests.2 hq) (ServerTrace.mem_requests.2 requested) rfl
  obtain rfl := (Prod.mk.inj hsame).2
  exact ⟨hclient, hid, hmethod, story⟩

/-- A request that has not had a turn has what came in it. -/
private theorem FirstTurn.mk (fresh : st₀.Fresh) {ts₁ ts₂ : List Turn} {clock n : Nat} {r : Request}
    (requested : .requested n r ∈ (st₀.carry (ts₁ ++ .handle clock n :: ts₂)).1)
    {task : Handling} (found : (st₀.carry ts₁).2.server.handlings[n]? = some task)
    {args : List WireValue} (phase : task.phase = .received args) :
    FirstTurn st₀ (ts₁ ++ .handle clock n :: ts₂) n r (st₀.carry ts₁).2.server.router := by
  rw [carry_append] at requested
  obtain ⟨hclient, hid, hmethod, story⟩ := (st₀.carry_run ts₁).handling_of_requested fresh
    ((st₀.carry ts₁).2.carry_run _) requested found
  obtain ⟨client, id, method, p⟩ := task
  obtain rfl : p = _ := phase
  subst hclient hid hmethod
  generalize ServerTrace.of (st₀.carry ts₁).1 (.handling n) = L at story
  -- A handler that has done nothing but receive its request has a story of one event.
  cases story with
  | received => exact ⟨ts₁, clock, ts₂, rfl, found, rfl⟩

/-- A method is called when its request has its first turn. -/
private theorem first_of_invoked (fresh : st₀.Fresh) {ts : List Turn} {n : Nat} {r : Request}
    (requested : .requested n r ∈ (st₀.carry ts).1) {call : Invocation} {b : Behaviour}
    (invoked : .invoked n call b ∈ (st₀.carry ts).1) :
    ∃ router, FirstTurn st₀ ts n r router ∧ b = router.invoke call := by
  obtain ⟨ts₁, clock, ts₂, rfl, task, phase, st', found, steps, hx⟩ :=
    told_in_carry invoked rfl rfl
  have does := Handling.does n steps
  generalize (st₀.carry ts₁).2.handlingEvents n task = es at does hx
  refine ⟨_, ?_, of_invoked_handling does hx⟩
  -- Only the first step of a handler invokes anything.
  cases does with
  | call phase good => exact .mk fresh requested found phase
  | reply phase does => exact absurd hx (invoked_notMem_of_reply does)
  | finish phase does => exact absurd hx (invoked_notMem_of_reply does)
  | _ => simp at hx

/-- A request with streams in its arguments is turned down in its first turn. -/
private theorem first_of_rejected (fresh : st₀.Fresh) {ts : List Turn} {n : Nat} {r : Request}
    (requested : .requested n r ∈ (st₀.carry ts).1) {f : Failure}
    (bad : plainArgs r.args = .error f) {result : Except Failure DraftValue}
    {made : Except Failure ServerValue} (answered : .answered n result made ∈ (st₀.carry ts).1) :
    ∃ router, FirstTurn st₀ ts n r router := by
  obtain ⟨ts₁, clock, ts₂, rfl, task, phase, st', found, steps, hx⟩ :=
    told_in_carry answered rfl rfl
  have does := Handling.does n steps
  -- A reply on its way answers nothing anew.
  have hreply : ∀ {reply : Reply} {es : ServerTrace} {next : Reply ⊕ Except CallError Unit},
      reply.Does (.handling n) task.client task.id (st₀.carry ts₁).2 es next st' →
        .answered n result made ∉ es := by
    intro reply es next does hmem
    cases does with
    | start subs =>
      obtain h | ⟨_, _, _, _, h⟩ := ServerTrace.mem_started hmem <;> cases h
    | _ => simp at hmem
  generalize (st₀.carry ts₁).2.handlingEvents n task = es at does hx
  cases does with
  | reject phase bad' => exact ⟨_, .mk fresh requested found phase⟩
  | answer phase =>
    rw [carry_append] at requested
    obtain ⟨-, -, -, story⟩ := (st₀.carry_run ts₁).handling_of_requested fresh
      ((st₀.carry ts₁).2.carry_run _) requested found
    -- a method that has ended was called, with arguments that are all right
    rw [phase] at story
    generalize ServerTrace.of (st₀.carry ts₁).1 (.handling n) = L at story
    cases story with
    | running good => simp [bad] at good
  | reply phase does => exact absurd hx (hreply does)
  | finish phase does => exact absurd hx (hreply does)
  | _ => simp at hx

/-! ## What tasks send -/

/-- Whatever a task sends is the one answer to its request, and settles it with the methods that the
    server has when the request has its first turn. -/
theorem carry_settles (fresh : st₀.Fresh) (ts : List Turn) {n : Nat} {client : String}
    {e : Envelope} (sent : (client, e) ∈ (st₀.carry ts).1.attempts n) :
    ∃ r wire, .requested n r ∈ (st₀.carry ts).1 ∧ client = r.replyTo ∧
      e.serverMessage? = some (.reply r.id wire) ∧ ∃ router, FirstTurn st₀ ts n r router ∧
        Settles (st₀.carry ts).1 n r router wire := by
  have told := (st₀.carry_run ts).told fresh
  obtain ⟨accepted, hsent⟩ := ServerTrace.mem_attempts.1 sent
  have hof : .sent (.handling n) client e accepted ∈ (st₀.carry ts).1.of (.handling n) :=
    ServerTrace.mem_of.2 ⟨hsent, rfl⟩
  obtain ⟨r, story⟩ := told.handling hof
  obtain ⟨L, subs, more, written, rfl, hL, hmore⟩ := story.of_sent hof
  have hsub : ∀ x ∈ L, x ∈ (st₀.carry ts).1 := fun x hx =>
    mem_of_mem_of (w := .handling n) (hL ▸ List.mem_append_left _ hx)
  have requested := hsub _ written.requested
  -- the arguments decide whether anything was called
  cases hargs : plainArgs r.args with
  | error f =>
    have huncalled := story.uncalled hargs
    rw [ServerTrace.invocations_of] at huncalled
    obtain ⟨hreply, hanswered⟩ := written.rejected hargs
    obtain ⟨router, first⟩ := first_of_rejected fresh requested hargs (hsub _ hanswered)
    obtain ⟨id, rest, hslots, rfl⟩ := plainArgs_of_error hargs
    exact ⟨r, _, requested, rfl, hreply, router, first, .rejected hslots huncalled⟩
  | ok args =>
    obtain ⟨b, ending, made, wire, called, hreply, delivers⟩ := written.called hargs
    -- The call is in the story before the message, and nothing is called after it.
    have hcalled : (st₀.carry ts).1.invocations n =
        [({ client := r.replyTo, method := r.method, args }, b)] := by
      rw [← ServerTrace.invocations_of, hL, ServerTrace.invocations_append, hmore,
        List.append_nil, called.once]
    obtain ⟨router, first, rfl⟩ := first_of_invoked fresh requested
      (ServerTrace.mem_invocations.1 (hcalled ▸ List.mem_cons_self))
    exact ⟨r, wire, requested, rfl, hreply, router, first,
      .of_called (plainArgs_of_ok hargs).2 hcalled called.ends (delivers.mono hsub)⟩

/-- A request with streams in its arguments calls nothing. -/
theorem Run.uncalled (fresh : st₀.Fresh) (run : Run st₀ tr st) {n : Nat} {r : Request}
    (requested : .requested n r ∈ tr) {id : StreamId} {rest : List StreamId}
    (first : r.args.flatMap Value.slots = id :: rest) : tr.invocations n = [] := by
  have story := run.story_of_requested fresh requested
  -- Plain arguments have no slots, so these were refused before the method was called.
  cases hargs : plainArgs r.args with
  | ok args =>
    rw [(plainArgs_of_ok hargs).1] at first
    cases first
  | error f =>
    rw [← ServerTrace.invocations_of]
    exact story.uncalled hargs

/-- In its first turn a request is settled, if there is something wrong with it, and else handed to
    its method. -/
theorem turn_received {n : Nat} {h : Handling} {args : List WireValue}
    (found : st.server.handlings[n]? = some h) (phase : h.phase = .received args) (clock : Nat) :
    ∃ p, (st.turn (.handle clock n)).2.server.handlings[n]? = some { h with phase := p } ∧
      (p.Ended ∨ ∃ handler plain, st.server.router.handlers[h.method]? = some handler ∧
        args = plain.map Value.widen ∧
          p = .running (handler { client := h.client, method := h.method, args := plain })) := by
  cases hargs : plainArgs args with
  | error f =>
    -- Bad arguments are answered at once.
    have steps : st.advance? clock h = some (some (.replying (.answered (.error f))), st) := by
      simp only [advance?, phase, hargs]
    refine ⟨_, ?_, .inl (.replying (.answered (.error f)))⟩
    rw [turn_handle found steps, handlings_putHandling, if_pos rfl]
    rfl
  | ok plain =>
    have steps : st.advance? clock h = some (some (.running (st.server.router.invoke
        { client := h.client, method := h.method, args := plain })), st) := by
      simp only [advance?, phase, hargs]
    have hleft : (st.turn (.handle clock n)).2.server.handlings[n]? = some { h with
        phase := .running (st.server.router.invoke
          { client := h.client, method := h.method, args := plain }) } := by
      rw [turn_handle found steps, handlings_putHandling, if_pos rfl]
      rfl
    refine ⟨_, hleft, ?_⟩
    -- A method that is not there has ended already.
    unfold Router.invoke
    cases hhandler : st.server.router.handlers[h.method]? with
    | none => exact .inl (.ended _)
    | some handler =>
      exact .inr ⟨handler, plain, rfl, (plainArgs_of_ok hargs).2, rfl⟩

end Stage

end StreamRpc
