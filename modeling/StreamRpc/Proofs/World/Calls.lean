import StreamRpc.Proofs.Server.Requests
import StreamRpc.Proofs.World.Numbers

/-! # Calls get their own answers

A call that was answered got what its own method came to: the server gave the request to one task,
which called the method once with the arguments of the call, and the answer of this task is the only
thing that the call got.  The request is told by the number of the call, which no other call of the
client has, be it equal in everything else.

* `World.RunOffering`               runs of a server with methods of some kind
* `World.RunOffering.of_invoked`    what was called was a method of the server
* `World.Run.nodup_requests`        no two requests have one sender and one number
* `calls_get_their_answers`         where the outcome of a call comes from
-/

namespace StreamRpc

open Network

/-- What the server answered, if the outcome of a call says so. -/
def CallOutcome.answer? : CallOutcome → Option (Except Failure ClientValue)
  | value v => some (.ok v)
  | stream h => some (.ok (.stream h))
  | error (.remote f) => some (.error f)
  | error _ => none

/-- An error of one's own is no answer of the server. -/
private theorem CallOutcome.unanswered {err : CallError} (own : err.isRemote = false) :
    (error err).answer? = none := by
  cases err with
  | remote f => cases own
  | _ => rfl

/-- A call as its method sees it. -/
def Calling.invocation (call : Calling) (c : Client) : Invocation :=
  { client := c.address, method := call.method, args := call.args }

namespace World

variable {config : ServerConfig} {offered : Router → Prop} {w₀ w w' : World} {tr es : WorldTrace}
  {s : Server} {i : Nat} {c : Client}

/-! ## The methods of the server -/

/-- A run in which the server has such methods only. -/
inductive RunOffering (config : ServerConfig) (offered : Router → Prop) (w₀ : World) :
    WorldTrace → World → Prop where
  | start {router : Router} {n : Nat} (up : ({} : World).launch router config = (.ok n, w₀))
      (good : offered router) : RunOffering config offered w₀ [] w₀
  | step {tr es : WorldTrace} {w w' : World} (run : RunOffering config offered w₀ tr w)
      (next : Step config tr w es w') (good : ∀ s ∈ w'.servers, offered s.router) :
      RunOffering config offered w₀ (tr ++ es) w'

/-- A run with known offers is a run. -/
private theorem RunOffering.run (h : RunOffering config offered w₀ tr w) : Run config w₀ tr w := by
  induction h with
  | start up good => exact .start up
  | step _ next _ ih => exact ih.step next

/-- A server that is launched has the router it was given. -/
private theorem router_of_launch {router : Router} {t t' : Transport}
    (h : Server.launch router config t = (.ok s, t')) : s.router = router := by
  unfold Server.launch at h
  split at h
  · simp at h
  split at h
  · simp at h
  split at h
  · simp at h
  obtain ⟨hs, -⟩ := Prod.mk.injEq .. ▸ h
  exact Except.ok.inj hs ▸ rfl

/-- In a run with known offers every server's router is one of them. -/
private theorem RunOffering.router (h : RunOffering config offered w₀ tr w) :
    ∀ s ∈ w.servers, offered s.router := by
  cases h with
  | start up good =>
    obtain ⟨s₀, t', hl, -, rfl⟩ := launch_alone up
    intro s hs
    obtain rfl := List.mem_singleton.1 hs
    rwa [router_of_launch hl]
  | step _ _ good => exact good

/-- What was called was a method that the server had. -/
theorem RunOffering.of_invoked (h : RunOffering config offered w₀ tr w) {n : Nat}
    {call : Invocation} {b : Behaviour} (hmem : .invoked n call b ∈ tr.server) :
    ∃ router, offered router ∧ b = router.invoke call := by
  induction h with
  | start up good => cases hmem
  | step run next _ ih =>
    rw [WorldTrace.server_append, List.mem_append] at hmem
    rcases hmem with hmem | hmem
    · exact ih hmem
    -- The call was made in this step, by the server as it was before.
    · obtain ⟨s, alone, -⟩ := run.run.server
      obtain ⟨s', -, sstep⟩ := next.server alone
      exact ⟨s.router, run.router s (alone.one ▸ List.mem_singleton_self s),
        sstep.of_invoked hmem⟩

/-- Unless methods are changed, the server has the same after a step. -/
private theorem Acts.routers {es : ServerTrace} (alone : w.Alone s) (acts : w.Acts s es w') :
    w'.servers.map (·.router) = [s.router] := by
  have hset : ∀ st : Stage, st.server.router = s.router →
      (w.setStage 0 st).servers.map (·.router) = [s.router] := by
    intro st h
    simp [World.setStage, alone.one, h]
  -- Each kind of step writes the server back with its ports as they were.
  cases acts with
  | apart servers sources retiring =>
    rw [servers, alone.one]
    rfl
  | serve go =>
    obtain ⟨inbox, -, ⟨e, t, -, -, rfl⟩ | ⟨t, -, -, rfl⟩⟩ := Stage.serve_eq go
    · exact hset _ (accept_fields _ e).2.router
    · exact hset _ rfl
  | depart go =>
    obtain ⟨watcher, client, t, -, -, -, rfl⟩ := Stage.depart_eq go
    exact hset _ rfl
  | @handle st clock n h found go =>
    obtain ⟨phase, st₁, hadvance, rfl⟩ := Stage.handle_eq found go
    exact hset _ (Stage.advance_talks (n := n) hadvance).ports.router
  | @forward st n f retires found go =>
    obtain ⟨o, hgo, -, rfl⟩ := Stage.forward_eq found go
    exact hset _ (Stage.pass_talks (n := n) hgo).ports.router
  -- Feeding a channel goes past the server.
  | feed feeds =>
    rw [alone.one]
    rfl

/-- A move leaves the methods of the server as they are. -/
private theorem Alone.routers_of_move (alone : w.Alone s) {m : Move}
    (h : w.move? config tr m = some (es, w')) : w'.servers.map (·.router) = [s.router] := by
  have hsame : ∀ {w' : World}, w'.servers = w.servers → w'.servers.map (·.router) = [s.router] := by
    intro w' h
    rw [h, alone.one]
    rfl
  -- Only tasks get at the server; the other moves are those of the program around it.
  cases m with
  | task t =>
    obtain ⟨_, go, heq⟩ := Option.map_eq_some_iff.1 h
    obtain ⟨rfl, rfl⟩ := Prod.mk.injEq .. ▸ heq
    exact (alone.acts go).routers alone
  | connect settings token =>
    simp only [move?] at h
    split at h
    · split at h
      · next go =>
        obtain ⟨rfl, rfl⟩ := Prod.mk.injEq .. ▸ Option.some.inj h
        obtain ⟨c, t', -, rfl⟩ := connect_eq go
        exact hsame rfl
      · cases h
    · cases h
  | submit i method args =>
    obtain ⟨c, found, heq⟩ := Option.map_eq_some_iff.1 h
    obtain ⟨rfl, rfl⟩ := Prod.mk.injEq .. ▸ heq
    obtain ⟨calls, hw⟩ := w.submit_eq i c method args
    rw [hw]
    exact hsame rfl
  | close i =>
    obtain ⟨c, found, heq⟩ := Option.map_eq_some_iff.1 h
    obtain ⟨rfl, rfl⟩ := Prod.mk.injEq .. ▸ heq
    exact hsame rfl
  | dropClient i =>
    obtain ⟨c, found, heq⟩ := Option.map_eq_some_iff.1 h
    obtain ⟨rfl, rfl⟩ := Prod.mk.injEq .. ▸ heq
    exact hsame rfl
  -- A read that is not possible is no move.
  | read i g =>
    simp only [move?] at h
    split at h
    · obtain ⟨rfl, rfl⟩ := Prod.mk.injEq .. ▸ Option.some.inj h
      obtain hw | ⟨c, k, -, hw⟩ := w.readHandle_eq i g none
      all_goals
        rw [hw]
        exact hsame rfl
    · cases h
  | dropHandle i g =>
    simp only [move?] at h
    split at h
    · obtain ⟨rfl, rfl⟩ := Prod.mk.injEq .. ▸ Option.some.inj h
      obtain hw | ⟨c, -, hw⟩ := w.dropHandle_eq i g
      all_goals
        rw [hw]
        exact hsame rfl
    · cases h
  | publish p v =>
    obtain ⟨rfl, rfl⟩ := Prod.mk.injEq .. ▸ Option.some.inj h
    exact hsame rfl
  | complete p =>
    obtain ⟨rfl, rfl⟩ := Prod.mk.injEq .. ▸ Option.some.inj h
    exact hsame rfl

/-- What is carried out is a run with the methods that there were at the start. -/
private theorem play_offering (run : RunOffering config offered w₀ tr w) (ms : List Move) :
    RunOffering config offered w₀ (w.play config tr ms).1 (w.play config tr ms).2 := by
  -- By the moves, from the first: each that can be made is a step that keeps the methods.
  induction ms generalizing tr w with
  | nil => exact run
  | cons m ms ih =>
    unfold play
    split
    · exact run
    · next h =>
      obtain ⟨s, alone, -⟩ := run.run.server
      refine ih (run.step (move_step h) fun s' hs' => ?_)
      have hmem := List.mem_map_of_mem (f := (·.router)) hs'
      rw [alone.routers_of_move h] at hmem
      rw [List.mem_singleton.1 hmem]
      exact run.router s (alone.one ▸ List.mem_singleton_self s)

/-! ## Requests -/

/-- What crosses the transport to the server is what the clients posted. -/
private theorem posted_eq (tr : WorldTrace) : Transit.allPosted tr.transits = tr.posted := by
  rw [Transit.allPosted, WorldTrace.transits, List.filterMap_filterMap, WorldTrace.posted]
  congr 1
  funext x
  cases x with
  | server x => cases x <;> rfl
  | client j x =>
    cases x with
    | told ids e accepted => cases accepted <;> rfl
    | _ => rfl

/-- What the server took in is what crosses the transport to it. -/
private theorem intake_eq (tr : WorldTrace) : tr.server.intake = Transit.allServed tr.transits := by
  rw [ServerTrace.intake, WorldTrace.server, List.filterMap_filterMap, Transit.allServed,
    WorldTrace.transits, List.filterMap_filterMap]
  congr 1
  funext x
  cases x with
  | server x => cases x <;> rfl
  | client j x => cases x <;> rfl

/-- The session of a client of which something is told. -/
private theorem Run.client_of_mem (run : Run config w₀ tr w) {x : ClientEvent}
    (hx : .client i x ∈ tr) : ∃ c, w.clients[i]? = some c := by
  have hi : i < w.clients.length := by
    refine Nat.lt_of_not_le fun hle => ?_
    have hmem := mem_client.2 hx
    rw [run.clients.2 i hle] at hmem
    cases hmem
  exact ⟨_, List.getElem?_eq_getElem hi⟩

/-- In a run every request means what was asked. -/
private theorem Run.means (run : Run config w₀ tr w) (found : w.clients[i]? = some c)
    {x : ClientEvent}
    (hx : x ∈ tr.client i) : Client.Means c.correlator x := by
  obtain ⟨c₀, _, _, _, _, -, up, crun⟩ := run.clients.1 i c found
  exact crun.means (Client.fresh_of_connect up) x hx

/-- The request that a client makes for a call. -/
def callRequest (c : Client) (id : CallId) (method : String) (args : List PlainValue) : Request :=
  { replyTo := c.address, id, method, args := args.map Value.widen }

/-- What a client posts for a call reads back as that call's request. -/
private theorem Run.request_of_asked (run : Run config w₀ tr w) (found : w.clients[i]? = some c)
    {id : CallId} {method : String} {args : List PlainValue} {e : Envelope}
    (h : .asked id method args e ∈ tr.client i) :
    ClientMessage.ofEnvelope e = .ok (.request (callRequest c id method args)) :=
  ClientMessage.ofEnvelope_toEnvelope (run.means found h)

/-- A request that was put on the server's queue is that of a call. -/
private theorem Run.asked_of_posted (run : Run config w₀ tr w) {x : WorldEvent} (hx : x ∈ tr)
    {e : Envelope} (hposted : x.posted? = some e) {r : Request} (hr : e.request? = some r) :
    ∃ i c id method args, x = .client i (.asked id method args e) ∧
      w.clients[i]? = some c ∧ r = callRequest c id method args := by
  cases x with
  | server x => cases hposted
  | client i x =>
    obtain ⟨c, found⟩ := run.client_of_mem hx
    have hmem := mem_client.2 hx
    cases x with
    | asked id method args e' =>
      obtain rfl := Option.some.inj hposted
      rw [Envelope.request_of (run.request_of_asked found hmem)] at hr
      exact ⟨i, c, id, method, args, rfl, found, (Option.some.inj hr).symm⟩
    -- The other message a client posts is a notice of closed streams, and that is no request.
    | told ids e' accepted =>
      cases accepted with
      | false => cases hposted
      | true =>
        obtain rfl := Option.some.inj hposted
        have hclosed := ClientMessage.ofEnvelope_toEnvelope (run.means found hmem)
        rw [Envelope.request?, hclosed] at hr
        cases hr
    | _ => cases hposted

/-- No two requests have one sender and one number, as long as there are enough numbers. -/
theorem Run.nodup_requests (run : Run config w₀ tr w)
    (few : ∀ c ∈ w.clients, c.correlator.numbered ≤ 2 ^ 64) :
    ((tr.posted.filterMap Envelope.request?).map Request.key).Nodup := by
  obtain ⟨s, order⟩ := run.inOrder
  rw [List.map_filterMap, WorldTrace.posted, List.filterMap_filterMap, List.Nodup,
    List.pairwise_filterMap, List.pairwise_iff_forall_sublist]
  intro x y hxy k hk k' hk' heq
  -- A request in the queue was asked for by a client, under that client's address.
  have hkey : ∀ z ∈ [x, y], ∀ k, ((z.posted?).bind fun e => e.request?.map Request.key) = some k →
      ∃ i c id method args e, z = .client i (.asked id method args e) ∧
        w.clients[i]? = some c ∧ k = (c.address, id) := by
    intro z hz k hk
    obtain ⟨e, he, hk⟩ := Option.bind_eq_some_iff.1 hk
    obtain ⟨r, hr, rfl⟩ := Option.map_eq_some_iff.1 hk
    obtain ⟨i, c, id, method, args, rfl, found, rfl⟩ :=
      run.asked_of_posted (hxy.subset hz) he hr
    exact ⟨i, c, id, method, args, e, rfl, found, rfl⟩
  obtain ⟨i, c, id, method, args, e, rfl, found, rfl⟩ := hkey x (by simp) k hk
  obtain ⟨j, c', id', method', args', e', rfl, found', rfl⟩ := hkey y (by simp) k' hk'
  obtain ⟨haddress, rfl⟩ := Prod.mk.injEq .. ▸ heq
  obtain rfl := order.wired.index (link_at found) (link_at found') haddress
  -- Both are calls of one client, which numbers them apart.
  have hsub : List.Sublist [ClientEvent.asked id method args e, .asked id method' args' e']
      (tr.client i) := by
    have := hxy.filterMap (WorldEvent.client? i)
    simp only [List.filterMap_cons, WorldEvent.client?, if_true, List.filterMap_nil] at this
    exact this
  obtain ⟨c₀, _, _, _, _, -, up, crun⟩ := run.clients.1 i c found
  have hnodup := (hsub.flatMap ClientEvent.asks).nodup
    (crun.nodup_asks (Client.fresh_of_connect up) (few c (List.mem_of_getElem? found)))
  simp [ClientEvent.asks] at hnodup

/-- No two requests that tasks were given have one sender and one number. -/
private theorem Run.nodup_asked (run : Run config w₀ tr w)
    (few : ∀ c ∈ w.clients, c.correlator.numbered ≤ 2 ^ 64) :
    (tr.server.asked.map Request.key).Nodup := by
  obtain ⟨s, order⟩ := run.inOrder
  obtain ⟨-, st₀, fresh, srun⟩ := run.stage order.alone.one
  have hposted := run.nodup_requests few
  rw [← posted_eq, order.ledger.posted, List.filterMap_append, List.map_append] at hposted
  rw [srun.asked, intake_eq]
  exact hposted.of_append_left

/-! ## Whose answer a call gets -/

/-- One task of the server dealt with a call, and the call got the answer of this task. -/
structure Served (tr : WorldTrace) (c : Client) (call : Calling) (id : CallId) (n : Nat)
    (router : Router) (ending : Ending) (result : Except Failure ClientValue) : Prop where
  asked : ∃ e, .asked id call.method call.args e ∈ tr.client call.client
  /-- Nothing else was taken for this call. -/
  once : (tr.client call.client).outcomes id = [result.mapError .remote]
  /-- No other task was given its request. -/
  task : tr.server.tasksFor c.address id = [n]
  /-- The method was called once, and nothing else was. -/
  called : tr.server.invocations n = [(call.invocation c, router.invoke (call.invocation c))]
  ends : (router.invoke (call.invocation c)).ending? = some ending
  method : ∀ v, result = .ok v → ∃ f, router.handlers[call.method]? = some f
  delivers : Delivers tr.server c.address n (ending.result call.method)
    (result.map (Value.map Handle.id))
  handles : ∀ v, result = .ok v → ∀ h ∈ v.slots, (tr.client call.client).Given h

/-- The outcome of a call that says what the server answered is the answer itself. -/
private theorem outcome_of_answer {call : Calling} {r : Except CallError ClientValue}
    {result : Except Failure ClientValue} (h : (call.outcomeOf r).1.answer? = some result) :
    r = result.mapError .remote := by
  -- A call that expects a stream counts any other value as a failure of its own.
  cases r with
  | error e =>
    cases e <;> cases h
    rfl
  | ok v =>
    unfold Calling.outcomeOf at h
    dsimp only at h
    split at h
    · split at h
      · next g hv =>
        obtain rfl : v = .stream g := by
          cases v <;> cases hv
          rfl
        cases h
        rfl
      · cases h
    · cases h
      rfl

/-- An outcome that says what the server answered comes from a message that says so. -/
private theorem message_of_answers {tr : ClientTrace} {id : CallId}
    {result : Except Failure ClientValue}
    (h : tr.Answers id (result.mapError .remote)) :
    .reply id (result.map (Value.map Handle.id)) ∈ tr.messages ∧
      ∀ v, result = .ok v → ∀ g ∈ v.slots, tr.Given g := by
  cases result with
  | ok v => exact ⟨h.1, fun u hu => Except.ok.inj hu ▸ h.2⟩
  | error f => exact ⟨h, fun u hu => by cases hu⟩

/-- Only a method of the server gives a value. -/
private theorem method_of_value {router : Router} {call : Invocation} {ending : Ending}
    (ends : (router.invoke call).ending? = some ending) {draft : DraftValue}
    (value : ending.result call.method = .ok draft) :
    ∃ f, router.handlers[call.method]? = some f := by
  rw [Ending.result_returned] at value
  subst value
  unfold Router.invoke at ends
  split at ends
  · next f hf => exact ⟨f, hf⟩
  · cases ends

/-- The request that a task was given under the number of a call is that of the call. -/
private theorem Run.request_of_call (run : Run config w₀ tr w)
    (few : ∀ c ∈ w.clients, c.correlator.numbered ≤ 2 ^ 64) (found : w.clients[i]? = some c)
    {id : CallId} {method : String} {args : List PlainValue} {e : Envelope}
    (asked : .asked id method args e ∈ tr.client i) {n : Nat} {r : Request}
    (requested : .requested n r ∈ tr.server) (client : r.replyTo = c.address) (hid : r.id = id) :
    r = callRequest c id method args := by
  obtain ⟨s, order⟩ := run.inOrder
  obtain ⟨-, st₀, fresh, srun⟩ := run.stage order.alone.one
  obtain ⟨e', hserved, he'⟩ := srun.of_requested requested
  obtain ⟨j, c', found', ⟨id', method', args', asked', hw⟩ | ⟨ids, -, hw⟩⟩ :=
    run.of_served order.ledger hserved
  · rw [ClientMessage.ofEnvelope_toEnvelope hw] at he'
    obtain rfl := ClientMessage.request.inj (Except.ok.inj he')
    have haddress : c'.address = c.address := client
    -- Addresses tell clients apart, so it was this client that asked.
    obtain rfl := order.wired.index (link_at found') (link_at found) haddress
    rw [found] at found'
    obtain rfl := Option.some.inj found'
    obtain rfl : id' = id := hid
    obtain ⟨c₀, _, _, _, _, -, up, crun⟩ := run.clients.1 j c found
    -- A client numbers its calls apart, so it asked this once.
    have hnodup := crun.nodup_asks (Client.fresh_of_connect up) (few c (List.mem_of_getElem? found))
    have heq := ServerTrace.eq_of_mem_flatMap hnodup asked asked' (List.mem_singleton_self _)
      (List.mem_singleton_self _)
    obtain ⟨-, rfl, rfl, -⟩ := ClientEvent.asked.inj heq
    rfl
  · rw [ClientMessage.ofEnvelope_toEnvelope hw] at he'
    cases Except.ok.inj he'

/-- Every call that ended with something that the server said got it under its own number, which no
    other call of the client has, from the one task that was given its request: the task called the
    method of this name once, with the address of the client and the arguments of the call, and the
    call got what this came to, with handles for the streams in it. -/
theorem calls_get_their_answers (run : RunOffering config offered w₀ tr w)
    (few : ∀ c ∈ w.clients, c.correlator.numbered ≤ 2 ^ 64) {k : Nat} {call : Calling}
    (hcall : w.calls[k]? = some call) {id? : Option CallId} {o : CallOutcome}
    (ended : call.phase = .ended id? o) {result : Except Failure ClientValue}
    (answer : o.answer? = some result) :
    ∃ c id n router ending, id? = some id ∧ w.clients[call.client]? = some c ∧ offered router ∧
      Served tr c call id n router ending result ∧
      ∀ k' other, w.calls[k']? = some other → other.client = call.client →
        other.phase.id? = some id → k' = k := by
  -- From the call to what its client took.
  have told := run.run.calls_told call (List.mem_of_getElem? hcall)
  rw [ended] at told
  cases told with
  | refused own =>
    rw [CallOutcome.unanswered own] at answer
    cases answer
  | late => cases answer
  | @ended id e r asked collected =>
    obtain rfl := outcome_of_answer answer
    obtain ⟨c, found⟩ := run.run.client_of_mem (mem_client.1 collected)
    obtain ⟨s, order⟩ := run.run.inOrder
    obtain ⟨-, st₀, fresh, srun⟩ := run.run.stage order.alone.one
    obtain ⟨c₀, _, _, _, _, -, up, crun⟩ := run.run.clients.1 _ c found
    have cfresh := Client.fresh_of_connect up
    have cfew := few c (List.mem_of_getElem? found)
    obtain ⟨hmessage, hgiven⟩ := message_of_answers (crun.collected cfresh collected)
    obtain ⟨e', htook, he'⟩ := took_of_message hmessage
  -- From the client to the server: what was taken was sent, and by the task that was given a
    -- request with this number.
    obtain ⟨v, hsent⟩ := order.of_took found htook
    obtain ⟨n, r, rfl, requested, client, hid, hserved⟩ := srun.of_reply fresh hsent he'
    -- That request is the one of this call.
    obtain rfl := run.run.request_of_call few found asked requested client hid
    obtain ⟨b, ending, called, ends, delivers⟩ := hserved call.args (plainArgs_widen call.args)
    -- From the task to the method.
    have hinvoked : .invoked n (call.invocation c) b ∈ tr.server :=
      ServerTrace.mem_invocations.1 (called ▸ List.mem_singleton_self _)
    obtain ⟨router, good, rfl⟩ := run.of_invoked hinvoked
    refine ⟨c, id, n, router, ending, rfl, found, good, ⟨⟨e, asked⟩, ?_, ?_, called, ends, ?_, delivers,
      hgiven⟩, fun k' other hother mine number => ?_⟩
    · exact crun.outcomes_eq cfresh cfew collected
    · exact ServerTrace.tasksFor_eq (run.run.nodup_asked few) requested
    · rintro u rfl
      obtain ⟨draft, hdraft⟩ := delivers.value_of_ok
      exact method_of_value ends hdraft
    · -- The client numbers its calls apart.
      have number₀ : call.phase.id? = some id := by rw [ended]; rfl
      exact run.run.numbers_apart (crun.nodup_asks cfresh cfew) k' k other call id hother hcall mine
        rfl number number₀

/-! ## A run with equal calls -/

namespace Overlap

def refusal : Failure :=
  { kind := .application, message := "not today" }

/-- A method that answers with a channel, and one that refuses. -/
def router : Router :=
  .ofList [("open", fun _ => .ends (.returned (.stream .channel))),
    ("refuse", fun _ => .ends (.raised { cause := .failure refusal }))]

/-- One client makes two equal calls, and another one a third, under the number of the first.  The
    second is answered first, and the first last. -/
def moves : List Move :=
  [.connect { name := "a" } 0, .connect { name := "b" } 1, .submit 0 "open" [.u64 7],
    .submit 0 "open" [.u64 7], .submit 1 "refuse" [], .task (.serve 0), .task (.serve 0),
    .task (.serve 0)] ++
    .replicate 6 (.task (.handle 0 1)) ++ [.task (.pump 0), .task (.pump 0), .task (.call 1)] ++
      .replicate 6 (.task (.handle 0 2)) ++ [.task (.pump 1), .task (.pump 1), .task (.call 2)] ++
        .replicate 6 (.task (.handle 0 0)) ++ [.task (.pump 0), .task (.pump 0), .task (.call 0)]

def played : WorldTrace × World :=
  (World.launched router).play {} [] moves

def call (n : Nat) : Calling :=
  played.2.calls[n]?.getD default

/-- The number that a call had, and the stream or the failure that it ended with. -/
def result? : CallPhase → Option (Option CallId × (Handle ⊕ Failure))
  | .ended id? (.value (.stream h)) => some (id?, .inl h)
  | .ended id? (.error (.remote f)) => some (id?, .inr f)
  | _ => none

/-- A result that is a stream ended the call with that stream. -/
private theorem phase_of_stream {p : CallPhase} {id? : Option CallId} {h : Handle}
    (hp : result? p = some (id?, .inl h)) : p = .ended id? (.value (.stream h)) := by
  unfold result? at hp
  split at hp <;> simp at hp
  rw [hp.1, hp.2]

/-- A result that is a failure ended the call with that failure. -/
private theorem phase_of_failure {p : CallPhase} {id? : Option CallId} {f : Failure}
    (hp : result? p = some (id?, .inr f)) : p = .ended id? (.error (.remote f)) := by
  unfold result? at hp
  split at hp <;> simp at hp
  rw [hp.1, hp.2]

/-- The plays make a run in which every router is the echoing one. -/
private theorem run : RunOffering {} (· = router) (World.launched router) played.1 played.2 := by
  have start : RunOffering {} (· = router) (World.launched router) [] (World.launched router) :=
    .start (launch_launched router) rfl
  exact play_offering start moves

/-- What the calls ended with, and how many calls were numbered. -/
private theorem ended :
    (∀ c ∈ played.2.clients, c.correlator.numbered ≤ 2 ^ 64) ∧ 2 < played.2.calls.length ∧
      (call 0).client = (call 1).client ∧ (call 0).method = (call 1).method ∧
      result? (call 0).phase = some (some ⟨0⟩, .inl ⟨1, ⟨1⟩⟩) ∧
      result? (call 1).phase = some (some ⟨1⟩, .inl ⟨0, ⟨0⟩⟩) ∧
      result? (call 2).phase = some (some ⟨0⟩, .inr refusal) := by
  decide +kernel

/-- The calls the run ends with. -/
private theorem call_eq {n : Nat} (h : n < played.2.calls.length) :
    played.2.calls[n]? = some (call n) := by
  rw [call, List.getElem?_eq_getElem h, Option.getD_some]

end Overlap

/-- Of two equal calls each got the channel that was made for its own request, and the third its
    refusal. -/
theorem calls_get_their_answers_overlap :
    (Overlap.call 0).client = (Overlap.call 1).client ∧
    (Overlap.call 0).method = (Overlap.call 1).method ∧
    (∃ c n router ending, Overlap.played.2.clients[(Overlap.call 0).client]? = some c ∧
      router = Overlap.router ∧ Served Overlap.played.1 c (Overlap.call 0) ⟨0⟩ n router ending
        (.ok (.stream ⟨1, ⟨1⟩⟩))) ∧
    (∃ c n router ending, Overlap.played.2.clients[(Overlap.call 1).client]? = some c ∧
      router = Overlap.router ∧ Served Overlap.played.1 c (Overlap.call 1) ⟨1⟩ n router ending
        (.ok (.stream ⟨0, ⟨0⟩⟩))) ∧
    ∃ c n router ending, Overlap.played.2.clients[(Overlap.call 2).client]? = some c ∧
      router = Overlap.router ∧ Served Overlap.played.1 c (Overlap.call 2) ⟨0⟩ n router ending
        (.error Overlap.refusal) := by
  -- The first two calls are equal but for their numbers, and are answered in the other order.
  obtain ⟨few, three, client, method, first, second, third⟩ := Overlap.ended
  obtain ⟨c, id, n, router, ending, hid, found, good, served, -⟩ := calls_get_their_answers
    Overlap.run few (Overlap.call_eq (n := 0) (by omega)) (Overlap.phase_of_stream first) rfl
  obtain ⟨c₁, id₁, n₁, router₁, ending₁, hid₁, found₁, good₁, served₁, -⟩ := calls_get_their_answers
    Overlap.run few (Overlap.call_eq (n := 1) (by omega)) (Overlap.phase_of_stream second) rfl
  obtain ⟨c₂, id₂, n₂, router₂, ending₂, hid₂, found₂, good₂, served₂, -⟩ := calls_get_their_answers
    Overlap.run few (Overlap.call_eq (n := 2) (by omega)) (Overlap.phase_of_failure third) rfl
  -- The call remembers the number that submitting it returned.
  obtain rfl := Option.some.inj hid
  obtain rfl := Option.some.inj hid₁
  obtain rfl := Option.some.inj hid₂
  exact ⟨client, method, ⟨c, n, router, ending, found, good, served⟩,
    ⟨c₁, n₁, router₁, ending₁, found₁, good₁, served₁⟩,
    ⟨c₂, n₂, router₂, ending₂, found₂, good₂, served₂⟩⟩

end World

end StreamRpc
