import StreamRpc.Proofs.Client.Tickets
import StreamRpc.Proofs.World.Agreement

/-! # The numbers of calls

A call gets its number when its client sends it, and keeps it until nobody is interested in the call
any more.  As a client numbers its calls apart, no two of them have one number, be they equal in
everything else.

* `World.Moves`              how the calls that there are can change in one step
* `World.Step.moves`         and that they change in no other way
* `World.Run.calls_told`     what is told of every call
* `World.number_of_submit`   whoever submits a call is told its number
* `World.Step.keeps_number`  a call keeps its number
* `World.Run.numbers_apart`  no two calls of one client have one number
-/

namespace StreamRpc

namespace World

variable {config : ServerConfig} {w₀ w w' : World} {tr es : WorldTrace}

/-! ## How calls go on -/

/-- How the calls that there are can change in one step, if this is told of it. -/
inductive Moves (w : World) (es : WorldTrace) : List Calling → Prop where
  | rest : Moves w es w.calls
  /-- Somebody is about to make a call. -/
  | come {call : Calling} (unsent : call.phase = .unsent) : Moves w es (w.calls ++ [call])
  /-- A call is made and sent at once. -/
  | submit {call : Calling} {id : CallId} {e : Envelope} (waits : call.phase = .waiting id none)
      (asked : .asked id call.method call.args e ∈ es.client call.client) :
      Moves w es (w.calls ++ [call])
  | send {n : Nat} {call : Calling} {id : CallId} {till : Option Nat} {e : Envelope}
      (found : w.calls[n]? = some call) (unsent : call.phase = .unsent)
      (asked : .asked id call.method call.args e ∈ es.client call.client) :
      Moves w es (w.calls.set n { call with phase := .waiting id till })
  /-- The call could not be sent. -/
  | refuse {n : Nat} {call : Calling} {err : CallError} (found : w.calls[n]? = some call)
      (unsent : call.phase = .unsent) (own : err.isRemote = false) :
      Moves w es (w.calls.set n { call with phase := .ended none (.error err) })
  | collect {n : Nat} {call : Calling} {id : CallId} {till : Option Nat}
      {r : Except CallError ClientValue} (found : w.calls[n]? = some call)
      (waits : call.phase = .waiting id till) (collected : .collected id r ∈ es.client call.client) :
      Moves w es (w.calls.set n { call with phase := .ended (some id) (call.outcomeOf r).1 })
  /-- The time is up, and nobody has answered. -/
  | giveUp {n : Nat} {call : Calling} {id : CallId} {till : Option Nat}
      (found : w.calls[n]? = some call) (waits : call.phase = .waiting id till) :
      Moves w es (w.calls.set n { call with phase := .ended (some id) (.error .timeout) })
  | abandon {n : Nat} {call : Calling} (found : w.calls[n]? = some call) :
      Moves w es (w.calls.set n { call with phase := .abandoned })

/-- What is told of one client alone is told of it in the world. -/
private theorem mem_client_map {i : Nat} {es : ClientTrace} {x : ClientEvent} (hx : x ∈ es) :
    x ∈ WorldTrace.client (es.map (.client i)) i := by
  rwa [WorldTrace.client_map_client, if_pos rfl]

/-- The task of a call sends it or looks for its answer. -/
private theorem moves_of_call {n : Nat} (go : w.call? n = some w') :
    Moves w (w.callEvents n) w'.calls := by
  obtain ⟨call, c, hcall, found, ⟨hp, rfl⟩ | ⟨id, till, hp, go⟩⟩ := call?_eq go
  -- The call is sent: it waits from now on, or it ended with an error of its own client.
  · have hes : w.callEvents n =
        (c.submitEvents call.method call.args w.transport).map (.client call.client) := by
      simp [callEvents, hcall, clientEvents, found, hp]
    obtain ⟨hok, herror⟩ := c.submit_told call.method call.args w.transport
    rw [hes]
    unfold sendCall
    cases hr : c.submit call.method call.args w.transport with
    | mk r p =>
      obtain ⟨c', t'⟩ := p
      rw [hr] at hok herror
      cases r with
      | ok id =>
        obtain ⟨e, he⟩ := hok id rfl
        refine .send (e := e) hcall hp (mem_client_map ?_)
        rw [he]
        exact List.mem_singleton_self _
      | error err => exact .refuse hcall hp (herror err rfl)
  -- The call looks for its answer: it is there, or nobody will bring one, or the time is up.
  · rcases awaitCall?_eq go with ⟨r, hr, rfl⟩ | ⟨hr, rfl⟩ | ⟨hr, rfl⟩
    · have hes : w.callEvents n = [ClientEvent.collected id r].map (.client call.client) := by
        simp [callEvents, hcall, clientEvents, found, hp, Client.collectEvents, hr]
      rw [hes]
      exact .collect hcall hp (mem_client_map (List.mem_singleton_self _))
    · exact .abandon hcall
    · exact .giveUp hcall hp

/-- No task but that of a call changes the phase of a call. -/
private theorem moves_of_task (quiet : w.retiring = none) {t : Task} (go : w.run? t = some w') :
    Moves w (w.events t) w'.calls := by
  -- Only a task of a call moves calls; the equations of the others say that they leave them.
  cases t with
  | call n => exact moves_of_call go
  | closer i =>
    obtain ⟨c, c', t', found, hstep, rfl⟩ := client?_eq go
    exact .rest
  | pump i =>
    obtain ⟨c, c', t', found, hstep, rfl⟩ := client?_eq go
    exact .rest
  | watch i =>
    obtain ⟨c, c', t', found, hstep, rfl⟩ := client?_eq go
    exact .rest
  | cleanup =>
    obtain ⟨queue, cleanups, -, rfl⟩ := cleanup?_eq go
    exact .rest
  | serve k =>
    obtain ⟨st, st', found, hstep, rfl⟩ := server?_eq go
    exact .rest
  | departure k =>
    obtain ⟨st, st', found, hstep, rfl⟩ := server?_eq go
    exact .rest
  | handle k n =>
    obtain ⟨st, st', found, hstep, rfl⟩ := server?_eq go
    exact .rest
  -- Only a forwarding task may ask for a retirement, so only here `quiet` is needed.
  | forward k n =>
    obtain ⟨st, st', retires, found, hstep, rfl⟩ := forward?_eq quiet go
    exact .rest

/-- Calls come with a submission or with the program's own task, and go when they are dropped;
    nothing else touches them. -/
theorem Step.moves (next : Step config tr w es w') (quiet : w.retiring = none) :
    Moves w es w'.calls := by
  cases next with
  | task go => exact moves_of_task quiet go
  | connect go =>
    obtain ⟨c, t', -, rfl⟩ := connect_eq go
    exact .rest
  | @submit i c found method args =>
    rw [clientEvents_eq found]
    obtain ⟨hok, -⟩ := c.submit_told method args w.transport
    unfold World.submit
    cases hr : c.submit method args w.transport with
    | mk r p =>
      rw [hr] at hok
      cases r with
      -- The number that is returned is the one that the client has told of.
      | ok id =>
        obtain ⟨e, he⟩ := hok id rfl
        refine .submit (e := e) rfl (mem_client_map ?_)
        rw [he]
        exact List.mem_singleton_self _
      | error err => exact .rest
  | call unsent => exact .come unsent
  | dropCall n =>
    obtain hw | ⟨call, hcall, hw | ⟨id, c, -, hw⟩⟩ := w.dropCall_eq n
    · rw [hw]
      exact .rest
    all_goals
      rw [hw]
      exact .abandon hcall
  | close | dropClient | feed | clock | methods => exact .rest
  | @read i g given max? =>
    obtain hw | ⟨c, k, -, hw⟩ := w.readHandle_eq i g max?
    all_goals
      rw [hw]
      exact .rest
  | @dropHandle i g given =>
    obtain hw | ⟨c, -, hw⟩ := w.dropHandle_eq i g
    all_goals
      rw [hw]
      exact .rest

/-! ## What is told of calls -/

/-- What is told of a call that is in a phase. -/
inductive CallTold (tr : ClientTrace) (call : Calling) : CallPhase → Prop where
  | unsent : CallTold tr call .unsent
  | waiting {id : CallId} {till : Option Nat} {e : Envelope}
      (asked : .asked id call.method call.args e ∈ tr) : CallTold tr call (.waiting id till)
  | ended {id : CallId} {e : Envelope} {r : Except CallError ClientValue}
      (asked : .asked id call.method call.args e ∈ tr) (collected : .collected id r ∈ tr) :
      CallTold tr call (.ended (some id) (call.outcomeOf r).1)
  /-- The call could not be sent. -/
  | refused {err : CallError} (own : err.isRemote = false) :
      CallTold tr call (.ended none (.error err))
  /-- The client gave up without an answer. -/
  | late {id : CallId} {e : Envelope} (asked : .asked id call.method call.args e ∈ tr) :
      CallTold tr call (.ended (some id) (.error .timeout))
  | abandoned : CallTold tr call .abandoned

/-- What was told stays told. -/
private theorem CallTold.mono {tr tr' : ClientTrace} {call : Calling} {phase : CallPhase}
    (h : CallTold tr call phase) (sub : ∀ x ∈ tr, x ∈ tr') : CallTold tr' call phase := by
  cases h with
  | unsent => exact .unsent
  | waiting asked => exact .waiting (sub _ asked)
  | ended asked collected => exact .ended (sub _ asked) (sub _ collected)
  | refused own => exact .refused own
  | late asked => exact .late (sub _ asked)
  | abandoned => exact .abandoned

/-- What is told of a call does not depend on the phase that is written down. -/
private theorem CallTold.rephase {tr : ClientTrace} {call : Calling} {phase : CallPhase}
    (h : CallTold tr call phase) (old : CallPhase) :
    CallTold tr { call with phase := old } phase := by
  cases h with
  | unsent => exact .unsent
  | waiting asked => exact .waiting asked
  | ended asked collected => exact @CallTold.ended _ { call with phase := old } _ _ _ asked collected
  | refused own => exact .refused own
  | late asked => exact .late asked
  | abandoned => exact .abandoned

/-- A call that has a number was sent under it. -/
private theorem CallTold.asked {tr : ClientTrace} {call : Calling} {phase : CallPhase}
    (h : CallTold tr call phase) {id : CallId} (number : phase.id? = some id) :
    ∃ e, .asked id call.method call.args e ∈ tr := by
  cases h with
  | unsent | refused | abandoned => cases number
  | waiting asked | ended asked | late asked =>
    obtain rfl := Option.some.inj number
    exact ⟨_, asked⟩

/-- What is told of every call fits the phase it is in. -/
def CallsTold (tr : WorldTrace) (w : World) : Prop :=
  ∀ call ∈ w.calls, CallTold (tr.client call.client) call call.phase

/-- What is told of every call still fits after a step. -/
private theorem CallsTold.moves (h : CallsTold tr w) (moves : Moves w es w'.calls) :
    CallsTold (tr ++ es) w' := by
  have hold : ∀ call ∈ w.calls, CallTold ((tr ++ es).client call.client) call call.phase :=
    fun call hcall => (h call hcall).mono fun x hx => by
      rw [WorldTrace.client_append]
      exact List.mem_append_left _ hx
  have hnew : ∀ {i : Nat} {x : ClientEvent}, x ∈ es.client i → x ∈ (tr ++ es).client i :=
    fun {i x} hx => by
      rw [WorldTrace.client_append]
      exact List.mem_append_right _ hx
  -- Only one call comes or moves to another phase, and the others are told of as before.
  have hset : ∀ {n : Nat} {call : Calling} {phase : CallPhase},
      CallTold ((tr ++ es).client call.client) call phase →
      ∀ x ∈ w.calls.set n { call with phase }, CallTold ((tr ++ es).client x.client) x x.phase :=
    fun {n call phase} told x hx => by
      rcases List.mem_or_eq_of_mem_set hx with hx | rfl
      · exact hold x hx
      · exact told.rephase phase
  have hadd : ∀ {call : Calling}, CallTold ((tr ++ es).client call.client) call call.phase →
      ∀ x ∈ w.calls ++ [call], CallTold ((tr ++ es).client x.client) x x.phase :=
    fun {call} told x hx => by
      rcases List.mem_append.1 hx with hx | hx
      · exact hold x hx
      · exact List.mem_singleton.1 hx ▸ told
  -- A call that waits was sent under its number.
  have hwaits : ∀ {n : Nat} {call : Calling} {id till},
      w.calls[n]? = some call → call.phase = .waiting id till →
      ∃ e, .asked id call.method call.args e ∈ (tr ++ es).client call.client :=
    fun {n call id till} found waits =>
      (hold call (List.mem_of_getElem? found)).asked (by rw [waits]; rfl)
  unfold CallsTold
  generalize w'.calls = calls at moves
  cases moves with
  | rest => exact hold
  | come unsent => exact hadd (unsent ▸ .unsent)
  | submit waits asked => exact hadd (waits ▸ .waiting (hnew asked))
  | send _ _ asked => exact hset (.waiting (hnew asked))
  | refuse _ _ own => exact hset (.refused own)
  | collect found waits collected =>
    obtain ⟨e, asked⟩ := hwaits found waits
    exact hset (.ended asked (hnew collected))
  | giveUp found waits =>
    obtain ⟨e, asked⟩ := hwaits found waits
    exact hset (.late asked)
  | abandon => exact hset .abandoned

/-- What is told of every call fits the phase it is in, throughout. -/
theorem Run.calls_told (run : Run config w₀ tr w) : CallsTold tr w := by
  induction run with
  | start up =>
    obtain ⟨s, t', -, -, rfl⟩ := launch_alone up
    intro call hcall
    cases hcall
  | step run next ih =>
    obtain ⟨s, alone, -⟩ := run.server
    exact ih.moves (next.moves alone.quiet)

/-! ## Numbers -/

/-- Whoever submits a call is told the number that the call has. -/
theorem number_of_submit {i n : Nat} {c : Client} {method : String} {args : List PlainValue}
    {id : CallId} (go : w.submit i c method args = (.ok (id, n), w')) :
    ∃ call, w'.calls[n]? = some call ∧ call.client = i ∧ call.method = method ∧ call.args = args ∧
      call.phase.id? = some id := by
  unfold World.submit at go
  split at go
  · cases (congrArg Prod.fst go)
  · obtain ⟨hn, rfl⟩ := Prod.mk.inj go
    obtain ⟨rfl, rfl⟩ := Prod.mk.inj (Except.ok.inj hn)
    exact ⟨_, List.getElem?_concat_length, rfl, rfl, rfl, rfl⟩

/-- A call keeps its number until nobody is interested in it any more. -/
theorem Step.keeps_number (next : Step config tr w es w') (quiet : w.retiring = none) {k : Nat}
    {call : Calling} (found : w.calls[k]? = some call) {id : CallId}
    (number : call.phase.id? = some id) :
    ∃ call', w'.calls[k]? = some call' ∧ call'.client = call.client ∧
      call'.method = call.method ∧ call'.args = call.args ∧
      (call'.phase.id? = some id ∨ call'.phase = .abandoned) := by
  have moves := next.moves quiet
  generalize w'.calls = calls at moves
  have hlt := (List.getElem?_eq_some_iff.1 found).1
  have hsame : ∃ call', w.calls[k]? = some call' ∧ call'.client = call.client ∧
      call'.method = call.method ∧ call'.args = call.args ∧
      (call'.phase.id? = some id ∨ call'.phase = .abandoned) :=
    ⟨call, found, rfl, rfl, rfl, .inl number⟩
  -- Another call moves, or this one does and has the same number after that.
  have hset : ∀ {n : Nat} {other : Calling} {phase : CallPhase}, w.calls[n]? = some other →
      (other.phase.id? = some id → phase.id? = some id ∨ phase = .abandoned) →
      ∃ call', (w.calls.set n { other with phase })[k]? = some call' ∧
        call'.client = call.client ∧ call'.method = call.method ∧ call'.args = call.args ∧
        (call'.phase.id? = some id ∨ call'.phase = .abandoned) :=
    fun {n other phase} hother keeps => by
      by_cases hn : n = k
      · subst hn
        obtain rfl := Option.some.inj (hother.symm.trans found)
        exact ⟨_, List.getElem?_set_self hlt, rfl, rfl, rfl, keeps number⟩
      · rw [List.getElem?_set_ne hn]
        exact hsame
  cases moves with
  | rest => exact hsame
  | come | submit =>
    rw [List.getElem?_append_left hlt]
    exact hsame
  | send hother unsent | refuse hother unsent =>
    exact hset hother fun hid => by rw [unsent] at hid; cases hid
  -- The outcome is kept together with the number.
  | collect hother waits | giveUp hother waits =>
    exact hset hother fun hid => by rw [waits] at hid; exact .inl hid
  | abandon hother => exact hset hother fun _ => .inr rfl

/-- No two of these calls are of client `i` and have one number. -/
def NumbersApart (i : Nat) (calls : List Calling) : Prop :=
  ∀ (k k' : Nat) (call call' : Calling) (id : CallId), calls[k]? = some call →
    calls[k']? = some call' → call.client = i → call'.client = i →
    call.phase.id? = some id → call'.phase.id? = some id → k = k'

/-- No call of client `i` has this number. -/
private def Unused (i : Nat) (calls : List Calling) (id : CallId) : Prop :=
  ∀ call ∈ calls, call.client = i → call.phase.id? ≠ some id

/-- A call comes that has no number, or one that no other has. -/
private theorem NumbersApart.add {i : Nat} {calls : List Calling} (apart : NumbersApart i calls)
    {new : Calling}
    (fresh : new.client = i → ∀ id, new.phase.id? = some id → Unused i calls id) :
    NumbersApart i (calls ++ [new]) := by
  have hlast : ∀ {k call}, [new][k]? = some call → k = 0 ∧ call = new := fun {k call} h => by
    obtain ⟨hlt, heq⟩ := List.getElem?_eq_some_iff.1 h
    rw [List.getElem_singleton] at heq
    rw [List.length_singleton] at hlt
    exact ⟨by omega, heq.symm⟩
  intro k k' call call' id hk hk' mine mine' number number'
  rw [List.getElem?_append] at hk hk'
  -- Of two calls with one number at most one is the new call, and its number is unused.
  split at hk <;> split at hk'
  · exact apart k k' call call' id hk hk' mine mine' number number'
  · obtain ⟨-, rfl⟩ := hlast hk'
    exact absurd number (fresh mine' id number' call (List.mem_of_getElem? hk) mine)
  · obtain ⟨-, rfl⟩ := hlast hk
    exact absurd number' (fresh mine id number call' (List.mem_of_getElem? hk') mine')
  · have := (hlast hk).1
    have := (hlast hk').1
    omega

/-- A call keeps its number or loses it, or gets one that no other has. -/
private theorem NumbersApart.set {i : Nat} {calls : List Calling} (apart : NumbersApart i calls)
    {n : Nat} {old : Calling} (found : calls[n]? = some old) {phase : CallPhase}
    (fresh : old.client = i → ∀ id, phase.id? = some id →
      old.phase.id? = some id ∨ Unused i calls id) :
    NumbersApart i (calls.set n { old with phase }) := by
  have hself : ∀ {call}, (calls.set n { old with phase })[n]? = some call →
      call = { old with phase } := fun {call} h => by
    rw [List.getElem?_set_self (List.getElem?_eq_some_iff.1 found).1] at h
    exact (Option.some.inj h).symm
  intro k k' call call' id hk hk' mine mine' number number'
  -- Either of the two may be the call that changes.
  by_cases hn : n = k <;> by_cases hn' : n = k'
  · exact hn.symm.trans hn'
  · subst hn
    obtain rfl := hself hk
    rw [List.getElem?_set_ne hn'] at hk'
    -- The changed call has the number it had, or one that no other call has.
    rcases fresh mine id number with hid | unused
    · exact apart n k' old call' id found hk' mine mine' hid number'
    · exact absurd number' (unused call' (List.mem_of_getElem? hk') mine')
  · subst hn'
    obtain rfl := hself hk'
    rw [List.getElem?_set_ne hn] at hk
    rcases fresh mine' id number' with hid | unused
    · exact apart k n call old id hk found mine mine' number hid
    · exact absurd number (unused call (List.mem_of_getElem? hk) mine)
  · rw [List.getElem?_set_ne hn] at hk
    rw [List.getElem?_set_ne hn'] at hk'
    exact apart k k' call call' id hk hk' mine mine' number number'

/-- A call that is asked for now has another number than all calls before, if no two requests of
    the client have one. -/
private theorem CallsTold.unused (told : CallsTold tr w) {i : Nat}
    (nodup : ((tr ++ es).client i).asks.Nodup) {id : CallId} {method : String}
    {args : List PlainValue} {e : Envelope} (asked : .asked id method args e ∈ es.client i) :
    Unused i w.calls id := by
  intro call hcall mine number
  obtain ⟨e', asked'⟩ := (told call hcall).asked number
  rw [mine] at asked'
  rw [WorldTrace.client_append, ClientTrace.asks_append] at nodup
  -- A number asked for earlier is not asked for again in this step.
  exact (List.nodup_append.1 nodup).2.2 id
    (List.mem_flatMap.2 ⟨_, asked', List.mem_singleton_self _⟩) id
    (List.mem_flatMap.2 ⟨_, asked, List.mem_singleton_self _⟩) rfl

/-- Numbers stay apart in one step. -/
private theorem NumbersApart.moves {i : Nat} (apart : NumbersApart i w.calls)
    (told : CallsTold tr w) {calls : List Calling} (moves : Moves w es calls)
    (nodup : ((tr ++ es).client i).asks.Nodup) : NumbersApart i calls := by
  cases moves with
  | rest => exact apart
  | come unsent =>
    refine apart.add fun _ id hid => ?_
    rw [unsent] at hid
    cases hid
  | submit waits asked =>
    refine apart.add fun mine id hid => ?_
    rw [waits] at hid
    obtain rfl := Option.some.inj hid
    exact told.unused nodup (mine ▸ asked)
  | send found _ asked =>
    refine apart.set found fun mine id hid => .inr ?_
    obtain rfl := Option.some.inj hid
    exact told.unused nodup (mine ▸ asked)
  | collect found waits | giveUp found waits =>
    refine apart.set found fun _ id hid => .inl ?_
    rw [waits]
    exact hid
  -- A call that is refused or abandoned has no number any more.
  | refuse found | abandon found => exact apart.set found fun _ id hid => by cases hid

/-- No two calls of one client have one number, if no two of its requests have. -/
theorem Run.numbers_apart (run : Run config w₀ tr w) {i : Nat}
    (nodup : (tr.client i).asks.Nodup) : NumbersApart i w.calls := by
  induction run with
  | start up =>
    obtain ⟨s, t', -, -, rfl⟩ := launch_alone up
    intro k k' call call' id hk
    cases hk
  | step run next ih =>
    obtain ⟨s, alone, -⟩ := run.server
    -- What was asked for before was asked for under different numbers as well.
    have before := nodup
    rw [WorldTrace.client_append, ClientTrace.asks_append] at before
    exact (ih (List.nodup_append.1 before).1).moves run.calls_told (next.moves alone.quiet) nodup

end World

end StreamRpc
