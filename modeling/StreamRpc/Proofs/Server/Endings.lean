import StreamRpc.Proofs.Server.Emissions

/-! # Tasks that are over

The task of a stream waits on the signal that came with the number of the stream.  As the signal goes
off when the stream is retired and not before, a task that is over has left its stream inactive, for
good.

* `Stage.Run.forwarding_began`     the task of a stream has what its stream was given at first
* `Stage.Run.signal_of_numbered`   each number has a signal of its own
* `Stage.Run.owner_of_over`        the stream of a task that is over is not active
-/

namespace StreamRpc

/-- Numbers and signals are given out together. -/
private theorem Multiplexer.signals_subscribeAll (client : String) (rs : List SourceRef)
    {m : Multiplexer}
    (signals : m.tracker.signals.length = m.numbered) :
    ∀ sub ∈ (m.subscribeAll client rs).1, ∃ k, k < (m.subscribeAll client rs).2.numbered ∧
      sub.id = StreamId.nth k ∧ sub.signal = ⟨k⟩ := by
  induction rs generalizing m with
  | nil => exact fun sub hsub => by cases hsub
  | cons r rs ih =>
    have hsignals : (m.subscribe client r).2.tracker.signals.length =
        (m.subscribe client r).2.numbered :=
      (Tracker.length_signals_register m.tracker m.nextId client).trans (congrArg (· + 1) signals)
    intro sub hsub
    -- Each registration adds one signal and one id, so both have the same number.
    rcases List.mem_cons.1 hsub with rfl | hsub
    · refine ⟨m.numbered, ?_, rfl, ?_⟩
      · rw [(m.ids_subscribeAll client (r :: rs)).2, List.length_cons]
        omega
      · show (m.tracker.register m.nextId client).1 = _
        rw [Tracker.signal_register, signals]
    · exact ih hsignals sub hsub

namespace Forwarding

/-- How a task comes to its end: its signal has gone off, or its stream is not active any more, or it
    retires the stream itself. -/
private theorem over_eq {n : Nat} {f : Forwarding} {st : Stage} {es : ServerTrace} {o : Outcome}
    (does : f.Does n st es o) (ended : o.phase = none) :
    (st.tracker.signal f.signal ≠ .armed ∧ o.stage.server.mux = st.server.mux) ∨
      (st.tracker.isActive f.id = false ∧ o.stage.server.mux = st.server.mux) ∨
        o.stage.server.mux = st.server.mux.retire f.id := by
  cases does with
  | stop phase off => exact .inl ⟨off, rfl⟩
  | halt phase inactive => exact .inr (.inl ⟨inactive, rfl⟩)
  | close phase => exact .inr (.inr rfl)
  | _ => cases ended

end Forwarding

/-- Ids in a reply that was accepted were numbered by its task. -/
private theorem Handling.Story.numbered_of_accepted {n : Nat} {r : Request}
    {subs : List Subscription}
    {L : ServerTrace} (h : Handling.Story n r (some (.replying (.accepted subs))) L)
    (some : subs ≠ []) : .numbered (.handling n) r.replyTo subs ∈ L := by
  cases h with
  | accepted hw =>
    -- An excuse announces no streams, so the reply is the one that was encoded first.
    cases hw with
    | plain loaded written =>
      cases loaded with
      | mk answered exposed => simp
    | excuse loaded refused written => exact absurd rfl some

/-- Ids in a notification that was accepted were numbered by its task. -/
private theorem Forwarding.Story.numbered_of_accepted {n : Nat} {client : String}
    {sub : Subscription}
    {terminal : Bool} {nested : List Subscription} {L : ServerTrace}
    (h : Forwarding.Story n client sub (some (.accepted terminal nested)) L) :
    .numbered (.forwarding n) client nested ∈ L := by
  cases h with
  | accepted loaded written =>
    cases loaded with
    | mk before exposed => simp

namespace Stage

variable {st₀ st st' : Stage} {tr es : ServerTrace}

/-! ## What a step does to the tasks of streams -/

/-- What the task of a stream has of it. -/
def subOf (f : Forwarding) : Subscription :=
  { id := f.id, source := f.source, signal := f.signal }

/-- After a start each forwarding task is an old one or one that has begun. -/
private theorem forwardings_start {client : String} {subs : List Subscription} {n : Nat}
    {f : Forwarding}
    (h : (st.start client subs).server.forwardings[n]? = some f) :
    st.server.forwardings[n]? = some f ∨
      .began n f.client (subOf f) ∈ begun client st.server.nextTask subs := by
  -- By the streams that are started, each of which takes the next number.
  induction subs generalizing st with
  | nil => exact .inl h
  | cons sub subs ih =>
    have h' : (({ st with server := startOne client st.server sub } : Stage).start client
        subs).server.forwardings[n]? = some f := h
    rcases ih h' with hf | hb
    · have hf' : (st.server.forwardings.insert st.server.nextTask
          { client, id := sub.id, source := sub.source, signal := sub.signal })[n]? = some f := hf
      rw [Std.ExtTreeMap.getElem?_insert] at hf'
      split at hf'
      · next hn =>
        obtain rfl := Std.compare_eq_iff_eq.1 hn
        obtain rfl := Option.some.inj hf'
        exact .inr List.mem_cons_self
      · exact .inl hf'
    · exact .inr (List.mem_cons_of_mem _ hb)

/-- A task that was started is there. -/
private theorem started_of_begun {client other : String} {sub : Subscription}
    {subs : List Subscription}
    {n : Nat} (h : .began n other sub ∈ begun client st.server.nextTask subs) :
    (st.start client subs).server.forwardings[n]? ≠ none := by
  induction subs generalizing st with
  | nil => cases h
  | cons first subs ih =>
    rcases List.mem_cons.1 h with heq | h
    · obtain ⟨rfl, -, -⟩ := ServerEvent.began.inj heq
      have hlt : st.server.nextTask < (startOne client st.server first).nextTask :=
        Nat.lt_succ_self _
      -- The streams that are started after it leave it alone.
      have hsame := forwardings_start_of_lt
        ({ st with server := startOne client st.server first } : Stage) client subs hlt
      have hfirst : (startOne client st.server first).forwardings[st.server.nextTask]? =
          some { client, id := first.id, source := first.source, signal := first.signal } := by
        simp [startOne]
      rw [hfirst] at hsame
      intro hnone
      have hnone' : (({ st with server := startOne client st.server first } : Stage).start client
        subs).server.forwardings[st.server.nextTask]? = none := hnone
      rw [hsame] at hnone'
      cases hnone'
    · exact @ih { st with server := startOne client st.server first } h

/-- A step starts some tasks, and may bring on one of the others. -/
structure Moves (st : Stage) (es : ServerTrace) (st' : Stage) (client : String)
    (subs : List Subscription) : Prop where
  begun : ∀ n other sub, .began n other sub ∈ es ↔
    .began n other sub ∈ begun client st.server.nextTask subs
  tasks : ∀ n : Nat,
    st'.server.forwardings[n]? = (st.start client subs).server.forwardings[n]? ∨
      ∃ f o, st.server.forwardings[n]? = some f ∧ f.step? st = some o ∧
        st'.server.forwardings[n]? = o.phase.map (fun phase => { f with phase }) ∧
          st'.server.mux = o.stage.server.mux

/-- A step that moves no forwarding task and begins none is a move of none. -/
private theorem Moves.of_idle (forwardings : st'.server.forwardings = st.server.forwardings)
    (idle : ∀ n other sub, .began n other sub ∉ es) : Moves st es st' "" [] where
  begun n other sub := ⟨fun h => absurd h (idle n other sub), fun h => by cases h⟩
  tasks n := .inl (congrArg (·[n]?) forwardings)

/-- Of a step of a task, only the streams that it starts are told by others. -/
private theorem began_iff {w : Worker} {client : String} {subs : List Subscription}
    (next : Step st es st') (fresh : ∀ n, st.server.nextTask ≤ n → w ≠ .forwarding n)
    (told : ∀ v, v ≠ w → es.of v = ServerTrace.of (begun client st.server.nextTask subs) v)
    (n : Nat) (other : String) (sub : Subscription) :
    .began n other sub ∈ es ↔ .began n other sub ∈ begun client st.server.nextTask subs := by
  -- Tasks that begin have new numbers, so they are not the one that steps.
  have hle : ∀ {client : String} {subs : List Subscription},
      .began n other sub ∈ begun client st.server.nextTask subs → st.server.nextTask ≤ n := by
    intro client subs h
    obtain ⟨m, hm, sub', -, heq⟩ := ServerTrace.mem_begun h
    obtain ⟨rfl, -, -⟩ := ServerEvent.began.inj heq
    exact hm
  constructor
  · intro h
    obtain ⟨subs', hb, -⟩ := next.starting h
    have hmem : .began n other sub ∈ es.of (.forwarding n) := ServerTrace.mem_of.2 ⟨h, rfl⟩
    rw [told _ (fresh n (hle hb)).symm] at hmem
    exact mem_of_mem_of hmem
  · intro h
    have hmem := ServerTrace.mem_of.2 ⟨h, (rfl : _ = some (Worker.forwarding n))⟩
    rw [← told _ (fresh n (hle h)).symm] at hmem
    exact mem_of_mem_of hmem

/-- What a step does to the tasks of streams. -/
theorem Step.moves (told : Told tr st) (next : Step st es st') :
    ∃ client subs, Moves st es st' client subs := by
  have next' := next
  -- Only the tasks start others, and only a stream's own step brings it on.
  cases next.does with
  | handle found steps =>
    obtain ⟨subs, same, hof⟩ := advance_tasks steps
    exact ⟨_, subs, began_iff next' (fun n _ => by simp) hof,
      fun n => .inl (congrArg (·[n]?) same.forwardings)⟩
  | @forward n f o found steps =>
    obtain ⟨subs, same, hof⟩ := pass_tasks (n := n) steps
    have hlt := told.lt_of_forwarding found
    refine ⟨_, subs, began_iff next' (fun m hm heq => by cases heq; omega) hof, fun m => ?_⟩
    rw [forwardings_putForwarding]
    split
    · next hm =>
      subst hm
      exact .inr ⟨f, o, found, steps, rfl, rfl⟩
    · exact .inl (congrArg (·[m]?) same.forwardings)
  | around same => exact ⟨"", [], .of_idle same.forwardings (by simp)⟩
  | _ => exact ⟨"", [], .of_idle rfl (by simp)⟩

/-! ## What a task is given -/

/-- What the task of a stream has of it, it was given when it began. -/
theorem Run.forwarding_began (fresh : st₀.Fresh) (run : Run st₀ tr st) {n : Nat} {f : Forwarding}
    (found : st.server.forwardings[n]? = some f) : .began n f.client (subOf f) ∈ tr := by
  induction run generalizing f with
  | refl =>
    rw [fresh.forwardings] at found
    simp at found
  | step run next ih =>
    obtain ⟨client, subs, moves⟩ := next.moves (run.told fresh)
    rcases moves.tasks n with h | ⟨f', o, found', -, h, -⟩
    -- A task keeps what it was given, so it is enough to look at the step that starts it.
    · rcases forwardings_start (h ▸ found) with hold | hnew
      · exact List.mem_append_left _ (ih hold)
      · exact List.mem_append_right _ ((moves.begun _ _ _).2 hnew)
    · have hbegan := ih found'
      obtain ⟨phase, -, rfl⟩ := Option.map_eq_some_iff.1 (h.symm.trans found)
      exact List.mem_append_left _ hbegan

/-- A task that began with a stream has that one, as long as it is there. -/
theorem Run.task_of_began (fresh : st₀.Fresh) (run : Run st₀ tr st) {n : Nat} {client : String}
    {sub : Subscription} (began : .began n client sub ∈ tr) {f : Forwarding}
    (found : st.server.forwardings[n]? = some f) : f.client = client ∧ subOf f = sub :=
  (run.told fresh).began_once began (run.forwarding_began fresh found)

/-- A stream that began had got its number, for the same client. -/
theorem Run.numbered_of_began (fresh : st₀.Fresh) (run : Run st₀ tr st) {n : Nat} {client : String}
    {sub : Subscription} (began : .began n client sub ∈ tr) :
    ∃ w subs, .numbered w client subs ∈ tr ∧ sub ∈ subs := by
  obtain ⟨pre, post, htr⟩ := List.append_of_mem began
  obtain ⟨tr₁, st₁, front, back, st₂, run₁, next, hpre, -⟩ := run.at htr
  obtain ⟨subs, hb, starting⟩ := next.starting (List.mem_append_right _ List.mem_cons_self)
  obtain ⟨_, _, sub', hsub, heq⟩ := ServerTrace.mem_begun hb
  obtain ⟨-, -, rfl⟩ := ServerEvent.began.inj heq
  have hsubset : ∀ x ∈ tr₁, x ∈ tr := fun x hx => by
    rw [htr, hpre]
    simp [hx]
  have told := run₁.told fresh
  -- The answer or the item in which the stream stands had given it its number.
  cases starting with
  | answer found same phase =>
    obtain ⟨r, hc, -, -, story⟩ := told.of_handling found
    rw [phase] at story
    have hmem := mem_of_mem_of (story.numbered_of_accepted (List.ne_nil_of_mem hsub))
    exact ⟨_, subs, hsubset _ (same ▸ hc ▸ hmem), hsub⟩
  | item found same phase =>
    obtain ⟨_, -, -, story⟩ := told.of_forwarding found
    rw [phase] at story
    exact ⟨_, subs, hsubset _ (same ▸ mem_of_mem_of story.numbered_of_accepted), hsub⟩

/-- A forwarding task began for an id that was numbered. -/
private theorem Run.mem_numbers_of_began (fresh : st₀.Fresh) (run : Run st₀ tr st) {n : Nat}
    {client : String} {sub : Subscription} (began : .began n client sub ∈ tr) :
    sub.id ∈ tr.numbers := by
  obtain ⟨w, subs, numbered, hsub⟩ := run.numbered_of_began fresh began
  exact List.mem_flatMap.2 ⟨_, numbered, List.mem_map_of_mem hsub⟩

section

variable (fresh : st₀.Fresh) (run : Run st₀ tr st) (few : st.server.mux.numbered ≤ 2 ^ 64)

include fresh run few

/-- The signal that comes with a number has the place of the number. -/
theorem Run.signal_of_numbered {w : Worker} {client : String} {subs : List Subscription}
    (numbered : .numbered w client subs ∈ tr) {sub : Subscription} (hsub : sub ∈ subs) :
    ∃ k, k < st.server.mux.numbered ∧ sub.id = StreamId.nth k ∧ sub.signal = ⟨k⟩ := by
  obtain ⟨pre, post, htr⟩ := List.append_of_mem numbered
  obtain ⟨tr₁, st₁, front, back, st₂, run₁, next, -, tr₂, run₂, -⟩ := run.at htr
  have hle := run₂.numbered_le
  -- Numbers and signals are counted alike, and the number was given in one step.
  obtain ⟨hmux, hnumbers⟩ := next.mux
  obtain ⟨hes, hsubs⟩ := hnumbers w client subs (List.mem_append_right _ List.mem_cons_self)
  rw [hes] at hmux
  have hmux' : st₂.server.mux = (st₁.server.mux.subscribeAll client (subs.map (·.source))).2 := hmux
  obtain ⟨k', -, hk'⟩ := next.mux.next
  have sound := (run₁.sound fresh (by omega)).1
  rw [← hsubs] at hsub
  obtain ⟨k, hk, hid, hsignal⟩ := Multiplexer.signals_subscribeAll client _ sound.signals sub hsub
  rw [← hmux'] at hk
  exact ⟨k, by omega, hid, hsignal⟩

/-- The signal of a task does not go off while its stream is active. -/
private theorem Run.armed_of_owner {n : Nat} {f : Forwarding}
    (found : st.server.forwardings[n]? = some f) {client : String}
    (owner : st.server.mux.owner f.id = some client) : st.tracker.signal f.signal = .armed := by
  obtain ⟨w, subs, numbered, hsub⟩ :=
    run.numbered_of_began fresh (run.forwarding_began fresh found)
  obtain ⟨k, hk, hid, hsignal⟩ := run.signal_of_numbered fresh few numbered hsub
  have sound := (run.sound fresh few).1
  obtain ⟨r, hr, -⟩ := Option.map_eq_some_iff.1 owner
  obtain ⟨k', hk', hid', hsignal'⟩ := sound.given f.id r hr
  -- The registration has the same number, so it has the same signal, and that is armed.
  obtain rfl : k = k' := StreamId.nth_inj (by omega) (by omega) (hid.symm.trans hid')
  have heq : f.signal = r.signal := hsignal.trans hsignal'.symm
  rw [heq]
  exact congrArg (·.getD .spent) (sound.books.armed f.id r hr)

end

/-! ## The end of a task -/

/-- A task that a step ends has left its stream inactive. -/
private theorem Run.owner_of_ending (fresh : st₀.Fresh) (run : Run st₀ tr st)
    (few : st.server.mux.numbered ≤ 2 ^ 64) {n : Nat} {f : Forwarding}
    (found : st.server.forwardings[n]? = some f) {o : Forwarding.Outcome}
    (go : f.step? st = some o) (ended : o.phase = none) : o.stage.server.mux.owner f.id = none := by
  rcases Forwarding.over_eq (Forwarding.does n go) ended with ⟨hsignal, hmux⟩ | ⟨hactive, hmux⟩ | hmux
  · rw [hmux]
    -- Its signal has gone off, and this does not happen while the stream is active.
    cases howner : st.server.mux.owner f.id with
    | none => rfl
    | some client => exact absurd (run.armed_of_owner fresh few found howner) hsignal
  · rw [hmux, Multiplexer.owner]
    have hnone : st.server.mux.tracker.active.contains f.id = false := hactive
    rw [Std.ExtTreeMap.contains_eq_isSome_getElem?] at hnone
    cases hr : st.server.mux.tracker.active[f.id]? with
    | none => rfl
    | some r =>
      rw [hr] at hnone
      cases hnone
  · rw [hmux, owner_retire, if_pos rfl]

/-- A stream that is not active becomes active only when it gets its number. -/
private theorem owner_foldl {id : StreamId} {es : ServerTrace} (unnumbered : id ∉ es.numbers) :
    es.foldl (fun o x => x.turn id o) none = none := by
  cases h : es.foldl (fun o x => x.turn id o) none with
  | none => rfl
  | some client =>
    rcases ServerTrace.holds_of_foldl h with ⟨hnone, -⟩ | ⟨pre, w, subs, post, rfl, hid, -⟩
    · cases hnone
    · refine absurd ?_ unnumbered
      rw [ServerTrace.numbers_append, ServerTrace.numbers_cons]
      exact List.mem_append_right _ (List.mem_append_left _ hid)

/-- A stream that has a number and is not active stays so. -/
theorem Run.owner_of_inactive (fresh : st₀.Fresh) (run : Run st₀ tr st) (next : Step st es st')
    (few : st'.server.mux.numbered ≤ 2 ^ 64) {id : StreamId} (numbered : id ∈ tr.numbers)
    (inactive : st.server.mux.owner id = none) : st'.server.mux.owner id = none := by
  obtain ⟨k, -, hk⟩ := next.mux.next
  rw [(next.mux.sound (run.sound fresh (by omega)).1 few).2, inactive]
  -- Its number is not given again.
  have hnodup := (run.step next).nodup_numbers fresh few
  rw [ServerTrace.numbers_append, List.nodup_append] at hnodup
  exact owner_foldl fun hmem => hnodup.2.2 _ numbered _ hmem rfl

/-- The stream of a task that is over is not active. -/
theorem Run.owner_of_over (fresh : st₀.Fresh) (run : Run st₀ tr st)
    (few : st.server.mux.numbered ≤ 2 ^ 64) {n : Nat} {client : String} {sub : Subscription}
    (began : .began n client sub ∈ tr) (ended : st.server.forwardings[n]? = none) :
    st.server.mux.owner sub.id = none := by
  induction run with
  | refl => cases began
  | @step tr es st st' run next ih =>
    obtain ⟨k, -, hk⟩ := next.mux.next
    have few' : st.server.mux.numbered ≤ 2 ^ 64 := by omega
    have told := run.told fresh
    obtain ⟨client', subs, moves⟩ := next.moves told
    rcases moves.tasks n with h | ⟨f, o, found, go, h, hmux⟩
    · rw [h] at ended
      rcases List.mem_append.1 began with began | began
      · cases hf : st.server.forwardings[n]? with
        | some f =>
          rw [forwardings_start_of_lt _ _ _ (told.lt_of_forwarding hf), hf] at ended
          cases ended
        | none =>
          -- It was over before.
          exact run.owner_of_inactive fresh next few (run.mem_numbers_of_began fresh began)
            (ih few' began hf)
      -- A task that begins in this step is there after it.
      · exact absurd ended (started_of_begun ((moves.begun _ _ _).1 began))
    · have hphase : o.phase = none := by
        rw [h] at ended
        simpa using ended
      -- The task that this step ended was given this stream.
      obtain ⟨-, rfl⟩ := ((run.step next).told fresh).began_once began
        (List.mem_append_left es (run.forwarding_began fresh found))
      rw [hmux]
      exact run.owner_of_ending fresh few' found go hphase

end Stage

end StreamRpc
