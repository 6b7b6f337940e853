import StreamRpc.Proofs.Call.Once

/-! # When all calls have been failed

Once a failing of all calls is through, only calls that are about to be taken back are pending, and
nothing makes another call pending for good.  What the others come to has been decided by then: the
first attempt to end one of them was made before.

* `Desk.Run.fate`           what becomes of a call over several steps
* `Desk.Sound.hopeless`     which calls are pending when a failing is through
* `Desk.Sound.decided`      what the others come to
* `Desk.Step.ticket_stays`  how an outcome leaves its ticket
-/

namespace StreamRpc

open Client (callAt callAt_inj)

namespace Correlator

/-- A ticket that shows an outcome keeps it, whatever else the call comes to. -/
private theorem settle_of_resolved (c : Correlator) {id : CallId} {r : Except CallError ClientValue}
    (h : c.tickets[id]? = some (.resolved r)) (other : CallId)
    (r' : Except CallError ClientValue) :
    (c.settle other r').2.tickets[id]? = some (.resolved r) := by
  rcases c.settle_cases other r' with ⟨hw, heq⟩ | ⟨-, heq⟩ <;> rw [heq]
  · -- The ticket that gets an outcome waits for it, so it is another one.
    have hne : id ≠ other := by
      rintro rfl
      rw [h] at hw
      cases hw
    exact (getElem?_insert_of_ne hne).trans h
  · exact h

/-- A ticket that holds an outcome keeps it when any call is resolved. -/
theorem resolve_of_resolved (c : Correlator) {id : CallId} {r : Except CallError ClientValue}
    (h : c.tickets[id]? = some (.resolved r)) (other : CallId)
    (result : Except Failure ClientValue) :
    (c.resolve other result).2.2.tickets[id]? = some (.resolved r) := by
  unfold resolve
  split
  · exact (c.withdraw other).settle_of_resolved h other _
  · exact h

/-- A ticket that holds an outcome keeps it when any call is failed. -/
private theorem fail_of_resolved (c : Correlator) {id : CallId} {r : Except CallError ClientValue}
    (h : c.tickets[id]? = some (.resolved r)) (e : CallError) (other : CallId) :
    (c.fail e other).tickets[id]? = some (.resolved r) := by
  unfold fail
  split
  · exact (c.withdraw other).settle_of_resolved h other _
  · exact h

/-- The ticket whose outcome is taken showed it, unless the call was given up. -/
theorem ticket_of_collect {c : Correlator} {id : CallId} {v : ClientValue}
    (h : (c.collect id).1 = .outcome (.ok v)) : c.tickets[id]? = some (.resolved (.ok v)) := by
  obtain ⟨r, c', heq, collects⟩ := c.collects id
  rw [heq] at h
  cases collects with
  | gone | pending | lost => cases h
  | taken ticket =>
    obtain rfl := Collection.outcome.inj h
    exact ticket

end Correlator

namespace Desk

variable {serverQueue replyTo : String} {tr es : CallTrace} {b b' : Desk}

/-! ## Tickets -/

/-- Only an answer puts a value on a ticket. -/
theorem Step.settles (next : Step b es b')
    (unanswered : ∀ id result found, .attempted id (.answer result) found ∉ es) :
    b.correlator.Settles b'.correlator fun _ r => ∃ e, r = .error e := by
  have hrest : ∀ {c c' : Correlator} {new}, c.Settles c' (fun _ _ => False) → c.Settles c' new :=
    fun h id x hx => (h id x hx).imp_right False.elim
  -- Only a failing puts an outcome on a ticket here, and a reservation puts none.
  cases next with
  | reserve =>
    intro id x hx
    have hx' : (b.correlator.tickets.insert b.correlator.nextId .waiting)[id]? =
      some (.resolved x) := hx
    rw [Std.ExtTreeMap.getElem?_insert] at hx'
    split at hx'
    · cases hx'
    · exact .inl hx'
  | retract => exact Correlator.settles_of_erase rfl
  | answer id result => exact absurd (List.mem_singleton_self _) (unanswered id result _)
  | collect => exact hrest (b.correlator.collect_eq _).1
  | drop => exact hrest (b.correlator.dropTicket_eq _).1
  | @fail _ e _ id =>
    exact fun other x hx => ((b.correlator.fail_eq e id).1 other x hx).imp_right fun h => ⟨e, h⟩
  | _ => exact fun id x hx => .inl hx

/-- Every ticket is that of a call that has been made and was not taken back. -/
def Ticketed (b : Desk) : Prop :=
  ∀ (id : CallId) (t : Ticket), b.correlator.tickets[id]? = some t →
    ∃ k m, id = callAt k ∧ b.makings[k]? = some m ∧ ∀ e, m ≠ .over (.error e)

/-- A desk that has just been opened has made no calls and given no tickets. -/
theorem ticketed_opened (serverQueue replyTo : String) : (opened serverQueue replyTo).Ticketed := by
  intro id t h
  simp [opened] at h

/-- A ticket was there before, and its call is not taken back now, or the call was just made. -/
private theorem Step.ticket (next : Step b es b') {id : CallId} {t : Ticket}
    (h : b'.correlator.tickets[id]? = some t) :
    (∃ t₀, b.correlator.tickets[id]? = some t₀) ∧ (∀ e, .refused id e ∉ es) ∨
      id = b.correlator.nextId ∧ ∃ method args,
        b'.makings[b.makings.length]? = some (.reserved method args) := by
  -- An attempt to end a call makes no ticket, and no other step but the first does.
  have hattempt : ∀ {other how found} (attempt : b.correlator.Attempt other how found b'.correlator),
      ∃ t₀, b.correlator.tickets[id]? = some t₀ := fun {other _ _} attempt => by
    by_cases ho : id = other
    · subst ho
      refine Option.ne_none_iff_exists'.1 fun hnone => ?_
      rw [attempt.gone hnone] at h
      cases h
    · exact ⟨t, attempt.others id ho ▸ h⟩
  -- Where a ticket is taken away, the one that is there belongs to another call.
  have herased : ∀ {other}, b'.correlator.tickets = b.correlator.tickets.erase other →
      id ≠ other ∧ ∃ t₀, b.correlator.tickets[id]? = some t₀ := fun {other} heq => by
    rw [heq] at h
    by_cases ho : id = other
    · subst ho
      rw [Std.ExtTreeMap.getElem?_erase_self] at h
      cases h
    · exact ⟨ho, t, Correlator.getElem?_erase_of_ne ho ▸ h⟩
  cases next with
  | reserve method args =>
    have h' : (b.correlator.tickets.insert b.correlator.nextId .waiting)[id]? = some t := h
    by_cases ho : id = b.correlator.nextId
    · exact .inr ⟨ho, method, args, List.getElem?_concat_length⟩
    · rw [Correlator.getElem?_insert_of_ne ho] at h'
      exact .inl ⟨⟨t, h'⟩, by simp⟩
  | retract =>
    obtain ⟨hne, hold⟩ := herased rfl
    refine .inl ⟨hold, fun e he => hne ?_⟩
    exact (CallEvent.refused.injEq .. ▸ List.mem_singleton.1 he).1
  | answer other result => exact .inl ⟨hattempt (b.correlator.attempt_resolve other result), by simp⟩
  | cancel other => exact .inl ⟨hattempt (b.correlator.attempt_cancel other), by simp⟩
  | @fail _ e _ other => exact .inl ⟨hattempt (b.correlator.attempt_fail other e), by simp⟩
  | @collect k =>
    refine .inl ⟨?_, fun e => by unfold collectEvents; split <;> simp⟩
    rcases b.correlator.collect_cases (callAt k) with heq | heq
    · exact ⟨t, by rw [heq] at h; exact h⟩
    · exact (herased (by rw [heq])).2
  | @drop k =>
    refine .inl ⟨?_, by simp⟩
    rcases b.correlator.dropTicket_cases (callAt k) with heq | heq
    · exact ⟨t, by rw [heq] at h; exact h⟩
    · exact (herased (by rw [heq])).2
  | post => exact .inl ⟨⟨t, h⟩, fun e => by unfold postEvents; split <;> simp⟩
  | _ => exact .inl ⟨⟨t, h⟩, by simp⟩

/-- A step keeps every ticket with a call that was made. -/
private theorem Ticketed.step (ticketed : b.Ticketed) (next : Step b es b')
    (numbers : b.makings.length = b.correlator.numbered) : b'.Ticketed := by
  intro id t h
  rcases next.ticket h with ⟨⟨t₀, hold⟩, hstays⟩ | ⟨rfl, method, args, hnew⟩
  · obtain ⟨k, m, rfl, hm, hfine⟩ := ticketed id t₀ hold
    have hlt : k < b'.makings.length := by
      have := lt_of_getElem? hm
      have := next.grows.2
      omega
    have hm' := List.getElem?_eq_getElem hlt
    refine ⟨k, _, rfl, hm', fun e hover => ?_⟩
    rw [hover] at hm'
    -- A making that is over with an error was so before, or its call is taken back now.
    rcases next.making hm' with hsame | ⟨m₀, hm₀, goes⟩ | ⟨-, ⟨_, _, hreserved⟩, -⟩
    · exact hfine e (Option.some.inj (hm.symm.trans hsame))
    · cases goes with
      | refuse => exact hstays e (List.mem_singleton_self _)
    · cases hreserved
  · exact ⟨_, _, by rw [Correlator.nextId_eq, numbers], hnew, nofun⟩

/-- A run keeps every ticket with a call that was made. -/
theorem Run.ticketed {b₀ : Desk} (run : Run b₀ tr b) (ticketed : b₀.Ticketed)
    (numbers : b₀.makings.length = b₀.correlator.numbered) : b.Ticketed := by
  suffices b.makings.length = b.correlator.numbered ∧ b.Ticketed from this.2
  induction run with
  | refl => exact ⟨numbers, ticketed⟩
  | step _ next ih =>
    obtain ⟨hnumbers, hticketed⟩ := ih
    have := next.grows.2
    exact ⟨by omega, hticketed.step next hnumbers⟩

/-- A value on a ticket stays there, is taken, or is left over. -/
theorem Step.ticket_stays (next : Step b es b') (ticketed : b.Ticketed)
    (numbers : b.makings.length = b.correlator.numbered) (few : b'.makings.length ≤ 2 ^ 64)
    {id : CallId} {v : ClientValue} (h : b.correlator.tickets[id]? = some (.resolved (.ok v))) :
    b'.correlator.tickets[id]? = some (.resolved (.ok v)) ∨ .collected id (.ok v) ∈ es ∨
      ∃ x ∈ es, x.leftover b.correlator = v.slots := by
  have hleft : (b.correlator.dropTicket id).2.1 = v.slots := by
    simp only [Correlator.dropTicket, h, Ticket.handles]
  cases next with
  | reserve =>
    -- The new call has a number of its own.
    obtain ⟨k, m, rfl, hm, -⟩ := ticketed id _ h
    have hlength : (b.makings ++ [m]).length = b.makings.length + 1 := List.length_append
    refine .inl ((Correlator.getElem?_insert_of_ne fun heq => ?_).trans h)
    rw [Correlator.nextId_eq, ← numbers] at heq
    have hlt := lt_of_getElem? hm
    have hfew : b.makings.length + 1 ≤ 2 ^ 64 := by simpa using few
    have := callAt_inj (by omega) (by omega) heq
    omega
  -- A call that is taken back loses its ticket, and what was on it is left over.
  | @retract k e =>
    by_cases ho : id = callAt k
    · subst ho
      exact .inr (.inr ⟨_, List.mem_singleton_self _, hleft⟩)
    · exact .inl ((Correlator.getElem?_erase_of_ne ho).trans h)
  | answer other result => exact .inl (b.correlator.resolve_of_resolved h other result)
  -- Collecting is how the answer leaves its ticket for the program.
  | @collect k =>
    by_cases ho : id = callAt k
    · subst ho
      refine .inr (.inl ?_)
      simp [collectEvents, Correlator.collect, h]
    · exact .inl ((b.correlator.tickets_collect_of_ne ho).trans h)
  | @drop k =>
    by_cases ho : id = callAt k
    · subst ho
      exact .inr (.inr ⟨_, List.mem_singleton_self _, hleft⟩)
    · exact .inl ((b.correlator.tickets_dropTicket_of_ne ho).trans h)
  | @fail _ e _ other => exact .inl (b.correlator.fail_of_resolved h e other)
  | _ => exact .inl h

/-! ## What becomes of calls over several steps -/

/-- A run forgets no call, and the calls stay numbered in the order they were made. -/
theorem Run.grows (run : Run b es b') :
    b.makings.length ≤ b'.makings.length ∧
      (b.makings.length = b.correlator.numbered → b'.makings.length = b'.correlator.numbered) := by
  induction run with
  | refl => exact ⟨Nat.le_refl _, id⟩
  | step _ next ih =>
    have := next.grows.2
    exact ⟨by omega, fun h => by have := ih.2 h; omega⟩

/-- A call that is over stays over with its result. -/
private theorem Run.over (run : Run b es b') {k : Nat} {r : Except CallError Unit}
    (h : b.makings[k]? = some (.over r)) : b'.makings[k]? = some (.over r) := by
  induction run with
  | refl => exact h
  | step _ next ih => exact next.over ih

/-- A call that is handed out is not taken back. -/
private theorem Sound.not_refused (sound : Sound replyTo tr b) (few : b.makings.length ≤ 2 ^ 64)
    {k : Nat}
    (handed : b.makings[k]? = some (.over (.ok ()))) (e : CallError) :
    .refused (callAt k) e ∉ tr := by
  intro he
  obtain ⟨j, heq, hj, -⟩ := sound.refused _ e he
  have := lt_of_getElem? hj
  have := lt_of_getElem? handed
  -- A refused call is over with an error, and this one was handed out.
  obtain rfl := callAt_inj (by omega) (by omega) heq
  rw [handed] at hj
  cases hj

/-- A call that is not taken back comes to what is told of it. -/
theorem Run.fate (run : Run b es b') (numbers : b.makings.length = b.correlator.numbered)
    (few : b'.makings.length ≤ 2 ^ 64) {k : Nat} (made : k < b.makings.length)
    (stays : ∀ e, .refused (callAt k) e ∉ es) {since : CallTrace}
    (fate : b.correlator.Fate (callAt k) since) :
    b'.correlator.Fate (callAt k) (since ++ es) := by
  induction run with
  | refl => rwa [List.append_nil]
  | step run next ih =>
    -- The last step touches the call as any step does, and what came before is the hypothesis.
    have hgrows := next.grows.2
    obtain ⟨hlength, hnumbers⟩ := run.grows
    have here := ih (by omega) fun e he => stays e (List.mem_append_left _ he)
    rw [← List.append_assoc]
    exact (next.touch (hnumbers numbers) few (by omega) fun e he =>
      stays e (List.mem_append_right _ he)).fate here

/-- Only the ticket of a call that was handed out is looked at. -/
theorem Run.collected (run : Run b es b') {id : CallId} {r : Except CallError ClientValue}
    (h : .collected id r ∈ es) :
    ∃ k, id = callAt k ∧ b'.makings[k]? = some (.over (.ok ())) := by
  induction run with
  | refl => cases h
  | @step tr es b b' _ next ih =>
    -- A call that was over before the last step is over after it.
    rcases List.mem_append.1 h with h | h
    · obtain ⟨k, rfl, hk⟩ := ih h
      exact ⟨k, rfl, next.over hk⟩
    · cases next.does with
      | @collect k r' given =>
        obtain ⟨rfl, -⟩ := CallEvent.collected.injEq .. ▸ List.mem_singleton.1 h
        exact ⟨k, rfl, next.over given⟩
      | _ => simp at h

/-! ## When a failing of all calls is through -/

/-- A failing of all calls is through. -/
def Through (b : Desk) : Prop :=
  ∃ s ∈ b.sweeps, s.left = some []

/-- Once the sweep has gone through, a step leaves nothing pending. -/
private theorem Through.step (through : b.Through) (next : Step b es b') : b'.Through := by
  obtain ⟨s, hs, hleft⟩ := through
  -- A failing that has no call left to fail takes no step any more.
  have hset : ∀ {i s₀ s'}, b.sweeps[i]? = some s₀ → s₀.left ≠ some [] →
      ∃ s ∈ b.sweeps.set i s', s.left = some [] := by
    intro i s₀ s' ready hne
    obtain ⟨j, hj⟩ := List.getElem?_of_mem hs
    have hij : i ≠ j := by
      rintro rfl
      obtain rfl := Option.some.inj (ready.symm.trans hj)
      exact hne hleft
    exact ⟨s, List.mem_of_getElem? ((List.getElem?_set_ne hij).trans hj), hleft⟩
  cases next with
  | close => exact ⟨s, List.mem_append_left _ hs, hleft⟩
  | look ready => exact hset ready nofun
  | fail ready next =>
    refine hset ready fun h => ?_
    rw [Option.some.inj h] at next
    cases next
  | _ => exact ⟨s, hs, hleft⟩

/-- Once the sweep has gone through, nothing is pending any more. -/
theorem Through.run (through : b.Through) (run : Run b es b') : b'.Through := by
  induction run with
  | refl => exact through
  | step _ next ih => exact ih.step next

/-- A closed correlator stays closed. -/
theorem Run.closed (run : Run b es b') (closed : b.correlator.closed = true) :
    b'.correlator.closed = true := by
  induction run with
  | refl => exact closed
  | step _ next ih => exact next.grows.1.closed ih

/-- A failing of all calls keeps its error, and as long as none begins there is no other error. -/
theorem Step.sweep_error (next : Step b es b') (same : b'.sweeps.length = b.sweeps.length)
    {s : Sweep} (hs : s ∈ b'.sweeps) : ∃ s₀ ∈ b.sweeps, s₀.error = s.error := by
  -- Without a new sweep every sweep has the error it began with.
  cases next with
  | close =>
    rw [List.length_append, List.length_singleton] at same
    omega
  | look ready | fail ready =>
    rcases List.mem_or_eq_of_mem_set hs with hs | rfl
    · exact ⟨s, hs, rfl⟩
    · exact ⟨_, List.mem_of_getElem? ready, rfl⟩
  | _ => exact ⟨s, hs, rfl⟩

/-- A call is failed with the error of a failing of all calls. -/
theorem Step.failed (next : Step b es b') {id : CallId} {e : CallError} {found : Bool}
    (told : .attempted id (.failure e) found ∈ es) : ∃ s ∈ b.sweeps, s.error = e := by
  cases next with
  | fail ready =>
    obtain ⟨-, hhow, -⟩ := CallEvent.attempted.injEq .. ▸ List.mem_singleton.1 told
    exact ⟨_, List.mem_of_getElem? ready, (Resolution.failure.inj hhow).symm⟩
  | post => unfold postEvents at told; split at told <;> simp at told
  | collect => unfold collectEvents at told; split at told <;> simp at told
  | _ => simp at told

/-- A call that will not be handed out. -/
inductive Hopeless : Making → Prop where
  | reserved {method : String} {args : List PlainValue} : Hopeless (.reserved method args)
  | failed {e : CallError} : Hopeless (.failed e)
  | over {e : CallError} : Hopeless (.over (.error e))

/-- When a failing of all calls is through, the session is closed. -/
theorem Sound.closed_of_through (sound : Sound replyTo tr b) (through : b.Through) :
    b.correlator.closed = true := by
  obtain ⟨s, hs, -⟩ := through
  exact (sound.swept s hs).1

/-- Only hopeless calls are pending. -/
theorem Sound.hopeless (sound : Sound replyTo tr b) (through : b.Through) {k : Nat} {m : Making}
    (hm : b.makings[k]? = some m) (pending : b.correlator.isPending (callAt k) = true) :
    Hopeless m := by
  obtain ⟨s, hs, hleft⟩ := through
  rcases (sound.swept s hs).2 [] hleft k m hm pending with hin | doomed
  · cases hin
  · cases doomed with
    | reserved => exact .reserved
    | failed => exact .failed

/-- While the session is closed a hopeless call stays so, and so are those that are made. -/
private theorem Step.hopeless (next : Step b es b') (closed : b.correlator.closed = true) {k : Nat}
    {m' : Making} (h : b'.makings[k]? = some m') :
    Hopeless m' ∨ ∃ m, b.makings[k]? = some m ∧ ¬Hopeless m := by
  -- Either the call was under way before, or what it does in this step is without hope.
  by_cases hopeless : ∃ m, b.makings[k]? = some m ∧ ¬Hopeless m
  · exact .inr hopeless
  · have hm : ∀ {m}, b.makings[k]? = some m → Hopeless m := fun hm =>
      Classical.byContradiction fun hnot => hopeless ⟨_, hm, hnot⟩
    refine .inl ?_
    rcases next.making h with hsame | ⟨m, hold, goes⟩ | ⟨-, ⟨method, args, rfl⟩, -⟩
    · exact hm hsame
    · have := hm hold
      -- The look whether the session is closed finds it so, and then nothing is sent.
      cases goes with
      | permit opened =>
        rw [closed] at opened
        cases opened
      | bar => exact .failed
      | refuse => exact .over
      | send | stop | give => cases this
    · exact .reserved

/-- On a closed correlator every call of the end of a run is hopeless, or was under way at its
start. -/
theorem Run.hopeless (run : Run b es b') (closed : b.correlator.closed = true) {k : Nat}
    {m' : Making} (h : b'.makings[k]? = some m') :
    Hopeless m' ∨ ∃ m, b.makings[k]? = some m ∧ ¬Hopeless m := by
  -- That the session stays closed goes through the induction as well.
  suffices b'.correlator.closed = true ∧ ∀ m', b'.makings[k]? = some m' →
      Hopeless m' ∨ ∃ m, b.makings[k]? = some m ∧ ¬Hopeless m from this.2 m' h
  clear h
  induction run with
  | refl =>
    refine ⟨closed, fun m' h => ?_⟩
    by_cases hopeless : Hopeless m'
    · exact .inl hopeless
    · exact .inr ⟨m', h, hopeless⟩
  | step _ next ih =>
    obtain ⟨hclosed, hmakings⟩ := ih
    refine ⟨next.grows.1.closed hclosed, fun m' h => ?_⟩
    -- A call without hope keeps to that, and another one was under way one step before.
    rcases next.hopeless hclosed h with hopeless | ⟨m, hm, hnot⟩
    · exact .inl hopeless
    · exact .inr ((hmakings m hm).resolve_left hnot)

/-- What a call that is handed out has come to was decided before the failing was through. -/
theorem Sound.decided (sound : Sound replyTo tr b) (through : b.Through) (run : Run b es b')
    (few : b'.makings.length ≤ 2 ^ 64) {k : Nat} (handed : b'.makings[k]? = some (.over (.ok ()))) :
    ∃ how, .attempted (callAt k) how true ∈ tr ∧
      (∀ r, .collected (callAt k) r ∈ es → r = how.outcome) ∧
      (b'.correlator.collect (callAt k)).1 ≠ .pending := by
  obtain ⟨hlength, hnumbers⟩ := run.grows
  have sound' := sound.run run few
  -- The call had been made, and would not have been handed out if it had been hopeless.
  rcases run.hopeless (sound.closed_of_through through) handed with hopeless | ⟨m, hm, hnot⟩
  · cases hopeless
  have hout : b.correlator.isPending (callAt k) = false :=
    Bool.eq_false_iff.2 fun pending => hnot (sound.hopeless through hm pending)
  have stays : ∀ e, .refused (callAt k) e ∉ es := fun e he =>
    sound'.not_refused few handed e (List.mem_append_right _ he)
  obtain ⟨pre, since, rfl, -, ⟨⟨e, rfl⟩, -⟩ | fate⟩ := sound.entries k m hm
  · exact absurd .over hnot
  have fate' := run.fate sound.numbers few (lt_of_getElem? hm) stays fate
  cases fate with
  | pending _ there =>
    rw [there] at hout
    cases hout
  | resolved how later first late out shown =>
    -- The first attempt was made before, so it is still the first.
    cases fate' with
    | pending untried =>
      rw [CallTrace.attempts_append, first] at untried
      cases untried
    | resolved how' later' first' late' out' shown' =>
      rw [CallTrace.attempts_append, first, List.cons_append] at first'
      obtain ⟨rfl, -⟩ := Prod.mk.injEq .. ▸ (List.cons.inj first').1
      have hfirst : (how, true) ∈ CallTrace.attempts since (callAt k) := by
        rw [first]
        exact List.mem_cons_self
      refine ⟨how, List.mem_append_right _ (List.mem_cons_of_mem _ (CallTrace.mem_attempts.1 hfirst)),
        fun r hr => ?_, ?_⟩
      · have hr' : r ∈ CallTrace.outcomes (since ++ es) (callAt k) :=
          CallTrace.mem_outcomes.2 (List.mem_append_right _ hr)
        rcases shown' with ⟨htaken, -⟩ | ⟨hnone, -⟩
        · rw [htaken] at hr'
          exact List.mem_singleton.1 hr'
        · rw [hnone] at hr'
          cases hr'
      · rcases shown' with ⟨-, h⟩ | ⟨-, h | ⟨-, h⟩⟩ <;> rw [h] <;> nofun

/-- A call that somebody waits for when a failing begins has been ended when it is through. -/
theorem Sound.ended (sound : Sound replyTo tr b) (run : Run b es b')
    (few : b'.makings.length ≤ 2 ^ 64) (through : b'.Through) {k : Nat}
    (handed : b.makings[k]? = some (.over (.ok ())))
    (waits : (b.correlator.collect (callAt k)).1 = .pending) :
    (∃ how later, es.attempts (callAt k) = (how, true) :: later) ∧
      ∀ es' b'', Run b' es' b'' → b''.makings.length ≤ 2 ^ 64 →
        b''.correlator.Fate (callAt k) (es ++ es') := by
  have there : b.correlator.isPending (callAt k) = true := by
    obtain ⟨r, c', heq, collects⟩ := b.correlator.collects (callAt k)
    rw [heq] at waits
    obtain rfl : r = .pending := waits
    cases collects with
    | pending _ there => exact there
  have fate : b.correlator.Fate (callAt k) [] := .pending rfl there rfl (.inl waits)
  have hfate : ∀ {es' b''}, Run b es' b'' → b''.makings.length ≤ 2 ^ 64 →
      b''.correlator.Fate (callAt k) es' := fun {es' b''} run few => by
    refine run.fate sound.numbers few (lt_of_getElem? handed) (fun e he => ?_) fate
    exact (sound.run run few).not_refused few (run.over handed) e (List.mem_append_right _ he)
  refine ⟨?_, fun es' b'' after few' => hfate (run.trans after) few'⟩
  -- It is not hopeless, so it is not pending any more.
  cases hfate run few with
  | pending _ there' =>
    cases (sound.run run few).hopeless through (run.over handed) there'
  | resolved how later first => exact ⟨how, later, first⟩

end Desk

end StreamRpc
