import StreamRpc.Proofs.Call.Overlap

/-! # What becomes of a call

Everything that can happen to a call is an access to its own entries among the pending calls and the
tickets.  The first attempt to end it takes it off the pending ones and decides what its ticket
shows; every later attempt finds nothing.

* `Correlator.Attempt`   what an answer, a cancellation and a failure have in common
* `Correlator.Fate`      what has become of a call since it got its number
* `Correlator.Touch`     what can happen to a call, and `Touch.fate`, what becomes of it then
-/

namespace StreamRpc

open Client (callAt)

namespace Correlator

/-! ## Pending calls and tickets after each operation -/

/-- The next id is the one of the calls numbered so far. -/
theorem nextId_eq (c : Correlator) : c.nextId = callAt c.numbered := rfl

/-- A reservation makes the next id pending and leaves the others as they were. -/
theorem isPending_reserve (c : Correlator) (id : CallId) :
    c.reserve.2.isPending id = (id == c.nextId || c.isPending id) := by
  show (c.pending.insert c.nextId).contains id = _
  rw [Std.ExtTreeSet.contains_insert]
  congr 1
  by_cases h : id = c.nextId
  · simp [h]
  · have hc : compare c.nextId id ≠ .eq := fun hc => h (Std.LawfulEqOrd.eq_of_compare hc).symm
    simp [h, hc]

/-- A retraction makes the id not pending and leaves the others as they were. -/
theorem isPending_retract (c : Correlator) (id other : CallId) :
    (c.retract id).isPending other = (c.isPending other && other != id) :=
  c.isPending_withdraw id other

/-- A look at a ticket takes it or leaves everything as it is. -/
theorem collect_cases (c : Correlator) (id : CallId) :
    (c.collect id).2 = c ∨ (c.collect id).2 = { c with tickets := c.tickets.erase id } := by
  obtain ⟨r, c', heq, collects⟩ := c.collects id
  rw [heq]
  cases collects with
  | gone | pending => exact .inl rfl
  | taken | lost => exact .inr rfl

/-- Dropping a ticket does nothing or forgets the ticket. -/
theorem dropTicket_cases (c : Correlator) (id : CallId) :
    (c.dropTicket id).2.2 = c ∨
      (c.dropTicket id).2.2 = { c with tickets := c.tickets.erase id } := by
  unfold dropTicket
  split
  · exact .inl rfl
  · exact .inr rfl

/-- Collecting a ticket does not touch the pending map. -/
theorem isPending_collect (c : Correlator) (id other : CallId) :
    (c.collect id).2.isPending other = c.isPending other := by
  rcases c.collect_cases id with h | h <;> rw [h]
  rfl

/-- Dropping a ticket does not touch the pending map. -/
theorem isPending_dropTicket (c : Correlator) (id other : CallId) :
    (c.dropTicket id).2.2.isPending other = c.isPending other := by
  rcases c.dropTicket_cases id with h | h <;> rw [h]
  rfl

/-- An insertion leaves the tickets of the other calls. -/
theorem getElem?_insert_of_ne {m : Std.ExtTreeMap CallId Ticket} {id other : CallId} {t : Ticket}
    (h : other ≠ id) : (m.insert id t)[other]? = m[other]? := by
  rw [Std.ExtTreeMap.getElem?_insert, if_neg]
  exact fun hc => h (Std.LawfulEqOrd.eq_of_compare hc).symm

/-- An erasure leaves the tickets of the other calls. -/
theorem getElem?_erase_of_ne {m : Std.ExtTreeMap CallId Ticket} {id other : CallId}
    (h : other ≠ id) : (m.erase id)[other]? = m[other]? := by
  rw [Std.ExtTreeMap.getElem?_erase, if_neg]
  exact fun hc => h (Std.LawfulEqOrd.eq_of_compare hc).symm

/-- Settling a ticket leaves the tickets of the other calls. -/
private theorem tickets_settle_of_ne (c : Correlator) {id other : CallId} (h : other ≠ id)
    (r : Except CallError ClientValue) : (c.settle id r).2.tickets[other]? = c.tickets[other]? := by
  rcases c.settle_cases id r with ⟨-, hc⟩ | ⟨-, hc⟩ <;> rw [hc]
  exact getElem?_insert_of_ne h

/-- A call without a ticket gets none by being settled: its outcome is lost. -/
private theorem tickets_settle_of_none {c : Correlator} {id : CallId} (h : c.tickets[id]? = none)
    (r : Except CallError ClientValue) : (c.settle id r).2.tickets[id]? = none := by
  simp only [settle, h]

/-- Collecting a ticket leaves the tickets of the other calls. -/
theorem tickets_collect_of_ne (c : Correlator) {id other : CallId} (h : other ≠ id) :
    (c.collect id).2.tickets[other]? = c.tickets[other]? := by
  rcases c.collect_cases id with hc | hc <;> rw [hc]
  exact getElem?_erase_of_ne h

/-- Dropping a ticket leaves the tickets of the other calls. -/
theorem tickets_dropTicket_of_ne (c : Correlator) {id other : CallId} (h : other ≠ id) :
    (c.dropTicket id).2.2.tickets[other]? = c.tickets[other]? := by
  rcases c.dropTicket_cases id with hc | hc <;> rw [hc]
  exact getElem?_erase_of_ne h

/-- What looking for an outcome shows depends on the call's own entries. -/
private theorem collect_congr {c c' : Correlator} {id : CallId}
    (pending : c'.isPending id = c.isPending id) (tickets : c'.tickets[id]? = c.tickets[id]?) :
    (c'.collect id).1 = (c.collect id).1 := by
  unfold collect
  rw [pending, tickets]
  split
  · rfl
  · rfl
  · split <;> rfl

/-- Without a ticket there is nothing to collect. -/
private theorem collect_of_none {c : Correlator} {id : CallId} (h : c.tickets[id]? = none) :
    (c.collect id).1 = .gone := by
  simp only [collect, h]

/-- A collection that finds nothing had no ticket. -/
private theorem none_of_gone {c : Correlator} {id : CallId} (h : (c.collect id).1 = .gone) :
    c.tickets[id]? = none := by
  obtain ⟨r, c', heq, collects⟩ := c.collects id
  rw [heq] at h
  obtain rfl : r = .gone := h
  cases collects with
  | gone ticket => exact ticket

/-- A collection that has to wait found a waiting ticket. -/
theorem waiting_of_pending {c : Correlator} {id : CallId} (h : (c.collect id).1 = .pending) :
    c.tickets[id]? = some .waiting := by
  obtain ⟨r, c', heq, collects⟩ := c.collects id
  rw [heq] at h
  obtain rfl : r = .pending := h
  cases collects with
  | pending ticket => exact ticket

/-- The ticket of an outcome that is taken is gone, and nothing else changes a ticket. -/
private theorem collect_collect (c : Correlator) (id : CallId) :
    ((c.collect id).2.collect id).1 =
      match (c.collect id).1 with
      | .outcome _ => .gone
      | shown => shown := by
  -- Whatever showed, the ticket is gone when it has been taken.
  have hgone : (Correlator.collect { c with tickets := c.tickets.erase id } id).1 = .gone :=
    collect_of_none Std.ExtTreeMap.getElem?_erase_self
  obtain ⟨r, c', heq, collects⟩ := c.collects id
  rw [heq]
  cases collects with
  | gone | pending => exact congrArg Prod.fst heq
  | taken | lost => exact hgone

/-- After its ticket is dropped a call's outcome can no longer be collected. -/
private theorem collect_dropTicket (c : Correlator) (id : CallId) :
    ((c.dropTicket id).2.2.collect id).1 = .gone := by
  refine collect_of_none ?_
  unfold dropTicket
  split
  · assumption
  · exact Std.ExtTreeMap.getElem?_erase_self

/-! ## Attempts to end a call -/

/-- What an attempt to end a call does. -/
structure Attempt (c : Correlator) (id : CallId) (how : Resolution) (found : Bool)
    (c' : Correlator) : Prop where
  kept : c.Kept c'
  numbered : c'.numbered = c.numbered
  found : found = c.isPending id
  pending : ∀ other, c'.isPending other = (c.isPending other && other != id)
  others : ∀ other, other ≠ id → c'.tickets[other]? = c.tickets[other]?
  /-- Whoever waits for the call sees how it ended. -/
  hit : c.isPending id = true → c.tickets[id]? = some .waiting →
    (c'.collect id).1 = .outcome how.outcome
  /-- A call that is not pending stays as it is, … -/
  missed : c.isPending id = false → c'.tickets[id]? = c.tickets[id]?
  /-- … and a ticket that is gone does not come back. -/
  gone : c.tickets[id]? = none → c'.tickets[id]? = none

/-- An attempt that finds nothing pending changes nothing. -/
private theorem Attempt.of_missed {c : Correlator} {id : CallId} (how : Resolution)
    (h : c.isPending id = false) : Attempt c id how false c where
  kept := .refl c
  numbered := rfl
  found := h.symm
  pending other := by
    by_cases ho : other = id
    · simp [ho, h]
    · simp [ho]
  others _ _ := rfl
  hit hp := by rw [h] at hp; cases hp
  missed _ := rfl
  gone hn := hn

/-- A pending call is withdrawn, and its ticket gets the outcome. -/
private theorem Attempt.of_settled {c : Correlator} {id : CallId} {how : Resolution}
    (h : c.isPending id = true) :
    Attempt c id how true ((c.withdraw id).settle id how.outcome).2 where
  kept := (c.settle_withdraw id how.outcome).2.2.1
  numbered := (c.settle_withdraw id how.outcome).2.2.2
  found := h.symm
  pending other := by rw [isPending_settle, isPending_withdraw]
  others other ho := (c.withdraw id).tickets_settle_of_ne ho how.outcome
  -- The ticket still waits after the withdrawal, so the outcome is put there.
  hit _ hw := by
    have hw' : (c.withdraw id).tickets[id]? = some .waiting := hw
    simp only [settle, hw', collect, Std.ExtTreeMap.getElem?_insert_self]
  missed hp := by rw [h] at hp; cases hp
  gone hn := tickets_settle_of_none (c := c.withdraw id) hn how.outcome

/-- Resolving a call is an attempt to settle it by an answer. -/
theorem attempt_resolve (c : Correlator) (id : CallId) (result : Except Failure ClientValue) :
    Attempt c id (.answer result) (c.resolve id result).1 (c.resolve id result).2.2 := by
  unfold resolve
  split
  · next h => exact .of_settled h
  · next h => exact .of_missed _ (by simpa using h)

/-- Failing a call is an attempt to settle it by an error. -/
theorem attempt_fail (c : Correlator) (id : CallId) (e : CallError) :
    Attempt c id (.failure e) (c.isPending id) (c.fail e id) := by
  unfold fail
  -- Whether the call is pending decides if this attempt is the one that counts.
  split
  · next h =>
    rw [h]
    exact .of_settled h
  · next h =>
    rw [Bool.not_eq_true] at h
    rw [h]
    exact .of_missed _ h

/-- Cancelling a call is an attempt that settles nothing. -/
theorem attempt_cancel (c : Correlator) (id : CallId) :
    Attempt c id .cancel (c.cancel id).1 (c.cancel id).2 where
  kept := ⟨rfl, rfl, fun h => h⟩
  numbered := rfl
  found := rfl
  pending other := c.isPending_withdraw id other
  others _ _ := rfl
  -- A call that is given up has no outcome of its own: whoever collects it finds it gone.
  hit hp hw := by
    have hw' : (c.withdraw id).tickets[id]? = some .waiting := hw
    have hout : (c.withdraw id).isPending id = false := by rw [isPending_withdraw]; simp
    simp only [cancel, collect, hw', hout]
    rfl
  missed _ := rfl
  gone hn := hn

/-! ## What becomes of a call -/

/-- What has become of a call that was not taken back, if this was told since it got its number. -/
inductive Fate (c : Correlator) (id : CallId) (since : CallTrace) : Prop where
  /-- Nobody has tried to end it, and it is pending. -/
  | pending (untried : since.attempts id = []) (there : c.isPending id = true)
      (untaken : since.outcomes id = [])
      (shown : (c.collect id).1 = .pending ∨ .dropped id ∈ since ∧ (c.collect id).1 = .gone)
  /-- The first attempt has ended it, and no other has found it. -/
  | resolved (how : Resolution) (later : List (Resolution × Bool))
      (first : since.attempts id = (how, true) :: later) (late : ∀ a ∈ later, a.2 = false)
      (out : c.isPending id = false)
      (shown : since.outcomes id = [how.outcome] ∧ (c.collect id).1 = .gone ∨
        since.outcomes id = [] ∧ ((c.collect id).1 = .outcome how.outcome ∨
          .dropped id ∈ since ∧ (c.collect id).1 = .gone))

variable {c c' : Correlator} {id : CallId} {since es : CallTrace}

/-- A call that has just been reserved is pending with an empty history. -/
theorem fate_reserve (c : Correlator) : c.reserve.2.Fate c.nextId [] := by
  have hp : c.reserve.2.isPending c.nextId = true := by simp [isPending_reserve]
  refine .pending rfl hp rfl (.inl ?_)
  have ht : c.reserve.2.tickets[c.nextId]? = some .waiting := Std.ExtTreeMap.getElem?_insert_self
  simp only [collect, ht, hp, if_true]

/-- Nothing happened to the call. -/
private theorem Fate.rest (fate : c.Fate id since) (pending : c'.isPending id = c.isPending id)
    (tickets : c'.tickets[id]? = c.tickets[id]?) (untried : es.attempts id = [])
    (untaken : es.outcomes id = []) : c'.Fate id (since ++ es) := by
  have hcollect := collect_congr pending tickets
  have hdropped : .dropped id ∈ since → .dropped id ∈ since ++ es := List.mem_append_left es
  -- What has been tried and taken stays the same, so the case stays the same too.
  cases fate with
  | pending hno hthere hnone hshown =>
    refine .pending (by simp [hno, untried]) (pending.trans hthere) (by simp [hnone, untaken]) ?_
    rw [hcollect]
    exact hshown.imp_right fun h => ⟨hdropped h.1, h.2⟩
  | resolved how later hfirst hlate hout hshown =>
    refine .resolved how later
      (by rw [CallTrace.attempts_append, untried, List.append_nil, hfirst]) hlate
      (pending.trans hout) ?_
    rw [hcollect, CallTrace.outcomes_append, untaken, List.append_nil]
    exact hshown.imp_right fun h => ⟨h.1, h.2.imp_right fun h => ⟨hdropped h.1, h.2⟩⟩

/-- An attempt extends the history of a call by itself, and keeps what the history says. -/
private theorem Fate.attempt {how : Resolution} {found : Bool} (fate : c.Fate id since)
    (attempt : Attempt c id how found c') : c'.Fate id (since ++ [.attempted id how found]) := by
  have hattempts : CallTrace.attempts [.attempted id how found] id = [(how, found)] := by
    simp [CallTrace.attempts, CallEvent.attempt?]
  have hnone : CallTrace.outcomes [.attempted id how found] id = [] := rfl
  have hout : c'.isPending id = false := by simp [attempt.pending]
  cases fate with
  | pending hno hthere huntaken hshown =>
    -- The first attempt finds the call and decides what its ticket shows.
    obtain rfl : found = true := attempt.found.trans hthere
    refine .resolved how [] (by rw [CallTrace.attempts_append, hno, hattempts, List.nil_append])
      (by simp) hout (.inr ⟨by rw [CallTrace.outcomes_append, huntaken, hnone]; rfl, ?_⟩)
    rcases hshown with hshown | ⟨hdropped, hgone⟩
    · exact .inl (attempt.hit hthere (waiting_of_pending hshown))
    · exact .inr ⟨List.mem_append_left _ hdropped,
        collect_of_none (attempt.gone (none_of_gone hgone))⟩
  | resolved how₀ later hfirst hlate hgone hshown =>
    -- A later one finds nothing and leaves the ticket as it is.
    obtain rfl : found = false := attempt.found.trans hgone
    have hcollect : (c'.collect id).1 = (c.collect id).1 :=
      collect_congr (hout.trans hgone.symm) (attempt.missed hgone)
    refine .resolved how₀ (later ++ [(how, false)])
      (by rw [CallTrace.attempts_append, hfirst, hattempts, List.cons_append]) ?_ hout ?_
    · intro a ha
      rcases List.mem_append.1 ha with ha | ha
      · exact hlate a ha
      · rw [List.mem_singleton.1 ha]
    · rw [hcollect, CallTrace.outcomes_append, hnone, List.append_nil]
      exact hshown.imp_right fun h =>
        ⟨h.1, h.2.imp_right fun h => ⟨List.mem_append_left _ h.1, h.2⟩⟩

/-- A collection is not an attempt to resolve anything. -/
private theorem attempts_collectEvents (c : Correlator) (id other : CallId) :
    CallTrace.attempts (Desk.collectEvents c id) other = [] := by
  unfold Desk.collectEvents; split <;> rfl

/-- A collection extends the history of a call, and keeps what the history says. -/
private theorem Fate.collect (fate : c.Fate id since) :
    (c.collect id).2.Fate id (since ++ Desk.collectEvents c id) := by
  have hpending := c.isPending_collect id id
  have hattempts : CallTrace.attempts (since ++ Desk.collectEvents c id) id = since.attempts id := by
    rw [CallTrace.attempts_append, attempts_collectEvents, List.append_nil]
  have hcollect := c.collect_collect id
  cases fate with
  | pending hno hthere huntaken hshown =>
    -- Nothing can be taken yet.
    have hes : Desk.collectEvents c id = [] := by
      unfold Desk.collectEvents
      rcases hshown with h | ⟨-, h⟩ <;> rw [h]
    rw [hes, List.append_nil] at hattempts ⊢
    refine .pending hno (hpending.trans hthere) huntaken ?_
    rcases hshown with h | ⟨hdropped, h⟩
    · exact .inl (by rw [hcollect, h])
    · exact .inr ⟨hdropped, by rw [hcollect, h]⟩
  | resolved how later hfirst hlate hout hshown =>
    refine .resolved how later (hattempts.trans hfirst) hlate (hpending.trans hout) ?_
    rw [CallTrace.outcomes_append, hcollect]
    unfold Desk.collectEvents
    -- The outcome was taken before, is there to be taken, or went with the ticket.
    rcases hshown with ⟨htaken, h⟩ | ⟨hnone, h | ⟨hdropped, h⟩⟩
    · rw [h]
      exact .inl ⟨by rw [htaken]; rfl, rfl⟩
    · -- This is the step that takes the outcome.
      rw [h]
      refine .inl ⟨?_, rfl⟩
      rw [hnone]
      simp [CallTrace.outcomes, CallEvent.outcome?]
    · rw [h]
      exact .inr ⟨by rw [hnone]; rfl, .inr ⟨List.mem_append_left _ hdropped, rfl⟩⟩

/-- Dropping the ticket extends the history of a call, and keeps what the history says. -/
private theorem Fate.drop (fate : c.Fate id since) :
    (c.dropTicket id).2.2.Fate id (since ++ [.dropped id]) := by
  have hpending := c.isPending_dropTicket id id
  have hgone := c.collect_dropTicket id
  have hdropped : CallEvent.dropped id ∈ since ++ [.dropped id] :=
    List.mem_append_right _ (List.mem_singleton_self _)
  have hattempts : CallTrace.attempts (since ++ [.dropped id]) id = since.attempts id := by
    rw [CallTrace.attempts_append]
    exact List.append_nil _
  have houtcomes : CallTrace.outcomes (since ++ [.dropped id]) id = since.outcomes id := by
    rw [CallTrace.outcomes_append]
    exact List.append_nil _
  cases fate with
  | pending hno hthere huntaken hshown =>
    exact .pending (hattempts.trans hno) (hpending.trans hthere) (houtcomes.trans huntaken)
      (.inr ⟨hdropped, hgone⟩)
  | resolved how later hfirst hlate hout hshown =>
    refine .resolved how later (hattempts.trans hfirst) hlate (hpending.trans hout) ?_
    rw [houtcomes]
    -- Either way the ticket is gone now.
    rcases hshown with ⟨htaken, -⟩ | ⟨hnone, -⟩
    · exact .inl ⟨htaken, hgone⟩
    · exact .inr ⟨hnone, .inr ⟨hdropped, hgone⟩⟩

/-- What a step can do to a call that it does not take back. -/
inductive Touch (c : Correlator) (id : CallId) : CallTrace → Correlator → Prop where
  | rest {es : CallTrace} {c' : Correlator} (pending : c'.isPending id = c.isPending id)
      (tickets : c'.tickets[id]? = c.tickets[id]?) (untried : es.attempts id = [])
      (untaken : es.outcomes id = []) : Touch c id es c'
  | attempt {how : Resolution} {found : Bool} {c' : Correlator}
      (attempt : Attempt c id how found c') : Touch c id [.attempted id how found] c'
  | collect : Touch c id (Desk.collectEvents c id) (c.collect id).2
  | drop : Touch c id [.dropped id] (c.dropTicket id).2.2

/-- Whatever touches a call extends its history and keeps what the history says. -/
theorem Touch.fate (touch : Touch c id es c') (fate : c.Fate id since) :
    c'.Fate id (since ++ es) := by
  cases touch with
  | rest pending tickets untried untaken => exact fate.rest pending tickets untried untaken
  | attempt attempt => exact fate.attempt attempt
  | collect => exact fate.collect
  | drop => exact fate.drop

/-- A call that is not pending does not become pending by being touched. -/
theorem Touch.out (touch : Touch c id es c') (out : c.isPending id = false) :
    c'.isPending id = false := by
  cases touch with
  | rest pending => exact pending.trans out
  | attempt attempt => simp [attempt.pending]
  | collect => exact (c.isPending_collect id id).trans out
  | drop => exact (c.isPending_dropTicket id id).trans out

end Correlator

end StreamRpc
