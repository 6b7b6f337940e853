import StreamRpc.Proofs.Client.Answers

/-! # A ticket is taken once

A call gets its ticket together with its number, and the ticket is gone once the outcome was taken.
As long as there are enough numbers no ticket comes twice, so a call has one outcome at most.

* `Client.Step.tickets`      what a step does to the tickets
* `Client.submit_told`       what making a call comes to
* `Client.Run.outcomes_eq`   an outcome that was taken is the only one
-/

namespace StreamRpc

/-- The outcome of this call that was taken. -/
def ClientEvent.outcome? (id : CallId) : ClientEvent → Option (Except CallError ClientValue)
  | collected other r => if id = other then some r else none
  | _ => none

namespace ClientTrace

/-- The outcomes of a call that were taken, in order. -/
def outcomes (tr : ClientTrace) (id : CallId) : List (Except CallError ClientValue) :=
  tr.filterMap (ClientEvent.outcome? id)

/-- Outcomes are read off a trace piece by piece. -/
@[simp] theorem outcomes_append (tr tr' : ClientTrace) (id : CallId) :
    outcomes (tr ++ tr') id = outcomes tr id ++ outcomes tr' id :=
  List.filterMap_append

/-- An outcome was collected when the trace has it. -/
private theorem mem_outcomes {tr : ClientTrace} {id : CallId} {r : Except CallError ClientValue} :
    r ∈ tr.outcomes id ↔ .collected id r ∈ tr := by
  constructor
  · intro h
    obtain ⟨x, hx, heq⟩ := List.mem_filterMap.1 h
    -- Only a collection of the same call gives an outcome.
    cases x with
    | collected other r' =>
      simp only [ClientEvent.outcome?] at heq
      split at heq
      · next hid =>
        obtain rfl := Option.some.inj heq
        exact hid ▸ hx
      · cases heq
    | _ => cases heq
  · exact fun h => List.mem_filterMap.2 ⟨_, h, if_pos rfl⟩

end ClientTrace

/-! ## Tickets of a session -/

namespace Correlator

/-- No ticket is new. -/
def Sheds (c c' : Correlator) : Prop :=
  ∀ id ∈ c'.tickets, id ∈ c.tickets

/-- Nothing done makes no ticket. -/
theorem Sheds.refl (c : Correlator) : c.Sheds c := fun _ h => h

/-- Two changes that make no ticket are one. -/
theorem Sheds.trans {c c' c'' : Correlator} (h : c.Sheds c') (h' : c'.Sheds c'') : c.Sheds c'' :=
  fun id hid => h id (h' id hid)

/-- Forgetting a ticket makes none. -/
private theorem sheds_of_erase {c c' : Correlator} {id : CallId}
    (h : c'.tickets = c.tickets.erase id) :
    c.Sheds c' := fun other hother => by
  rw [h, Std.ExtTreeMap.mem_erase] at hother
  exact hother.2

/-- An outcome is put on a ticket that is there. -/
private theorem sheds_settle (c : Correlator) (id : CallId) (r : Except CallError ClientValue) :
    c.Sheds (c.settle id r).2 := by
  rcases c.settle_cases id r with ⟨hw, heq⟩ | ⟨-, heq⟩ <;> rw [heq]
  · intro other hother
    rcases Std.ExtTreeMap.mem_insert.1 hother with hc | h
    · obtain rfl := Std.LawfulEqOrd.eq_of_compare hc
      exact Std.ExtTreeMap.mem_iff_isSome_getElem?.2 (by rw [hw]; rfl)
    · exact h
  · exact .refl c

/-- A resolution makes no ticket. -/
private theorem sheds_resolve (c : Correlator) (id : CallId) (r : Except Failure ClientValue) :
    c.Sheds (c.resolve id r).2.2 := by
  unfold resolve
  split
  · exact (c.withdraw id).sheds_settle id (r.mapError .remote)
  · exact .refl c

/-- Failing all calls makes no ticket. -/
private theorem sheds_failAll (c : Correlator) (e : CallError) : c.Sheds (c.failAll e) := by
  have hfold : ∀ (ids : List CallId) (c : Correlator),
      c.Sheds (ids.foldl (fun c id => c.fail e id) c) := by
    intro ids
    induction ids with
    | nil => exact .refl
    | cons id ids ih =>
      intro c
      -- One call after another is withdrawn and settled, which makes no ticket.
      have hfail : c.Sheds (c.fail e id) := by
        unfold fail
        split
        · exact (c.withdraw id).sheds_settle id (.error e)
        · exact .refl c
      exact hfail.trans (ih (c.fail e id))
  exact hfold c.pending.toList c.close

/-- Dropping a ticket makes none. -/
private theorem sheds_dropTicket (c : Correlator) (id : CallId) :
    c.Sheds (c.dropTicket id).2.2 := by
  unfold dropTicket
  split
  · exact .refl c
  · exact sheds_of_erase rfl

/-- A collection makes no ticket. -/
private theorem sheds_collect (c : Correlator) (id : CallId) : c.Sheds (c.collect id).2 := by
  obtain ⟨r, c', heq, collects⟩ := c.collects id
  rw [heq]
  cases collects with
  | gone | pending => exact .refl c
  | taken | lost => exact sheds_of_erase rfl

/-- The ticket whose outcome is taken was there, and is gone. -/
private theorem collect_outcome {c : Correlator} {id : CallId} {r : Except CallError ClientValue}
    (h : (c.collect id).1 = .outcome r) : id ∈ c.tickets ∧ id ∉ (c.collect id).2.tickets := by
  have hgone : id ∉ c.tickets.erase id := by simp
  have hthere : ∀ t, c.tickets[id]? = some t → id ∈ c.tickets := fun t ht =>
    Std.ExtTreeMap.mem_iff_isSome_getElem?.2 (by rw [ht]; rfl)
  obtain ⟨shown, c', heq, collects⟩ := c.collects id
  rw [heq] at h ⊢
  obtain rfl : shown = .outcome r := h
  -- Only a ticket that is there gives an outcome, and it goes with it.
  cases collects with
  | taken ticket => exact ⟨hthere _ ticket, hgone⟩
  | lost waiting => exact ⟨hthere _ waiting, hgone⟩

/-- Making a call makes one ticket at most. -/
private theorem mem_tickets_submit (c : Correlator) (method : String) (args : List PlainValue)
    (t : Transport) {id : CallId} (h : id ∈ (c.submit method args t).2.1.tickets) :
    id ∈ c.tickets ∨ id = c.nextId := by
  have hreserve : ∀ other ∈ c.reserve.2.tickets, other ∈ c.tickets ∨ other = c.nextId := by
    intro other hother
    rcases Std.ExtTreeMap.mem_insert.1 hother with heq | hmem
    · exact .inr (Std.LawfulEqOrd.eq_of_compare heq).symm
    · exact .inl hmem
  have hretract : c.reserve.2.Sheds (c.reserve.2.retract c.nextId) := sheds_of_erase rfl
  obtain ⟨r, c', t', heq, submits⟩ := c.submits method args t
  rw [heq] at h
  -- Only a call that was sent keeps the ticket reserved for it.
  cases submits with
  | sent => exact hreserve id h
  | _ => exact hreserve id (hretract id h)

end Correlator

namespace Client

/-! ## One step -/

/-- What a step does to the tickets of a session. -/
structure TicketStep (c : Client) (es : ClientTrace) (c' : Client) : Prop where
  numbered : c.correlator.numbered ≤ c'.correlator.numbered
  new : ∀ id ∈ c'.correlator.tickets, id ∈ c.correlator.tickets ∨
    id = callAt c.correlator.numbered ∧ c.correlator.numbered < c'.correlator.numbered
  taken : ∀ id r, .collected id r ∈ es → es = [.collected id r] ∧ id ∈ c.correlator.tickets ∧
    id ∉ c'.correlator.tickets

/-- A step that makes no ticket and collects nothing is a step of the tickets. -/
private theorem TicketStep.of_sheds {c c' : Client} {es : ClientTrace}
    (numbered : c.correlator.numbered ≤ c'.correlator.numbered)
    (sheds : c.correlator.Sheds c'.correlator) (hes : ∀ id r, .collected id r ∉ es) :
    TicketStep c es c' :=
  ⟨numbered, fun id hid => .inl (sheds id hid), fun id r h => absurd h (hes id r)⟩

/-- A disconnect makes no ticket. -/
private theorem sheds_disconnect (c : Client) (reason : String) :
    c.correlator.Sheds (c.disconnect reason).correlator := by
  unfold disconnect
  split
  · exact .refl _
  · exact c.correlator.sheds_failAll _

/-- Taking a message in makes and takes no tickets. -/
private theorem correlator_accept (c : Client) (e : Envelope) :
    (c.accept e).correlator = c.correlator := by
  obtain ⟨c', heq, accepts⟩ := c.accepts e
  rw [heq]
  cases accepts <;> rfl

/-- Every step of a client is a step of its tickets. -/
theorem Step.tickets {tr es : ClientTrace} {c c' : Client} (holds : Holds tr c)
    (next : Step tr c es c') : TicketStep c es c' := by
  have hnumbered : c.correlator.numbered ≤ c'.correlator.numbered := by
    obtain ⟨ids, -, ⟨h, -⟩ | ⟨h, -⟩⟩ := (next.effect holds).asks <;> omega
  cases next.does with
  | @resolve id result =>
    exact .of_sheds hnumbered (c.correlator.sheds_resolve id result) (by simp)
  | accept =>
    refine .of_sheds hnumbered ?_ (by simp)
    rw [correlator_accept]
    exact .refl _
  | lose => exact .of_sheds hnumbered (sheds_disconnect { c with inbox := none } _) (by simp)
  | depart => exact .of_sheds hnumbered (sheds_disconnect { c with departures := none } _) (by simp)
  | tell | hush | drop => exact .of_sheds hnumbered (.refl _) (by simp)
  | submit method args t =>
    -- The one ticket that is made is for the number that the call gets.
    have hnext := (c.correlator.submit_eq method args t).2.2.1
    refine ⟨hnumbered, fun id hid => ?_, fun id r h => ?_⟩
    · rcases c.correlator.mem_tickets_submit method args t hid with h | h
      · exact .inl h
      · exact .inr ⟨h, by
          show _ < (c.correlator.submit method args t).2.1.numbered
          omega⟩
    · simp at h
  -- What is collected has been on its ticket, and the ticket goes with it.
  | collect id =>
    refine ⟨hnumbered, fun other hother => .inl (c.correlator.sheds_collect id other hother),
      fun other r h => ?_⟩
    obtain ⟨r', hr, heq⟩ := mem_collectEvents.1 h
    obtain ⟨rfl, rfl⟩ := ClientEvent.collected.injEq .. ▸ heq
    obtain ⟨h1, h2⟩ := Correlator.collect_outcome hr
    exact ⟨by simp only [collectEvents, hr], h1, h2⟩
  | dropTicket id => exact .of_sheds hnumbered (c.correlator.sheds_dropTicket id) (by simp)
  | giveUp id =>
    have hdrop : (c.correlator.cancel id).2.Sheds _ :=
      (c.correlator.cancel id).2.sheds_dropTicket id
    exact .of_sheds hnumbered hdrop (by simp)
  | read given => exact .of_sheds hnumbered (.refl _) (by simp)
  | close t => exact .of_sheds hnumbered (sheds_disconnect c "client closed") (by simp)
  | abandon t =>
    exact .of_sheds hnumbered
      (sheds_disconnect ({ c with held := false }.halt t).1 "client dropped") (by simp)

/-! ## Making calls -/

/-- A call that got a number was sent, and what kept one from being sent is no answer. -/
theorem submit_told (c : Client) (method : String) (args : List PlainValue) (t : Transport) :
    (∀ id, (c.submit method args t).1 = .ok id →
        ∃ e, c.submitEvents method args t = [.asked id method args e]) ∧
      ∀ err, (c.submit method args t).1 = .error err → err.isRemote = false := by
  obtain ⟨r, correlator, t', heq, submits⟩ := c.correlator.submits method args t
  unfold submitEvents Client.submit
  simp only [heq]
  -- A call that was not sent fails on this side, and never as the other side would answer.
  cases submits with
  | @sent e _ _ written =>
    refine ⟨fun id h => ⟨e, ?_⟩, nofun⟩
    obtain rfl := Except.ok.inj h
    simp only [written]
  | _ =>
    refine ⟨nofun, fun err h => ?_⟩
    obtain rfl := Except.error.inj h
    rfl

/-! ## Runs -/

/-- The tickets that there are belong to calls that have been made, and an outcome is taken from a
    ticket that is not there any more. -/
structure Stubs (tr : ClientTrace) (c : Client) : Prop where
  made : ∀ id ∈ c.correlator.tickets, ∃ k < c.correlator.numbered, id = callAt k
  taken : ∀ id r, .collected id r ∈ tr →
    (∃ k < c.correlator.numbered, id = callAt k) ∧ id ∉ c.correlator.tickets
  once : ∀ id r, .collected id r ∈ tr → tr.outcomes id = [r]

/-- A step keeps tickets with calls that were made, and takes outcomes off for good. -/
private theorem Stubs.step {tr es : ClientTrace} {c c' : Client} (stubs : Stubs tr c)
    (next : TicketStep c es c') (few : c'.correlator.numbered ≤ 2 ^ 64) :
    Stubs (tr ++ es) c' := by
  have hnumbered := next.numbered
  have hmade : ∀ id, (∃ k < c.correlator.numbered, id = callAt k) →
      ∃ k < c'.correlator.numbered, id = callAt k := by
    rintro id ⟨k, hk, rfl⟩
    exact ⟨k, Nat.lt_of_lt_of_le hk hnumbered, rfl⟩
  refine ⟨fun id hid => ?_, fun id r h => ?_, fun id r h => ?_⟩
  · rcases next.new id hid with h | ⟨rfl, hlt⟩
    · exact hmade id (stubs.made id h)
    · exact ⟨_, hlt, rfl⟩
  -- A call answered before has no ticket, and it gets none back.
  · rcases List.mem_append.1 h with h | h
    · obtain ⟨hk, hgone⟩ := stubs.taken id r h
      refine ⟨hmade id hk, fun hthere => ?_⟩
      rcases next.new id hthere with hold | ⟨heq, hlt⟩
      · exact hgone hold
      · -- A call that was made before has another number.
        obtain ⟨k, hk, rfl⟩ := hk
        have := callAt_inj (by omega) (by omega) heq
        omega
    · obtain ⟨-, hthere, hgone⟩ := next.taken id r h
      exact ⟨hmade id (stubs.made id hthere), hgone⟩
  · rw [ClientTrace.outcomes_append]
    rcases List.mem_append.1 h with h | h
    · have hnone : ClientTrace.outcomes es id = [] := by
        refine List.eq_nil_iff_forall_not_mem.2 fun r' hr' => ?_
        obtain ⟨-, hthere, -⟩ := next.taken id r' (ClientTrace.mem_outcomes.1 hr')
        exact (stubs.taken id r h).2 hthere
      rw [hnone, List.append_nil, stubs.once id r h]
    · obtain ⟨hes, hthere, -⟩ := next.taken id r h
      -- It still had its ticket, so nothing was collected for it before.
      have hnone : tr.outcomes id = [] := by
        refine List.eq_nil_iff_forall_not_mem.2 fun r' hr' => ?_
        exact (stubs.taken id r' (ClientTrace.mem_outcomes.1 hr')).2 hthere
      rw [hnone, hes]
      simp [ClientTrace.outcomes, ClientEvent.outcome?]

/-- In a run tickets belong to calls that were made, and outcomes are taken off for good. -/
private theorem Run.stubs {c₀ c : Client} {tr : ClientTrace} (fresh : c₀.Fresh) (run : Run c₀ tr c)
    (few : c.correlator.numbered ≤ 2 ^ 64) : Stubs tr c := by
  induction run with
  | refl => exact ⟨fun id h => by simp [fresh.tickets] at h, by simp, by simp⟩
  | step run next ih =>
    have tickets := next.tickets (run.holds fresh)
    exact (ih (Nat.le_trans tickets.numbered few)).step tickets few

/-- The outcome of a call that was taken is the only one, as long as there are enough numbers. -/
theorem Run.outcomes_eq {c₀ c : Client} {tr : ClientTrace} (fresh : c₀.Fresh) (run : Run c₀ tr c)
    (few : c.correlator.numbered ≤ 2 ^ 64) {id : CallId} {r : Except CallError ClientValue}
    (h : .collected id r ∈ tr) : tr.outcomes id = [r] :=
  (run.stubs fresh few).once id r h

end Client

end StreamRpc
