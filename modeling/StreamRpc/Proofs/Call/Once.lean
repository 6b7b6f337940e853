import StreamRpc.Proofs.Call.Fate
import StreamRpc.Proofs.Envelope

/-! # A call ends once

However the operations on the calls of a session overlap, the first attempt to end a call after it
got its number decides what it comes to, and no later one finds it.  A call that is made while the
session is being closed either gets among those that are failed, because it was pending when it was
looked, or finds the session closed and is taken back.  So nothing is left pending.

* `Desk.Step.making`    how the making of a call goes on
* `Desk.Step.does`      what a step does to the calls, and what it tells
* `Desk.Step.touch`     what a step does to one call
* `Desk.Swept`          what keeps a call from being missed
* `Desk.calls_end_once` the calls of a session, however the operations on them overlap
-/

namespace StreamRpc

open Client (callAt callAt_inj)

namespace Desk

/-- What is told of a call that is made while the session is closed. -/
def lost : CallError :=
  .connectionLost "session closed"

/-! ## What a step does -/

/-- How the making of a call goes on. -/
inductive Goes (c : Correlator) (k : Nat) : Making → CallTrace → Making → Prop where
  | permit {method : String} {args : List PlainValue} (opened : c.closed = false) :
      Goes c k (.reserved method args) [] (.permitted method args)
  | bar {method : String} {args : List PlainValue} (closed : c.closed = true) :
      Goes c k (.reserved method args) [] (.failed lost)
  | send {method : String} {args : List PlainValue} :
      Goes c k (.permitted method args) (postEvents c (callAt k) method args) .sent
  | stop {method : String} {args : List PlainValue} (e : CallError) :
      Goes c k (.permitted method args) (postEvents c (callAt k) method args) (.failed e)
  | give : Goes c k .sent [.given (callAt k)] (.over (.ok ()))
  | refuse {e : CallError} : Goes c k (.failed e) [.refused (callAt k) e] (.over (.error e))

variable {serverQueue replyTo : String} {tr es : CallTrace} {b b' : Desk}

/-- After one call advances, each call is that one in its new state or one as it was. -/
private theorem getElem?_advance (b : Desk) {j k : Nat} {m m' : Making}
    (h : (b.advance k m).makings[j]? = some m') :
    j = k ∧ m' = m ∨ b.makings[j]? = some m' := by
  have h' : (b.makings.set k m)[j]? = some m' := h
  -- Only the making at this place is replaced.
  rw [List.getElem?_set] at h'
  split at h'
  · next hk =>
    split at h'
    · exact .inl ⟨hk.symm, (Option.some.inj h').symm⟩
    · cases h'
  · exact .inr h'

/-- What a step does to the makings: one begins, or one goes on. -/
theorem Step.making (next : Step b es b') {k : Nat} {m' : Making}
    (h : b'.makings[k]? = some m') :
    b.makings[k]? = some m' ∨ (∃ m, b.makings[k]? = some m ∧ Goes b.correlator k m es m') ∨
      k = b.makings.length ∧ (∃ method args, m' = .reserved method args) ∧
        es = [.reserved b.correlator.nextId] ∧ b'.correlator = b.correlator.reserve.2 := by
  cases next with
  | reserve method args =>
    rw [List.getElem?_append] at h
    split at h
    · exact .inl h
    · next hk =>
      obtain ⟨hlt, heq⟩ := List.getElem?_eq_some_iff.1 h
      rw [List.length_singleton] at hlt
      -- The one making that is added is the last, and has got no further than its number.
      refine .inr (.inr ⟨by omega, ⟨method, args, ?_⟩, rfl, rfl⟩)
      rw [← heq, List.getElem_singleton]
  -- These steps move one making on; any other making is the same as before.
  | @permit j method args ready =>
    rcases b.getElem?_advance h with ⟨rfl, rfl⟩ | h
    · refine .inr (.inl ⟨_, ready, ?_⟩)
      unfold Correlator.permit
      cases hc : b.correlator.closed with
      | true => exact .bar hc
      | false => exact .permit hc
    · exact .inl h
  | @post j method args ready t =>
    rcases b.getElem?_advance h with ⟨rfl, rfl⟩ | h
    · refine .inr (.inl ⟨_, ready, ?_⟩)
      split
      · exact .send
      · next e _ => exact .stop e
    · exact .inl h
  | give ready =>
    rcases b.getElem?_advance h with ⟨rfl, rfl⟩ | h
    · exact .inr (.inl ⟨_, ready, .give⟩)
    · exact .inl h
  | retract ready =>
    rcases b.getElem?_advance h with ⟨rfl, rfl⟩ | h
    · exact .inr (.inl ⟨_, ready, .refuse⟩)
    · exact .inl h
  | _ => exact .inl h

/-- A step begins one call at most, and what is settled for good stays. -/
theorem Step.grows (next : Step b es b') :
    b.correlator.Kept b'.correlator ∧
      (b'.correlator.numbered = b.correlator.numbered ∧ b'.makings.length = b.makings.length ∨
        b'.correlator.numbered = b.correlator.numbered + 1 ∧
          b'.makings.length = b.makings.length + 1) := by
  have hsame : ∀ k m, (b.advance k m).makings.length = b.makings.length := fun k m =>
    List.length_set
  -- Only a reservation makes a call and takes a number, and it does both.
  cases next with
  | reserve => exact ⟨⟨rfl, rfl, fun h => h⟩, .inr ⟨rfl, List.length_append⟩⟩
  | permit => exact ⟨.refl _, .inl ⟨rfl, hsame ..⟩⟩
  | post => exact ⟨.refl _, .inl ⟨rfl, hsame ..⟩⟩
  | give => exact ⟨.refl _, .inl ⟨rfl, hsame ..⟩⟩
  | retract => exact ⟨⟨rfl, rfl, fun h => h⟩, .inl ⟨rfl, hsame ..⟩⟩
  -- An attempt to end a call touches tickets and pending ids, not the numbers.
  | answer id result =>
    have attempt := b.correlator.attempt_resolve id result
    exact ⟨attempt.kept, .inl ⟨attempt.numbered, rfl⟩⟩
  | cancel id => exact ⟨⟨rfl, rfl, fun h => h⟩, .inl ⟨rfl, rfl⟩⟩
  | @collect k =>
    obtain ⟨-, hkept, hnumbered, -⟩ := b.correlator.collect_eq (callAt k)
    exact ⟨hkept, .inl ⟨hnumbered, rfl⟩⟩
  | @drop k =>
    obtain ⟨-, hkept, hnumbered, -⟩ := b.correlator.dropTicket_eq (callAt k)
    exact ⟨hkept, .inl ⟨hnumbered, rfl⟩⟩
  | close => exact ⟨⟨rfl, rfl, fun _ => rfl⟩, .inl ⟨rfl, rfl⟩⟩
  | look => exact ⟨.refl _, .inl ⟨rfl, rfl⟩⟩
  | @fail _ e _ id =>
    have attempt := b.correlator.attempt_fail id e
    exact ⟨attempt.kept, .inl ⟨attempt.numbered, rfl⟩⟩

/-- A call that is found has been made. -/
theorem lt_of_getElem? {k : Nat} {m : Making} (h : b.makings[k]? = some m) :
    k < b.makings.length :=
  (List.getElem?_eq_some_iff.1 h).1

/-- The call that advances is found in its new state. -/
private theorem getElem?_advance_self {k : Nat} {m : Making} (h : b.makings[k]? = some m)
    (m' : Making) :
    (b.advance k m').makings[k]? = some m' :=
  List.getElem?_set_self (lt_of_getElem? h)

/-- What a step does to the calls, and what it tells. -/
inductive Does (b b' : Desk) : CallTrace → Prop where
  | reserve (correlator : b'.correlator = b.correlator.reserve.2)
      (length : b'.makings.length = b.makings.length + 1) :
      Does b b' [.reserved b.correlator.nextId]
  /-- Every call is pending or not as it was, and shows what it showed. -/
  | rest (pending : b'.correlator.pending = b.correlator.pending)
      (tickets : b'.correlator.tickets = b.correlator.tickets) : Does b b' []
  | post {k : Nat} {method : String} {args : List PlainValue} {e : Envelope}
      (ready : b.makings[k]? = some (.permitted method args))
      (written : (b.correlator.request (callAt k) method args).toEnvelope = .ok e)
      (posted : b'.makings[k]? = some .sent ∨ ∃ err, b'.makings[k]? = some (.failed err))
      (correlator : b'.correlator = b.correlator) : Does b b' [.posted (callAt k) e]
  | give {k : Nat} (ready : b.makings[k]? = some .sent)
      (made : b'.makings[k]? = some (.over (.ok ())))
      (correlator : b'.correlator = b.correlator) : Does b b' [.given (callAt k)]
  | refuse {k : Nat} {e : CallError} (ready : b.makings[k]? = some (.failed e))
      (made : b'.makings[k]? = some (.over (.error e)))
      (correlator : b'.correlator = b.correlator.retract (callAt k)) :
      Does b b' [.refused (callAt k) e]
  | attempt {id : CallId} {how : Resolution} {found : Bool}
      (attempt : b.correlator.Attempt id how found b'.correlator) :
      Does b b' [.attempted id how found]
  | collect {k : Nat} {r : Except CallError ClientValue}
      (given : b.makings[k]? = some (.over (.ok ())))
      (outcome : (b.correlator.collect (callAt k)).1 = .outcome r)
      (correlator : b'.correlator = (b.correlator.collect (callAt k)).2) :
      Does b b' [.collected (callAt k) r]
  | drop {k : Nat} (given : b.makings[k]? = some (.over (.ok ())))
      (correlator : b'.correlator = (b.correlator.dropTicket (callAt k)).2.2) :
      Does b b' [.dropped (callAt k)]

/-- A collection that returns no outcome changes nothing. -/
private theorem collect_of_no_outcome {c : Correlator} {id : CallId}
    (h : ∀ r, (c.collect id).1 ≠ .outcome r) : (c.collect id).2 = c := by
  obtain ⟨r, c', heq, collects⟩ := c.collects id
  rw [heq] at h ⊢
  cases collects with
  | gone | pending => rfl
  | taken | lost => exact absurd rfl (h _)

/-- Every step does one of the things `Does` lists. -/
theorem Step.does (next : Step b es b') : Does b b' es := by
  cases next with
  | reserve => exact .reserve rfl List.length_append
  | permit => exact .rest rfl rfl
  | @post k method args ready t =>
    -- A request that cannot be written is not told of.
    unfold postEvents
    cases he : (b.correlator.request (callAt k) method args).toEnvelope with
    | ok e =>
      refine .post ready he ?_ rfl
      rw [getElem?_advance_self ready]
      split
      · exact .inl rfl
      · next err _ => exact .inr ⟨err, rfl⟩
    | error _ => exact .rest rfl rfl
  | give ready => exact .give ready (getElem?_advance_self ready _) rfl
  | retract ready => exact .refuse ready (getElem?_advance_self ready _) rfl
  | answer id result => exact .attempt (b.correlator.attempt_resolve id result)
  | cancel id => exact .attempt (b.correlator.attempt_cancel id)
  | @collect k given =>
    -- A collection that finds nothing changes nothing.
    unfold collectEvents
    split
    · next r hr => exact .collect given hr rfl
    · next hnone =>
      have hsame := collect_of_no_outcome hnone
      exact .rest (congrArg _ hsame) (congrArg _ hsame)
  | drop given => exact .drop given rfl
  | close => exact .rest rfl rfl
  | look => exact .rest rfl rfl
  | @fail _ e _ id => exact .attempt (b.correlator.attempt_fail id e)

/-- A step does to a call that was made before what its event says, unless it takes it back. -/
theorem Step.touch (next : Step b es b') (numbers : b.makings.length = b.correlator.numbered)
    (few : b'.makings.length ≤ 2 ^ 64) {k : Nat} (made : k < b.makings.length)
    (stays : ∀ e, .refused (callAt k) e ∉ es) :
    b.correlator.Touch (callAt k) es b'.correlator := by
  have hgrows := next.grows.2
  -- As long as there are enough numbers, different calls have different ones.
  have hne : ∀ {j}, j < b'.makings.length → j ≠ k → callAt k ≠ callAt j := fun hj hjk heq =>
    hjk (callAt_inj (by omega) (by omega) heq).symm
  cases next.does with
  | reserve correlator length =>
    rw [correlator]
    -- The new call has a number of its own.
    have hid : callAt k ≠ b.correlator.nextId := by
      rw [Correlator.nextId_eq, ← numbers]
      exact hne (by omega) (by omega)
    refine .rest ?_ (Correlator.getElem?_insert_of_ne hid) rfl rfl
    rw [Correlator.isPending_reserve, beq_eq_false_iff_ne.2 hid, Bool.false_or]
  | rest pending tickets =>
    refine .rest ?_ (by rw [tickets]) rfl rfl
    rw [Correlator.isPending, pending, Correlator.isPending]
  | post _ _ _ correlator => exact correlator ▸ .rest rfl rfl rfl rfl
  | give _ _ correlator => exact correlator ▸ .rest rfl rfl rfl rfl
  | @refuse j e _ _ correlator =>
    rw [correlator]
    -- The call that is taken back is another one, since its event would say so.
    have hid : callAt k ≠ callAt j := by
      intro heq
      exact stays e (by rw [heq]; exact List.mem_singleton_self _)
    refine .rest ?_ (Correlator.getElem?_erase_of_ne hid) rfl rfl
    rw [Correlator.isPending_retract, bne_iff_ne.2 hid, Bool.and_true]
  | @attempt id how found attempt =>
    by_cases hid : callAt k = id
    · subst hid
      exact .attempt attempt
    · refine .rest ?_ (attempt.others _ hid) ?_ rfl
      · rw [attempt.pending, bne_iff_ne.2 hid, Bool.and_true]
      · simp [CallTrace.attempts, CallEvent.attempt?, hid]
  | @collect j r given outcome correlator =>
    rw [correlator]
    by_cases hj : j = k
    · subst hj
      have hes : collectEvents b.correlator (callAt j) = [.collected (callAt j) r] := by
        simp only [collectEvents, outcome]
      exact hes ▸ .collect
    · have := lt_of_getElem? given
      have hid := hne (by omega) hj
      refine .rest (b.correlator.isPending_collect ..) (b.correlator.tickets_collect_of_ne hid) rfl ?_
      simp [CallTrace.outcomes, CallEvent.outcome?, hid]
  | @drop j given correlator =>
    rw [correlator]
    by_cases hj : j = k
    · subst hj
      exact .drop
    · have := lt_of_getElem? given
      exact .rest (b.correlator.isPending_dropTicket ..)
        (b.correlator.tickets_dropTicket_of_ne (hne (by omega) hj)) rfl rfl

/-- Only getting a number makes a call pending. -/
private theorem Step.pending (next : Step b es b') {id : CallId}
    (h : b'.correlator.isPending id = true) :
    b.correlator.isPending id = true ∨
      id = b.correlator.nextId ∧ b'.makings.length = b.makings.length + 1 := by
  -- Only a reservation makes a call pending; everything else takes some away or none.
  cases next.does with
  | reserve correlator length =>
    rw [correlator, Correlator.isPending_reserve, Bool.or_eq_true] at h
    rcases h with h | h
    · exact .inr ⟨by simpa using h, length⟩
    · exact .inl h
  | rest pending => exact .inl (by rwa [Correlator.isPending, pending] at h)
  | post _ _ _ correlator => exact .inl (by rwa [correlator] at h)
  | give _ _ correlator => exact .inl (by rwa [correlator] at h)
  | refuse _ _ correlator =>
    rw [correlator, Correlator.isPending_retract, Bool.and_eq_true] at h
    exact .inl h.1
  | attempt attempt =>
    rw [attempt.pending, Bool.and_eq_true] at h
    exact .inl h.1
  | collect _ _ correlator => exact .inl (by rwa [correlator, Correlator.isPending_collect] at h)
  | drop _ correlator => exact .inl (by rwa [correlator, Correlator.isPending_dropTicket] at h)

/-! ## What holds throughout -/

/-- The request of a call has not been handed to the transport. -/
inductive Early : Making → Prop where
  | reserved {method : String} {args : List PlainValue} : Early (.reserved method args)
  | permitted {method : String} {args : List PlainValue} : Early (.permitted method args)

/-- A call that will be taken back if the session is closed. -/
inductive Doomed : Making → Prop where
  | reserved {method : String} {args : List PlainValue} : Doomed (.reserved method args)
  | failed {e : CallError} : Doomed (.failed e)

/-- What was told of a call, and what has become of it. -/
def Entry (tr : CallTrace) (c : Correlator) (k : Nat) (m : Making) : Prop :=
  ∃ pre since, tr = pre ++ .reserved (callAt k) :: since ∧
    (∀ x ∈ pre, x.about? ≠ some (callAt k)) ∧
    (((∃ e, m = .over (.error e)) ∧ c.isPending (callAt k) = false) ∨ c.Fate (callAt k) since)

/-- A failing of all calls that has looked which are pending misses only calls that are not sent. -/
def Swept (b : Desk) : Prop :=
  ∀ s ∈ b.sweeps, b.correlator.closed = true ∧ ∀ ids, s.left = some ids →
    ∀ k m, b.makings[k]? = some m → b.correlator.isPending (callAt k) = true →
      callAt k ∈ ids ∨ Doomed m

/-- What holds of the operations on the calls of a session. -/
structure Sound (replyTo : String) (tr : CallTrace) (b : Desk) : Prop where
  numbers : b.makings.length = b.correlator.numbered
  address : b.correlator.replyTo = replyTo
  pending : ∀ id, b.correlator.isPending id = true → ∃ k < b.makings.length, id = callAt k
  about : ∀ x ∈ tr, ∀ id, x.about? = some id → ∃ k < b.makings.length, id = callAt k
  posts : tr.posts.Nodup
  late : ∀ k m, b.makings[k]? = some m → callAt k ∈ tr.posts → ¬Early m
  written : ∀ id e, .posted id e ∈ tr → ∃ method args,
    ClientMessage.ofEnvelope e = .ok (.request { replyTo, id, method, args })
  given : ∀ id, .given id ∈ tr → ∃ k, id = callAt k ∧ b.makings[k]? = some (.over (.ok ()))
  refused : ∀ id e, .refused id e ∈ tr → ∃ k, id = callAt k ∧
    b.makings[k]? = some (.over (.error e)) ∧ b.correlator.isPending id = false
  entries : ∀ k m, b.makings[k]? = some m → Entry tr b.correlator k m
  swept : Swept b

/-- A desk that has just been opened is sound with an empty trace. -/
theorem sound_opened (serverQueue replyTo : String) :
    Sound replyTo [] (opened serverQueue replyTo) where
  numbers := rfl
  address := rfl
  pending id h := by simp [opened, Correlator.isPending] at h
  about := by simp
  posts := List.nodup_nil
  late k m h := by simp [opened] at h
  written := by simp
  given := by simp
  refused := by simp
  -- Nothing has been made, so there is nothing to say of any call.
  entries k m h := by simp [opened] at h
  swept s hs := by simp [opened] at hs

/-- The making of a call that is over stays as it is. -/
theorem Step.over (next : Step b es b') {k : Nat} {r : Except CallError Unit}
    (h : b.makings[k]? = some (.over r)) : b'.makings[k]? = some (.over r) := by
  have hlt : k < b'.makings.length := by
    have := lt_of_getElem? h
    have := next.grows.2
    omega
  have h' := List.getElem?_eq_getElem hlt
  -- No call goes on from being over.
  rcases next.making h' with hold | ⟨m, hold, goes⟩ | ⟨rfl, -⟩
  · rw [h', ← hold, h]
  · obtain rfl := Option.some.inj (h.symm.trans hold)
    cases goes
  · exact absurd (lt_of_getElem? h) (Nat.lt_irrefl _)

/-- What is handed to the transport is the request of a call that is in the making. -/
private theorem Step.posted (next : Step b es b') {id : CallId} {e : Envelope}
    (h : .posted id e ∈ es) :
    es = [.posted id e] ∧ ∃ k method args, id = callAt k ∧
      b.makings[k]? = some (.permitted method args) ∧
      (∃ m', b'.makings[k]? = some m' ∧ ¬Early m') ∧
      (b.correlator.request id method args).toEnvelope = .ok e := by
  cases next.does with
  | @post k method args e' ready written posted =>
    obtain ⟨rfl, rfl⟩ := CallEvent.posted.injEq .. ▸ List.mem_singleton.1 h
    refine ⟨rfl, k, method, args, rfl, ready, ?_, written⟩
    -- Whether the request is sent or refused, the call is past its posting.
    rcases posted with hsent | ⟨err, hfailed⟩
    · exact ⟨_, hsent, nofun⟩
    · exact ⟨_, hfailed, nofun⟩
  | _ => simp at h

/-- An id is given to the caller in the step that ends its submit well. -/
private theorem Step.given (next : Step b es b') {id : CallId} (h : .given id ∈ es) :
    ∃ k, id = callAt k ∧ b'.makings[k]? = some (.over (.ok ())) := by
  cases next.does with
  | @give k ready made =>
    obtain rfl := CallEvent.given.inj (List.mem_singleton.1 h)
    exact ⟨k, rfl, made⟩
  | _ => simp at h

/-- A call that is refused is not pending. -/
private theorem Step.refused (next : Step b es b') {id : CallId} {e : CallError}
    (h : .refused id e ∈ es) :
    ∃ k, id = callAt k ∧ b'.makings[k]? = some (.over (.error e)) ∧
      b'.correlator.isPending id = false := by
  cases next.does with
  | @refuse k e' ready made correlator =>
    obtain ⟨rfl, rfl⟩ := CallEvent.refused.injEq .. ▸ List.mem_singleton.1 h
    refine ⟨k, rfl, made, ?_⟩
    simp [correlator, Correlator.isPending_retract]
  | _ => simp at h

/-- What a step does to the failings of all calls. -/
private theorem Step.sweep (next : Step b es b') {s : Sweep} (hs : s ∈ b'.sweeps) :
    s ∈ b.sweeps ∨ (s.left = none ∧ b'.correlator.closed = true) ∨
      (s.left = some b.correlator.pending.toList ∧ b'.correlator = b.correlator ∧
        b'.makings = b.makings ∧ ∃ s₀, s₀ ∈ b.sweeps) ∨
      ∃ s₀ ∈ b.sweeps, ∃ ids id, s₀.left = some ids ∧ s.left = some (ids.erase id) ∧
        b'.makings = b.makings ∧ b'.correlator.isPending id = false := by
  cases next with
  | close e =>
    rcases List.mem_append.1 hs with hs | hs
    · exact .inl hs
    · obtain rfl := List.mem_singleton.1 hs
      exact .inr (.inl ⟨rfl, rfl⟩)
  | look ready =>
    -- It is one of the others, or the one that looks now.
    rcases List.mem_or_eq_of_mem_set hs with hs | rfl
    · exact .inl hs
    · exact .inr (.inr (.inl ⟨rfl, rfl, rfl, _, List.mem_of_getElem? ready⟩))
  | @fail i e ids id ready =>
    -- It is one of the others, or the one that fails a call now.
    rcases List.mem_or_eq_of_mem_set hs with hs | rfl
    · exact .inl hs
    · refine .inr (.inr (.inr ⟨_, List.mem_of_getElem? ready, ids, id, rfl, rfl, rfl, ?_⟩))
      show (b.correlator.fail e id).isPending id = false
      simp [(b.correlator.attempt_fail id e).pending]
  | _ => exact .inl hs

/-- The next id is the one of the number of calls made so far. -/
private theorem Sound.nextId (sound : Sound replyTo tr b) :
    b.correlator.nextId = callAt b.makings.length := by
  rw [Correlator.nextId_eq, sound.numbers]

/-- A call that was just made has a number of its own. -/
private theorem callAt_length_ne (few : b'.makings.length ≤ 2 ^ 64)
    (made : b'.makings.length = b.makings.length + 1) {k : Nat} (hk : k < b.makings.length) :
    callAt b.makings.length ≠ callAt k := by
  intro heq
  have := callAt_inj (by omega) (by omega) heq
  omega

section

variable (sound : Sound replyTo tr b) (next : Step b es b') (few : b'.makings.length ≤ 2 ^ 64)

include sound next

/-- A pending id belongs to a call that was made. -/
private theorem Sound.step_pending {id : CallId} (h : b'.correlator.isPending id = true) :
    ∃ k < b'.makings.length, id = callAt k := by
  have hgrows := next.grows.2
  rcases next.pending h with h | ⟨rfl, hlength⟩
  · obtain ⟨k, hk, rfl⟩ := sound.pending id h
    exact ⟨k, by omega, rfl⟩
  · exact ⟨b.makings.length, by omega, sound.nextId⟩

/-- A step is about calls that have been made. -/
private theorem Sound.step_about {x : CallEvent} (hx : x ∈ es) {id : CallId}
    (h : x.about? = some id) :
    ∃ k < b'.makings.length, id = callAt k := by
  have hgrows := next.grows.2
  have hmade : ∀ {k m}, b.makings[k]? = some m → ∃ j < b'.makings.length, callAt k = callAt j := by
    intro k m hk
    have := lt_of_getElem? hk
    exact ⟨k, by omega, rfl⟩
  cases next.does with
  | rest => cases hx
  -- A reservation speaks of the call that it makes, the others of calls that were made.
  | reserve correlator length =>
    obtain rfl := List.mem_singleton.1 hx
    obtain rfl := Option.some.inj h
    exact ⟨b.makings.length, by omega, sound.nextId⟩
  | post ready =>
    obtain rfl := List.mem_singleton.1 hx
    obtain rfl := Option.some.inj h
    exact hmade ready
  | give ready =>
    obtain rfl := List.mem_singleton.1 hx
    obtain rfl := Option.some.inj h
    exact hmade ready
  | refuse ready =>
    obtain rfl := List.mem_singleton.1 hx
    obtain rfl := Option.some.inj h
    exact hmade ready
  | @attempt other how found attempt =>
    obtain rfl := List.mem_singleton.1 hx
    cases found with
    | false => cases h
    | true =>
      -- An attempt that found its call found one that was pending.
      obtain rfl := Option.some.inj h
      obtain ⟨k, hk, rfl⟩ := sound.pending other attempt.found.symm
      exact ⟨k, by omega, rfl⟩
  | collect given =>
    obtain rfl := List.mem_singleton.1 hx
    obtain rfl := Option.some.inj h
    exact hmade given
  | drop given =>
    obtain rfl := List.mem_singleton.1 hx
    obtain rfl := Option.some.inj h
    exact hmade given

/-- No id is posted twice. -/
private theorem Sound.step_posts : CallTrace.posts (tr ++ es) |>.Nodup := by
  rw [CallTrace.posts_append]
  refine List.nodup_append.2 ⟨sound.posts, ?_, ?_⟩
  -- One step posts one request at most.
  · by_cases h : ∃ id e, .posted id e ∈ es
    · obtain ⟨id, e, h⟩ := h
      rw [(next.posted h).1]
      exact List.nodup_singleton id
    · have hnone : CallTrace.posts es = [] := by
        refine List.eq_nil_iff_forall_not_mem.2 fun id hid => h ?_
        obtain ⟨e, he⟩ := CallTrace.mem_posts.1 hid
        exact ⟨id, e, he⟩
      rw [hnone]
      exact List.nodup_nil
  · -- A call that is sent now has not been sent before, for it was still to be sent.
    rintro id hid other hother rfl
    obtain ⟨e, he⟩ := CallTrace.mem_posts.1 hother
    obtain ⟨-, k, method, args, rfl, ready, -⟩ := next.posted he
    exact sound.late k _ ready hid .permitted

/-- What is posted under an id is a request with that id and the client's own queue. -/
private theorem Sound.step_written {id : CallId} {e : Envelope} (h : .posted id e ∈ es) :
    ∃ method args, ClientMessage.ofEnvelope e = .ok (.request { replyTo, id, method, args }) := by
  obtain ⟨-, k, method, args, rfl, -, -, he⟩ := next.posted h
  have hread := ClientMessage.ofEnvelope_toEnvelope he
  rw [Correlator.request, sound.address] at hread
  exact ⟨method, _, hread⟩

include few

/-- A call whose request has been posted is past its posting. -/
private theorem Sound.step_late {k : Nat} {m : Making} (h : b'.makings[k]? = some m)
    (hposted : callAt k ∈ CallTrace.posts (tr ++ es)) : ¬Early m := by
  have hlt := lt_of_getElem? h
  rw [CallTrace.posts_append] at hposted
  -- It was posted before the step, or in it.
  rcases List.mem_append.1 hposted with hposted | hposted
  · rcases next.making h with hold | ⟨m₀, hold, goes⟩ | ⟨rfl, -, hes, -⟩
    · exact sound.late k m hold hposted
    · -- Once a call has been sent, its making does not go back.
      have := sound.late k m₀ hold hposted
      cases goes with
      | permit => exact absurd .reserved this
      | _ => exact nofun
    · -- The call was just made.
      obtain ⟨e, he⟩ := CallTrace.mem_posts.1 hposted
      obtain ⟨j, hj, heq⟩ := sound.about _ he _ rfl
      have := next.grows.2
      exact absurd heq (callAt_length_ne few (by omega) hj)
  -- The call that is posted now is the one at this place, by its number.
  · obtain ⟨e, he⟩ := CallTrace.mem_posts.1 hposted
    obtain ⟨-, j, _, _, heq, -, ⟨m', hm', hlate⟩, -⟩ := next.posted he
    have hj := lt_of_getElem? hm'
    obtain rfl := callAt_inj (by omega) (by omega) heq
    obtain rfl := Option.some.inj (h.symm.trans hm')
    exact hlate

/-- Each call's entry in the books agrees with the trace after the step. -/
private theorem Sound.step_entry {k : Nat} {m : Making} (h : b'.makings[k]? = some m) :
    Entry (tr ++ es) b'.correlator k m := by
  have hlt := lt_of_getElem? h
  have hgrows := next.grows.2
  by_cases hnew : k = b.makings.length
  · -- The call was just made, so nothing has been told of it before.
    subst hnew
    rcases next.making h with hold | ⟨m₀, hold, -⟩ | ⟨-, -, rfl, hc⟩
    · exact absurd (lt_of_getElem? hold) (Nat.lt_irrefl _)
    · exact absurd (lt_of_getElem? hold) (Nat.lt_irrefl _)
    · rw [hc]
      unfold Entry
      rw [← sound.nextId]
      refine ⟨tr, [], rfl, fun x hx habout => ?_, .inr b.correlator.fate_reserve⟩
      obtain ⟨j, hj, heq⟩ := sound.about x hx _ habout
      rw [sound.nextId] at heq
      exact callAt_length_ne few (by omega) hj heq
  · have hmade : k < b.makings.length := by omega
    obtain ⟨pre, since, rfl, hpre, hfate⟩ := sound.entries k _ (List.getElem?_eq_getElem hmade)
    refine ⟨pre, since ++ es, by simp, hpre, ?_⟩
    -- A call that is taken back loses its ticket, so it has no fate from then on.
    by_cases hrefused : ∃ e, .refused (callAt k) e ∈ es
    · obtain ⟨e, he⟩ := hrefused
      obtain ⟨j, heq, hj, hout⟩ := next.refused he
      have := lt_of_getElem? hj
      obtain rfl := callAt_inj (by omega) (by omega) heq
      exact .inl ⟨⟨e, Option.some.inj (h.symm.trans hj)⟩, hout⟩
    · have touch := next.touch sound.numbers few hmade fun e he => hrefused ⟨e, he⟩
      refine hfate.imp ?_ touch.fate
      -- A call that was refused before stays refused, and is never pending again.
      rintro ⟨⟨e, he⟩, hout⟩
      have hover := next.over ((List.getElem?_eq_getElem hmade).trans (congrArg some he))
      exact ⟨⟨e, Option.some.inj (h.symm.trans hover)⟩, touch.out hout⟩

/-- A refused call is over with the error it was refused with, and not pending. -/
private theorem Sound.step_refused {id : CallId} {e : CallError} (h : .refused id e ∈ tr) :
    ∃ k, id = callAt k ∧ b'.makings[k]? = some (.over (.error e)) ∧
      b'.correlator.isPending id = false := by
  obtain ⟨k, rfl, hk, hout⟩ := sound.refused id e h
  refine ⟨k, rfl, next.over hk, ?_⟩
  by_cases hagain : ∃ e', .refused (callAt k) e' ∈ es
  · obtain ⟨e', he'⟩ := hagain
    exact (next.refused he').choose_spec.2.2
  · have touch := next.touch sound.numbers few (lt_of_getElem? hk) fun e' he' => hagain ⟨e', he'⟩
    exact touch.out hout

/-- A call that was made before and is pending was pending before. -/
private theorem Sound.was_pending {k : Nat} (made : k < b.makings.length)
    (h : b'.correlator.isPending (callAt k) = true) :
    b.correlator.isPending (callAt k) = true := by
  rcases next.pending h with h | ⟨heq, hlength⟩
  · exact h
  · rw [sound.nextId] at heq
    exact absurd heq.symm (callAt_length_ne few hlength made)

/-- A failing of all calls that has looked before goes on to miss only calls that are not sent. -/
private theorem Sound.still_swept {s : Sweep} (hs : s ∈ b.sweeps) {ids : List CallId}
    (hids : s.left = some ids) {k : Nat} {m : Making} (hm : b'.makings[k]? = some m)
    (hp : b'.correlator.isPending (callAt k) = true) : callAt k ∈ ids ∨ Doomed m := by
  obtain ⟨hclosed, hleft⟩ := sound.swept s hs
  -- What the sweep has missed so far is doomed, and stays so unless it is over.
  rcases next.making hm with hsame | ⟨m₀, hm₀, goes⟩ | ⟨-, ⟨method, args, rfl⟩, -⟩
  · exact hleft ids hids k m hsame (sound.was_pending next few (lt_of_getElem? hsame) hp)
  · have hp₀ := sound.was_pending next few (lt_of_getElem? hm₀) hp
    rcases hleft ids hids k m₀ hm₀ hp₀ with hin | doomed
    · exact .inl hin
    · -- It was missed, so it has not got past the look whether the session is closed.
      cases goes with
      | permit opened => rw [hclosed] at opened; cases opened
      | bar => exact .inr .failed
      | refuse =>
        obtain ⟨_, -, -, hout⟩ := next.refused (List.mem_singleton_self _)
        rw [hp] at hout
        cases hout
      | send => cases doomed
      | stop => cases doomed
      | give => cases doomed
  · exact .inr .reserved

/-- A step leaves a failing of all calls missing only calls that are not sent. -/
private theorem Sound.step_swept : Swept b' := by
  have hclosed : ∀ s ∈ b.sweeps, b'.correlator.closed = true := fun s hs =>
    next.grows.1.closed (sound.swept s hs).1
  -- A sweep of the later state was there before, has just begun, looks now, or has failed a call.
  intro s hs
  rcases next.sweep hs with hs | ⟨hnone, hclosed'⟩ | ⟨hleft, hc, hm, s₀, hs₀⟩ |
    ⟨s₀, hs₀, ids, id, hleft, hleft', -, hout⟩
  · exact ⟨hclosed s hs, fun ids hids k m => sound.still_swept next few hs hids⟩
  · refine ⟨hclosed', fun ids hids => ?_⟩
    rw [hnone] at hids
    cases hids
  · -- It looks now, and sees all calls that are pending.
    refine ⟨hclosed s₀ hs₀, fun ids hids k m _ hp => .inl ?_⟩
    obtain rfl := Option.some.inj (hleft.symm.trans hids)
    rw [hc] at hp
    exact Std.ExtTreeSet.mem_toList.2 (Std.ExtTreeSet.mem_iff_contains.2 hp)
  · -- The call that has been failed is not pending any more, and only that one is left out.
    refine ⟨hclosed s₀ hs₀, fun ids' hids' k m hm hp => ?_⟩
    obtain rfl := Option.some.inj (hleft'.symm.trans hids')
    refine (sound.still_swept next few hs₀ hleft hm hp).imp_left fun hin => ?_
    refine (List.mem_erase_of_ne ?_).2 hin
    rintro rfl
    rw [hp] at hout
    cases hout

/-- A step keeps the books sound. -/
private theorem Sound.step : Sound replyTo (tr ++ es) b' where
  numbers := by
    have := sound.numbers
    have := next.grows.2
    omega
  address := next.grows.1.replyTo.trans sound.address
  pending id h := sound.step_pending next h
  -- An event is about a call that had been made before it, or in its own step.
  about x hx id h := by
    rcases List.mem_append.1 hx with hx | hx
    · obtain ⟨k, hk, rfl⟩ := sound.about x hx id h
      have := next.grows.2
      exact ⟨k, by omega, rfl⟩
    · exact sound.step_about next hx h
  posts := sound.step_posts next
  late k m := sound.step_late next few
  written id e h := (List.mem_append.1 h).elim (sound.written id e) (sound.step_written next)
  -- A call that was handed out before is still over.
  given id h := by
    rcases List.mem_append.1 h with h | h
    · obtain ⟨k, rfl, hk⟩ := sound.given id h
      exact ⟨k, rfl, next.over hk⟩
    · exact next.given h
  refused id e h := (List.mem_append.1 h).elim (sound.step_refused next few) next.refused
  entries k m := sound.step_entry next few
  swept := sound.step_swept next few

end

/-- A run keeps the books sound while the ids last. -/
theorem Sound.run (sound : Sound replyTo tr b) (run : Run b es b')
    (few : b'.makings.length ≤ 2 ^ 64) : Sound replyTo (tr ++ es) b' := by
  induction run with
  | refl => rwa [List.append_nil]
  | step _ next ih =>
    have := next.grows.2
    rw [← List.append_assoc]
    exact (ih (by omega)).step next few

/-! ## After all calls have been failed -/

/-- A failing of all calls is through, and no call is in the making. -/
structure Shut (b : Desk) : Prop where
  through : ∃ s ∈ b.sweeps, s.left = some []
  idle : ∀ (k : Nat) (m : Making), b.makings[k]? = some m → ∃ r, m = .over r

/-- After the sweep has gone through a closed correlator no call is pending. -/
private theorem Sound.not_pending (sound : Sound replyTo tr b) (shut : b.Shut) (id : CallId) :
    b.correlator.isPending id = false := by
  refine Bool.eq_false_iff.2 fun hp => ?_
  obtain ⟨s, hs, hleft⟩ := shut.through
  obtain ⟨k, hk, rfl⟩ := sound.pending id hp
  have hm := List.getElem?_eq_getElem hk
  obtain ⟨r, hr⟩ := shut.idle k _ hm
  -- The failing has no call left to fail, so a pending one would be in the making.
  rcases (sound.swept s hs).2 [] hleft k _ hm hp with hin | doomed
  · cases hin
  · rw [hr] at doomed
    cases doomed

/-- No call is pending when all have been failed. -/
private theorem Sound.pending_of_shut (sound : Sound replyTo tr b) (shut : b.Shut) :
    b.correlator.pending = ∅ := by
  refine Std.ExtTreeSet.toList_eq_nil_iff.1 (List.eq_nil_iff_forall_not_mem.2 fun id hid => ?_)
  have hin : b.correlator.isPending id = true :=
    Std.ExtTreeSet.mem_iff_contains.1 (Std.ExtTreeSet.mem_toList.1 hid)
  rw [sound.not_pending shut id] at hin
  cases hin

/-- A ticket that shows nothing is that of a pending call, and there is none. -/
private theorem Sound.collect_of_shut (sound : Sound replyTo tr b) (shut : b.Shut) (id : CallId) :
    (b.correlator.collect id).1 ≠ .pending := by
  intro hpending
  have hwaiting := Correlator.waiting_of_pending hpending
  rw [Correlator.collect, hwaiting, sound.not_pending shut id] at hpending
  cases hpending

/-- A call that gets nowhere because the session is closed. -/
inductive Lost : Making → Prop where
  | reserved {method : String} {args : List PlainValue} : Lost (.reserved method args)
  | failed : Lost (.failed lost)
  | over : Lost (.over (.error lost))

/-- The session is closed, all but the calls made after the first `n` are over, and those get
    nowhere. -/
structure Barred (n : Nat) (b : Desk) : Prop where
  closed : b.correlator.closed = true
  early : ∀ (k : Nat) (m : Making), b.makings[k]? = some m → k < n → ∃ r, m = .over r
  later : ∀ (k : Nat) (m : Making), b.makings[k]? = some m → n ≤ k → Lost m

/-- On a barred desk a step posts nothing and accepts no call. -/
private theorem Barred.step {n : Nat} (barred : Barred n b) (next : Step b es b')
    (long : n ≤ b.makings.length) :
    Barred n b' where
  closed := next.grows.1.closed barred.closed
  -- The calls made before are over, and what is over stays so.
  early k m hm hk := by
    have hlt : k < b.makings.length := by omega
    obtain ⟨r, hr⟩ := barred.early k _ (List.getElem?_eq_getElem hlt) hk
    have hover := next.over ((List.getElem?_eq_getElem hlt).trans (congrArg some hr))
    exact ⟨r, Option.some.inj (hm.symm.trans hover)⟩
  later k m hm hk := by
    rcases next.making hm with hold | ⟨m₀, hold, goes⟩ | ⟨-, ⟨method, args, rfl⟩, -⟩
    · exact barred.later k m hold hk
    · -- A call that looks whether the session is closed finds it so.
      have hlost := barred.later k m₀ hold hk
      cases goes with
      | permit opened => rw [barred.closed] at opened; cases opened
      | bar => exact .failed
      | refuse => cases hlost; exact .over
      | send => cases hlost
      | stop => cases hlost
      | give => cases hlost
    · exact .reserved

/-- When all calls have been failed, those made later get nowhere. -/
private theorem Sound.barred (sound : Sound replyTo tr b) (shut : b.Shut) :
    Barred b.makings.length b where
  closed := by
    obtain ⟨s, hs, -⟩ := shut.through
    exact (sound.swept s hs).1
  early k m hm _ := shut.idle k m hm
  later k m hm hk := absurd (lt_of_getElem? hm) (Nat.not_lt.2 hk)

/-- What a step does not do while the session is closed. -/
private theorem Barred.silent {n : Nat} (barred : Barred n b) (next : Step b es b') :
    CallTrace.posts es = [] ∧ (∀ id, .given id ∉ es) ∧
      ∀ id e, .refused id e ∈ es → e = lost := by
  -- Whatever is in the making is over or lost, and neither is sent or handed out.
  have hstate : ∀ (k : Nat) (m : Making), b.makings[k]? = some m →
      (∃ r, m = .over r) ∨ Lost m := fun k m hm =>
    (Nat.lt_or_ge k n).imp (barred.early k m hm) (barred.later k m hm)
  cases next.does with
  | post ready =>
    rcases hstate _ _ ready with ⟨r, hr⟩ | hlost
    · cases hr
    · cases hlost
  | give ready =>
    rcases hstate _ _ ready with ⟨r, hr⟩ | hlost
    · cases hr
    · cases hlost
  | refuse ready =>
    refine ⟨rfl, by simp, fun id e he => ?_⟩
    obtain ⟨-, rfl⟩ := CallEvent.refused.injEq .. ▸ List.mem_singleton.1 he
    rcases hstate _ _ ready with ⟨r, hr⟩ | hlost
    · cases hr
    · cases hlost; rfl
  | _ => exact ⟨rfl, by simp, by simp⟩

/-- On a barred desk a run posts nothing, gives no id, and refuses every submit as lost. -/
private theorem Barred.run {n : Nat} (barred : Barred n b) (long : n ≤ b.makings.length)
    (run : Run b tr b') :
    Barred n b' ∧ tr.posts = [] ∧ (∀ id, .given id ∉ tr) ∧ ∀ id e, .refused id e ∈ tr → e = lost := by
  -- The bound goes through the induction, as a step asks for it.
  suffices n ≤ b'.makings.length ∧ Barred n b' ∧ tr.posts = [] ∧ (∀ id, .given id ∉ tr) ∧
      ∀ id e, .refused id e ∈ tr → e = lost from this.2
  induction run with
  | refl => exact ⟨long, barred, rfl, by simp, by simp⟩
  | step _ next ih =>
    obtain ⟨hlong, hbarred, hposts, hgiven, hrefused⟩ := ih
    obtain ⟨hposts', hgiven', hrefused'⟩ := hbarred.silent next
    have := next.grows.2
    refine ⟨by omega, hbarred.step next hlong, by simp [hposts, hposts'],
      fun id h => (List.mem_append.1 h).elim (hgiven id) (hgiven' id),
      fun id e h => (List.mem_append.1 h).elim (hrefused id e) (hrefused' id e)⟩

/-- A call that is made at one stroke while the session is closed is lost, and nothing is sent. -/
private theorem submit_of_closed {c : Correlator} (closed : c.closed = true) (method : String)
    (args : List PlainValue) (t : Transport) :
    (c.submit method args t).1 = .error lost ∧ (c.submit method args t).2.2 = t := by
  obtain ⟨r, c', t', heq, submits⟩ := c.submits method args t
  rw [heq]
  cases submits with
  | barred => exact ⟨rfl, rfl⟩
  | unwritable opened | untaken opened | sent opened =>
    rw [closed] at opened
    cases opened

/-- There are as many makings as numbers. -/
theorem Run.length_makings (run : Run (opened serverQueue replyTo) tr b) :
    b.makings.length = b.correlator.numbered := by
  induction run with
  | refl => rfl
  | step _ next ih =>
    have := next.grows.2
    omega

/-- However the operations on the calls of a session overlap: no two requests have one number, and
    all name the reply address; a call whose ticket was handed out is pending, or the first attempt
    to end it after it got its number has done so and no other; a call that was refused is not
    pending; and when all calls have been failed and none is in the making, no call is pending, every
    ticket shows an outcome, and calls that are made later are lost without being sent. -/
theorem calls_end_once (run : Run (opened serverQueue replyTo) tr b)
    (few : b.correlator.numbered ≤ 2 ^ 64) :
    (tr.posts.Nodup ∧ ∀ id e, .posted id e ∈ tr → ∃ method args,
      ClientMessage.ofEnvelope e = .ok (.request { replyTo, id, method, args })) ∧
    (∀ id, .given id ∈ tr → ∃ pre since, tr = pre ++ .reserved id :: since ∧
      (∀ x ∈ pre, x.about? ≠ some id) ∧ b.correlator.Fate id since) ∧
    (∀ id e, .refused id e ∈ tr → b.correlator.isPending id = false) ∧
    (b.Shut → b.correlator.pending = ∅ ∧
      (∀ id, .given id ∈ tr → (b.correlator.collect id).1 ≠ .pending) ∧
      ∀ later b', Run b later b' →
        later.posts = [] ∧ (∀ id, .given id ∉ later) ∧ (∀ id e, .refused id e ∈ later → e = lost) ∧
        (∀ k m, b.makings.length ≤ k → b'.makings[k]? = some m → Lost m) ∧
        ∀ method args t, (b'.correlator.submit method args t).1 = .error lost ∧
          (b'.correlator.submit method args t).2.2 = t) := by
  have sound := (sound_opened serverQueue replyTo).run run (run.length_makings ▸ few)
  rw [List.nil_append] at sound
  refine ⟨⟨sound.posts, sound.written⟩, fun id hid => ?_, fun id e hid => ?_, fun shut => ?_⟩
  · obtain ⟨k, rfl, hk⟩ := sound.given id hid
    -- A call whose ticket was handed out was not taken back, so it has a fate.
    obtain ⟨pre, since, htr, hpre, ⟨⟨e, he⟩, -⟩ | fate⟩ := sound.entries k _ hk
    · cases he
    · exact ⟨pre, since, htr, hpre, fate⟩
  · obtain ⟨-, -, -, hout⟩ := sound.refused id e hid
    exact hout
  · refine ⟨sound.pending_of_shut shut, fun id _ => sound.collect_of_shut shut id,
      fun later b' after => ?_⟩
    -- From here on the session stays closed, and all that begins is lost.
    obtain ⟨barred, hposts, hgiven, hrefused⟩ := (sound.barred shut).run (Nat.le_refl _) after
    exact ⟨hposts, hgiven, hrefused, fun k m hk hm => barred.later k m hm hk,
      submit_of_closed barred.closed⟩

/-! One call is sent while the session is being closed, and failed before whoever makes it gets the
ticket; the other is made after the session was closed and before it is looked which calls are
pending.  Somebody answers the first call when it is over. -/

/-- The queues, when there is one for the server. -/
def serverThere : Transport where
  broker := ((({} : Broker).create "server").toOption).getD {}

/-- With the server's queue in place the request is posted. -/
theorem post_serverThere {c : Correlator} (hq : c.serverQueue = "server")
    (hr : c.replyTo = "client") : (c.post (callAt 0) "echo" [] serverThere).1 = .ok () := by
  have hsame : c.post (callAt 0) "echo" [] serverThere =
      ({ serverQueue := "server", replyTo := "client" } : Correlator).post (callAt 0) "echo" []
        serverThere := by
    simp only [Correlator.post, Correlator.request, hq, hr]
  -- Evaluated once, for a correlator of which nothing but the two addresses matters.
  have hok : (({ serverQueue := "server", replyTo := "client" } : Correlator).post (callAt 0) "echo"
      [] serverThere).1.isOk = true := by decide +kernel
  rw [hsame]
  cases h : (({ serverQueue := "server", replyTo := "client" } : Correlator).post (callAt 0) "echo"
      [] serverThere).1 with
  | ok u => rfl
  | error e =>
    rw [h] at hok
    cases hok

/-- Two submits overlap the closing: the one that posted first keeps its id, the other is refused.
-/
private theorem overlapping : ∃ tr b, Run (opened "server" "client") tr b ∧
    b.correlator.numbered ≤ 2 ^ 64 ∧ b.Shut ∧ .given (callAt 0) ∈ tr ∧
      .refused (callAt 1) lost ∈ tr := by
  have asked := Run.refl.step (.reserve (opened "server" "client") "echo" [])
    |>.step (.permit (k := 0) rfl)
    |>.step (.reserve _ "echo" [])
    |>.step (.close _ (.connectionLost "client closed"))
  -- The first call has looked before the session is closed, and is sent after that.
  have posted := asked.step (.post (k := 0) rfl serverThere)
  rw [post_serverThere rfl rfl] at posted
  -- The second looks only now, so it fails without being sent.
  have looked := posted.step (.look (i := 0) rfl)
    |>.step (.permit (k := 1) rfl)
  have failed := looked.step (@Step.fail _ 0 _ _ (callAt 1) rfl (by decide +kernel))
  have failed := failed.step (@Step.fail _ 0 _ _ (callAt 0) rfl (by decide +kernel))
  have ended := failed.step (.give (k := 0) rfl)
    |>.step (.retract (k := 1) rfl)
    |>.step (.answer _ (callAt 0) (.error ⟨.application, "late"⟩))
  refine ⟨_, _, ended, by decide +kernel, ⟨⟨_, List.mem_of_getElem? (i := 0) rfl, ?_⟩, ?_⟩, ?_, ?_⟩
  · exact congrArg some (by decide +kernel)
  · intro k m hm
    match k, hm with
    | 0, hm => exact ⟨_, (Option.some.inj hm).symm⟩
    | 1, hm => exact ⟨_, (Option.some.inj hm).symm⟩
    | k + 2, hm => cases hm
  · simp
  · simp [lost]

/-- The first call got through to the transport and was failed after that, and nothing is left. -/
theorem calls_end_once_overlapping : ∃ tr b, Run (opened "server" "client") tr b ∧ b.Shut ∧
    .given (callAt 0) ∈ tr ∧ .refused (callAt 1) lost ∈ tr ∧ tr.posts.Nodup ∧
      b.correlator.pending = ∅ ∧ b.correlator.isPending (callAt 1) = false ∧
      ∃ pre since, tr = pre ++ .reserved (callAt 0) :: since ∧
        b.correlator.Fate (callAt 0) since := by
  obtain ⟨tr, b, run, few, shut, given, refused⟩ := overlapping
  obtain ⟨⟨posts, -⟩, fates, out, after⟩ := calls_end_once run few
  obtain ⟨pre, since, htr, -, fate⟩ := fates _ given
  exact ⟨tr, b, run, shut, given, refused, posts, (after shut).1, out _ _ refused, pre, since, htr,
    fate⟩

end Desk

end StreamRpc
