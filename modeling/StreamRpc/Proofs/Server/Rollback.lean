import StreamRpc.Proofs.Message.Refusal
import StreamRpc.Proofs.Server.Introduction
import StreamRpc.Proofs.Stream.Clients

/-! # Sending is all or nothing

The streams in an answer or an item get numbers before it is known whether the message can be written
and whether the queue of the client takes it.  If it cannot or does not, nothing is left of them but
the numbers: the books of the tracker are what they were, no task is started, and their sources are
dropped.

* `Multiplexer.Sound.rollback`   numbers given out and taken back leave no trace in the books
* `Stage.Adds`                   the streams in a value were introduced and started
* `Stage.Reverts`                nothing is left of them
* `Stage.passOn`                 an item is handled without a pause
* `sending_all_or_nothing`       an answer or an item comes to the one or the other
-/

namespace StreamRpc

/-! ## Numbers that are taken back -/

/-- A slot with a number in it has the stream of the slot that was there. -/
private theorem Exposes.sub_at {v : ServerValue} {wire : WireValue} {subs : List Subscription}
    (h : Exposes v wire subs) {i : Nat} {id : StreamId} {source : SourceRef}
    (hid : wire.slots[i]? = some id) (hsource : v.slots[i]? = some source) :
    ∃ sub, subs[i]? = some sub ∧ sub.id = id ∧ sub.source = source := by
  rw [h.ids, List.getElem?_map, Option.map_eq_some_iff] at hid
  rw [← h.sources, List.getElem?_map, Option.map_eq_some_iff] at hsource
  obtain ⟨sub, found, named⟩ := hid
  obtain ⟨sub', found', sourced⟩ := hsource
  obtain rfl := Option.some.inj (found'.symm.trans found)
  exact ⟨sub', found, named, sourced⟩

namespace Multiplexer

variable {m : Multiplexer}

/-- Subscriptions keep a tracker tidy. -/
private theorem tidy_subscribeAll (tidy : m.tracker.Tidy) (client : String) (rs : List SourceRef) :
    (m.subscribeAll client rs).2.tracker.Tidy := by
  induction rs generalizing m with
  | nil => exact tidy
  | cons r rs ih => exact ih (m := (m.subscribe client r).2) (tidy.register m.nextId client)

/-- What an event does to a tracker keeps it tidy. -/
private theorem tidy_effect (tidy : m.tracker.Tidy) (x : ServerEvent) :
    (x.effect m).tracker.Tidy := by
  cases x with
  | numbered w client subs => exact tidy_subscribeAll tidy client _
  | closed ids => exact tidy.retireAll ids
  | dropped w subs => exact tidy.retireAll _
  | departed client => exact tidy.retireClient client
  | finished n id => exact tidy.retire id
  | withdrawn id => exact tidy.retire id
  | _ => exact tidy

/-- What a trace does to a tracker keeps it tidy. -/
private theorem tidy_effects (tidy : m.tracker.Tidy) (es : ServerTrace) :
    (es.foldl (fun m x => x.effect m) m).tracker.Tidy := by
  induction es generalizing m with
  | nil => exact tidy
  | cons x es ih => exact ih (tidy_effect tidy x)

/-- The streams that the next sources are going to be. -/
def nextIds (m : Multiplexer) (k : Nat) : List StreamId :=
  (List.range' m.numbered k).map StreamId.nth

/-- The next numbers are all different while there are enough of them. -/
private theorem nodup_nextIds {k : Nat} (few : m.numbered + k ≤ 2 ^ 64) : (m.nextIds k).Nodup := by
  refine List.Nodup.map_on ?_ List.nodup_range'
  intro i hi j hj h
  rw [List.mem_range'_1] at hi hj
  exact StreamId.nth_inj (by omega) (by omega) h

/-- Streams that are to come are not active. -/
private theorem Sound.unused (sound : m.Sound) {k : Nat} (few : m.numbered + k ≤ 2 ^ 64)
    {id : StreamId}
    (hid : id ∈ m.nextIds k) : m.tracker.active[id]? = none := by
  obtain ⟨j, hj, rfl⟩ := List.mem_map.1 hid
  rw [List.mem_range'_1] at hj
  cases hr : m.tracker.active[StreamId.nth j]? with
  | none => rfl
  | some r =>
    -- An active id was given before, and ids do not repeat before the counter wraps.
    obtain ⟨i, hi, hid, -⟩ := sound.given _ r hr
    have := StreamId.nth_inj (j := j) (k := i) (by omega) (by omega) hid
    omega

/-- The active streams when the sources in a value have numbers. -/
private theorem Sound.active_expose (sound : m.Sound) (client : String) (v : ServerValue)
    (few : m.numbered + v.slots.length ≤ 2 ^ 64) (id : StreamId) :
    (id ∉ m.nextIds v.slots.length →
        (m.expose client v).2.2.tracker.active[id]? = m.tracker.active[id]?) ∧
      ∀ sub ∈ (m.expose client v).2.1, sub.id = id →
        (m.expose client v).2.2.tracker.active[id]? = some ⟨client, sub.signal⟩ := by
  obtain ⟨hids, hnumbered⟩ := ids_expose m client v
  obtain ⟨-, hactive⟩ := sound.expose client v (hnumbered ▸ few)
  constructor
  · intro hid
    refine Option.ext fun r => (hactive id r).trans (or_iff_left ?_)
    -- Every registration made here has one of the next ids.
    rintro ⟨sub, hsub, rfl, -⟩
    exact hid (by rw [nextIds, ← hids]; exact List.mem_map_of_mem hsub)
  · intro sub hsub hid
    exact (hactive id _).2 (.inr ⟨sub, hsub, hid, rfl⟩)

/-- Whom the streams are for when the sources in a value have numbers. -/
private theorem Sound.owner_expose (sound : m.Sound) (client : String) (v : ServerValue)
    (few : m.numbered + v.slots.length ≤ 2 ^ 64) (id : StreamId) :
    (m.expose client v).2.2.owner id =
      if id ∈ (m.expose client v).1.slots then some client else m.owner id := by
  obtain ⟨other, new⟩ := sound.active_expose client v few id
  have exposes := m.expose_exposes client v
  have hslots : (m.expose client v).1.slots = m.nextIds v.slots.length :=
    exposes.ids.trans (m.ids_expose client v).1
  unfold owner
  -- The new ids belong to the client; the others to whom they belonged.
  split
  · next hid =>
    obtain ⟨sub, hsub, hid⟩ := List.mem_map.1 (exposes.ids ▸ hid)
    rw [new sub hsub hid]
    rfl
  · next hid => rw [other (hslots ▸ hid)]

/-- Numbers that are given out and taken back leave no trace in the books. -/
theorem Sound.rollback (sound : m.Sound) (tidy : m.tracker.Tidy) (client : String)
    (v : ServerValue) (few : m.numbered + v.slots.length ≤ 2 ^ 64) :
    let m' := (m.expose client v).2.2.retireAll ((m.expose client v).2.1.map (·.id))
    m'.tracker.active = m.tracker.active ∧ m'.tracker.owned = m.tracker.owned ∧
      m'.Sound ∧ m'.tracker.Tidy := by
  intro m'
  obtain ⟨hids, hnumbered⟩ := ids_expose m client v
  have sound' : m'.Sound := (sound.expose client v (hnumbered ▸ few)).1.retireAll _
  have tidy' : m'.tracker.Tidy := by
    have := tidy_subscribeAll tidy client v.slots
    rw [← expose_eq] at this
    exact this.retireAll _
  -- the numbers that were given out were not in use before, so taking them out leaves the rest
  have active : m'.tracker.active = m.tracker.active := by
    refine Std.ExtTreeMap.ext_getElem? fun id => ?_
    show ((m.expose client v).2.2.tracker.retireAll _).2.active[id]? = _
    rw [Tracker.active_retireAll, hids]
    split
    · next hid => exact (sound.unused few hid).symm
    · next hid => exact (sound.active_expose client v few id).1 hid
  exact ⟨active, Tracker.owned_eq sound'.books tidy' sound.books tidy active, sound', tidy'⟩

end Multiplexer

namespace Stage

variable {st₀ st : Stage} {tr : ServerTrace}

/-- Along a run, nobody is on the books without streams. -/
private theorem Run.tidy (fresh : st₀.Fresh) (run : Run st₀ tr st) : st.tracker.Tidy := by
  induction run with
  | refl =>
    show st₀.server.mux.tracker.Tidy
    rw [fresh.mux]
    exact Tracker.tidy_empty
  | step _ next ih =>
    have hmux := next.mux.1
    -- The tracker changes only by what a step's events do to the multiplexer.
    unfold Stage.tracker
    rw [hmux]
    exact Multiplexer.tidy_effects ih _

/-! ## What sending leaves -/

/-- The streams in a value have the next numbers, in the order of the slots, and are active for the
    client besides those that were; and the tasks that pass them on are started in this order besides
    those that there were. -/
structure Adds (st : Stage) (client : String) (v : ServerValue) (wire : WireValue)
    (tasks : Std.ExtTreeMap Nat Forwarding) (st' : Stage) : Prop where
  /-- What goes over the wire is the value with numbers for sources. -/
  shape : (wire.map fun _ => ()) = v.map fun _ => ()
  slots : wire.slots = st.server.mux.nextIds v.slots.length
  distinct : wire.slots.Nodup
  fresh : ∀ id ∈ wire.slots, st.tracker.isActive id = false
  owner : ∀ id, st'.server.mux.owner id =
    if id ∈ wire.slots then some client else st.server.mux.owner id
  owned : ∀ (other : String) (id : StreamId), id ∈ st'.tracker.ownedBy other ↔
    id ∈ st.tracker.ownedBy other ∨ other = client ∧ id ∈ wire.slots
  started : ∀ (i : Nat) (id : StreamId) (source : SourceRef), wire.slots[i]? = some id →
    v.slots[i]? = some source →
      ∃ signal, st'.server.forwardings[st.server.nextTask + i]? =
          some { client, id, source, signal, phase := .waiting } ∧
        st'.tracker.active[id]? = some { client, signal }
  others : ∀ k, k < st.server.nextTask ∨ st.server.nextTask + v.slots.length ≤ k →
    st'.server.forwardings[k]? = tasks[k]?
  nextTask : st'.server.nextTask = st.server.nextTask + v.slots.length
  handlings : st'.server.handlings = st.server.handlings
  sources : st'.sources = st.sources

/-- Of the streams in a value nothing is left but their numbers: the books of the tracker are these,
    the tasks are these, and the sources are gone. -/
structure Reverts (st : Stage) (v : ServerValue) (books : Tracker)
    (tasks : Std.ExtTreeMap Nat Forwarding) (st' : Stage) : Prop where
  active : st'.tracker.active = books.active
  owned : st'.tracker.owned = books.owned
  forwardings : st'.server.forwardings = tasks
  nextTask : st'.server.nextTask = st.server.nextTask
  handlings : st'.server.handlings = st.server.handlings
  dropped : ∀ r ∈ v.slots, st'.sources.live r = false

/-- Each stream that is started has a task of its own. -/
private theorem nextTask_start (st : Stage) (client : String) (subs : List Subscription) :
    (st.start client subs).server.nextTask = st.server.nextTask + subs.length := by
  induction subs generalizing st with
  | nil => rfl
  | cons sub subs ih =>
    refine (ih { st with server := startOne client st.server sub }).trans ?_
    show st.server.nextTask + 1 + subs.length = st.server.nextTask + (subs.length + 1)
    omega

/-- The tasks that are started come one after another, behind those that there were. -/
private theorem forwardings_of_started (st : Stage) (client : String) {subs : List Subscription}
    {i : Nat}
    {sub : Subscription} (h : subs[i]? = some sub) :
    (st.start client subs).server.forwardings[st.server.nextTask + i]? =
      some { client, id := sub.id, source := sub.source, signal := sub.signal } := by
  induction subs generalizing st i with
  | nil => simp at h
  | cons first subs ih =>
    cases i with
    | zero =>
      obtain rfl := Option.some.inj h
      -- The tasks of the other streams have greater numbers and leave this one there.
      refine (forwardings_start_of_lt { st with server := startOne client st.server first } client
        subs (Nat.lt_succ_self _)).trans ?_
      show (st.server.forwardings.insert _ _)[_]? = _
      rw [Std.ExtTreeMap.getElem?_insert, if_pos (by simp)]
    | succ i =>
      have := ih { st with server := startOne client st.server first } h
      rw [← Nat.add_assoc, Nat.add_right_comm]
      exact this

/-- Tasks with other numbers than those that are started stay as they are. -/
private theorem forwardings_of_not_started (st : Stage) (client : String) {subs : List Subscription}
    {k : Nat} (hk : k < st.server.nextTask ∨ st.server.nextTask + subs.length ≤ k) :
    (st.start client subs).server.forwardings[k]? = st.server.forwardings[k]? := by
  induction subs generalizing st with
  | nil => rfl
  | cons sub subs ih =>
    rw [List.length_cons] at hk
    refine (ih { st with server := startOne client st.server sub } ?_).trans ?_
    · show k < st.server.nextTask + 1 ∨ st.server.nextTask + 1 + subs.length ≤ k
      omega
    · show (st.server.forwardings.insert _ _)[k]? = _
      have hne : ¬ st.server.nextTask = k := by omega
      rw [Std.ExtTreeMap.getElem?_insert, if_neg (by rwa [Std.compare_eq_iff_eq])]

section
variable (sound : st.server.mux.Sound) {client : String} {v : ServerValue}
  (few : st.server.mux.numbered + v.slots.length ≤ 2 ^ 64)
include sound few

/-- The streams in a value that were given numbers and started are there. -/
private theorem adds_start (st₁ : Stage)
    (mux : st₁.server.mux = (st.expose client v).2.2.server.mux)
    (nextTask : st₁.server.nextTask = st.server.nextTask)
    (handlings : st₁.server.handlings = st.server.handlings) (sources : st₁.sources = st.sources) :
    st.Adds client v (st.expose client v).1 st₁.server.forwardings
      (st₁.start client (st.expose client v).2.1) := by
  obtain ⟨hids, hnumbered⟩ := st.server.mux.ids_expose client v
  have exposes : Exposes v (st.expose client v).1 (st.expose client v).2.1 :=
    st.server.mux.expose_exposes client v
  have hslots : (st.expose client v).1.slots = st.server.mux.nextIds v.slots.length :=
    exposes.ids.trans hids
  obtain ⟨sound', -⟩ := sound.expose client v (hnumbered ▸ few)
  have hmux : (st₁.start client (st.expose client v).2.1).server.mux =
      (st.server.mux.expose client v).2.2 := (mux_start _ client _).trans mux
  have hlength : (st.expose client v).2.1.length = v.slots.length := by
    rw [← exposes.sources, List.length_map]
  -- Starting the tasks leaves the books as they were when the numbers had been given out.
  have howner : ∀ id, (st.server.mux.expose client v).2.2.owner id =
      if id ∈ (st.expose client v).1.slots then some client else st.server.mux.owner id :=
    sound.owner_expose client v few
  refine { shape := exposes.shape, slots := hslots, distinct := ?_, fresh := ?_, owner := ?_,
           owned := ?_, started := ?_, others := ?_, nextTask := ?_, handlings := ?_, sources := sources }
  · rw [hslots]
    exact Multiplexer.nodup_nextIds few
  · intro id hid
    have := sound.unused few (hslots ▸ hid)
    simp [Stage.tracker, Tracker.isActive, Std.ExtTreeMap.contains_eq_isSome_getElem?, this]
  · rw [hmux]
    exact howner
  · intro other id
    unfold Stage.tracker
    rw [hmux, sound'.mem_ownedBy, howner, sound.mem_ownedBy]
    split
    · next hid =>
      -- A number that is given out was nobody's before.
      have hnone : st.server.mux.owner id = none := by
        rw [Multiplexer.owner, sound.unused few (hslots ▸ hid)]
        rfl
      simp [hnone, hid, eq_comm]
    · next hid => simp [hid]
  · intro i id source hid hsource
    obtain ⟨sub, hsub, rfl, rfl⟩ := exposes.sub_at hid hsource
    refine ⟨sub.signal, nextTask ▸ forwardings_of_started _ client hsub, ?_⟩
    unfold Stage.tracker
    rw [hmux]
    exact (sound.active_expose client v few sub.id).2 sub (List.mem_of_getElem? hsub) rfl
  · intro k hk
    refine forwardings_of_not_started _ client ?_
    rw [hlength, nextTask]
    exact hk
  · rw [nextTask_start, hlength, nextTask]
  · exact (handlings_start _ client _).trans handlings

omit sound few in
/-- Giving up nothing changes nothing. -/
private theorem abandon_nil (st : Stage) : st.abandon [] = st := by
  simp [abandon, setMux, Multiplexer.retireAll, Tracker.retireAll, Sources.dropAll]

/-- When the streams in a value are given up, nothing is left of them. -/
private theorem reverts_abandon (tidy : st.tracker.Tidy) (t : Transport) :
    st.Reverts v st.tracker st.server.forwardings
      (({ (st.expose client v).2.2 with transport := t } : Stage).abandon
        (st.expose client v).2.1) := by
  obtain ⟨active, owned, -, -⟩ := sound.rollback tidy client v few
  refine ⟨active, owned, rfl, rfl, rfl, fun r hr => ?_⟩
  refine Sources.dropAll_not_live _ _ r ?_
  show r ∈ (st.server.mux.expose client v).2.1.map (·.source)
  rwa [(st.server.mux.expose_exposes client v).sources]

end

end Stage

/-! ## Answers -/

/-- What sending something comes to. -/
inductive Way where
  /-- It was written, and the queue took it. -/
  | delivered
  /-- It could not be written, and a failure was sent in its place. -/
  | excused
  /-- The queue refused what was sent. -/
  | refused
  deriving DecidableEq

namespace Reply

variable {client : String} {id : CallId} {st st' : Stage} {r r' : Reply}

/-- A reply that goes on is finished when it is finished from its next step. -/
private theorem finish_next (go : r.step client id st = (.inl r', st')) :
    r.finish client id st = r'.finish client id st' := by
  rw [finish]
  split
  · next moved =>
    rw [go] at moved
    obtain ⟨h, rfl⟩ := Prod.mk.inj moved
    rw [Sum.inl.inj h]
  · next moved =>
    rw [go] at moved
    cases moved

/-- A reply that comes to its end is finished. -/
private theorem finish_last {outcome : Except CallError Unit}
    (go : r.step client id st = (.inr outcome, st')) :
    r.finish client id st = (outcome, st') := by
  rw [finish]
  split
  · next moved =>
    rw [go] at moved
    cases moved
  · next moved =>
    rw [go] at moved
    obtain ⟨h, rfl⟩ := Prod.mk.inj moved
    rw [Sum.inr.inj h]

/-- A message that is written is sent, and what is in it is started or given up. -/
private theorem finish_encoded {e : Envelope} {subs : List Subscription} :
    (encoded e subs).finish client id st =
      match st.transport.send client e with
      | (.ok (), t) => (.ok (), ({ st with transport := t } : Stage).start client subs)
      | (.error err, t) =>
        (.error (.transport err), ({ st with transport := t } : Stage).abandon subs) := by
  -- Sent or not, one step follows: starting the tasks, or giving them up.
  cases hsend : st.transport.send client e with
  | mk result t =>
    cases result with
    | ok u =>
      have go : (encoded e subs).step client id st =
          (.inl (.accepted subs), { st with transport := t }) := by
        simp only [step, Stage.send, hsend]
      exact (finish_next go).trans (finish_last rfl)
    | error err =>
      have go : (encoded e subs).step client id st =
          (.inl (.refused err subs), { st with transport := t }) := by
        simp only [step, Stage.send, hsend]
      exact (finish_next go).trans (finish_last rfl)

/-- What is sent for an answer: the answer, or the failure that takes its place. -/
inductive Carries (id : CallId) (wire : WireValue) (e : Envelope) : Prop where
  | answer (written : (ServerMessage.reply id (.ok wire)).toEnvelope = .ok e)
  | excuse {err : CodecError}
      (unwritable : (ServerMessage.reply id (.ok wire)).toEnvelope = .error err)
      (written : (ServerMessage.reply id (.error (.unwritable "reply" err))).toEnvelope = .ok e)

/-- What sending an answer comes to, and what it leaves. -/
inductive Ends (st : Stage) (client : String) (id : CallId) (v : ServerValue)
    (outcome : Except CallError Unit) (st' : Stage) : Way → Prop where
  | delivered {e : Envelope}
      (written : (ServerMessage.reply id (.ok (st.expose client v).1)).toEnvelope = .ok e)
      (taken : st.transport.send client e = (.ok (), st'.transport)) (done : outcome = .ok ())
      (adds : st.Adds client v (st.expose client v).1 st.server.forwardings st') :
      Ends st client id v outcome st' .delivered
  | excused {err : CodecError} {e : Envelope}
      (unwritable : (ServerMessage.reply id (.ok (st.expose client v).1)).toEnvelope = .error err)
      (deep : ServerMessage.ReplyFits (st.expose client v).1 →
        maxDepth < v.depth ∧ err = .nestingTooDeep)
      (written : (ServerMessage.reply id (.error (.unwritable "reply" err))).toEnvelope = .ok e)
      (taken : st.transport.send client e = (.ok (), st'.transport)) (done : outcome = .ok ())
      (reverts : st.Reverts v st.tracker st.server.forwardings st') :
      Ends st client id v outcome st' .excused
  | refused {e : Envelope} {err : TransportError} (carries : Carries id (st.expose client v).1 e)
      (refused : st.transport.send client e = (.error err, st'.transport))
      (done : outcome = .error (.transport err))
      (reverts : st.Reverts v st.tracker st.server.forwardings st') :
      Ends st client id v outcome st' .refused

/-- Sending an answer does not come to two things. -/
private theorem Ends.unique {v : ServerValue} {outcome : Except CallError Unit} {way way' : Way}
    (ends : Ends st client id v outcome st' way) (ends' : Ends st client id v outcome st' way') :
    way = way' := by
  -- What was written and what the outcome is tell the three apart.
  cases ends with
  | delivered written _ done _ =>
    cases ends' with
    | delivered => rfl
    | excused unwritable => rw [written] at unwritable; cases unwritable
    | refused _ _ done' => rw [done] at done'; cases done'
  | excused unwritable _ _ _ done _ =>
    cases ends' with
    | delivered written => rw [written] at unwritable; cases unwritable
    | excused => rfl
    | refused _ _ done' => rw [done] at done'; cases done'
  | refused _ _ done _ =>
    cases ends' with
    | delivered _ _ done' => rw [done] at done'; cases done'
    | excused _ _ _ _ done' => rw [done] at done'; cases done'
    | refused => rfl

/-- A value that is refused though its lengths fit is too deep. -/
private theorem deep_of_unwritable {wire : WireValue} {err : CodecError}
    (unwritable : (ServerMessage.reply id (.ok wire)).toEnvelope = .error err)
    (fits : ServerMessage.ReplyFits wire) : maxDepth < wire.depth ∧ err = .nestingTooDeep := by
  obtain ⟨shallow, deep⟩ := ServerMessage.reply_of_fits id fits
  -- Within the depth and the sizes everything can be written.
  rcases Nat.lt_or_ge maxDepth wire.depth with h | h
  · exact ⟨h, Except.error.inj (unwritable.symm.trans (deep h))⟩
  · obtain ⟨e, he⟩ := shallow h
    rw [unwritable] at he
    cases he

/-- Sending an answer comes to one of three things. -/
private theorem ends (sound : st.server.mux.Sound) (tidy : st.tracker.Tidy) {v : ServerValue}
    (few : st.server.mux.numbered + v.slots.length ≤ 2 ^ 64)
    (measured : ∀ err, (ServerMessage.reply id (.ok (st.expose client v).1)).toEnvelope =
      .error err → err.Measured) :
    ∃ way, Ends st client id v (st.reply client id (.ok v)).1 (st.reply client id (.ok v)).2 way := by
  -- the sources have numbers before anything is written
  have hexpose : st.reply client id (.ok v) =
      (exposed (.ok (st.expose client v).1) (st.expose client v).2.1).finish client id
        (st.expose client v).2.2 := finish_next rfl
  have hdepth : (st.expose client v).1.depth = v.depth :=
    (st.server.mux.expose_exposes client v).depth
  cases hw : (ServerMessage.reply id (.ok (st.expose client v).1)).toEnvelope with
  | ok e =>
    have hwrite : st.reply client id (.ok v) = (encoded e (st.expose client v).2.1).finish client id
        (st.expose client v).2.2 := by
      rw [hexpose]
      refine finish_next ?_
      simp only [step, hw]
    rw [hwrite, finish_encoded]
    cases hsend : (st.expose client v).2.2.transport.send client e with
    | mk result t =>
      cases result with
      | ok u =>
        have adds : st.Adds client v (st.expose client v).1 st.server.forwardings
            (({ (st.expose client v).2.2 with transport := t } : Stage).start client
              (st.expose client v).2.1) :=
          Stage.adds_start sound few { (st.expose client v).2.2 with transport := t } rfl rfl rfl rfl
        exact ⟨.delivered, .delivered hw hsend rfl adds⟩
      | error err =>
        exact ⟨.refused, .refused (.answer hw) hsend rfl (Stage.reverts_abandon sound few tidy t)⟩
  | error err =>
    have hwhat : (Wire.utf8 "reply").length ≤ 100 := by decide
    obtain ⟨e, he⟩ := (ServerMessage.excuse hwhat hw (measured err hw) id ⟨0⟩).1
    -- the numbers are taken back before the failure is sent, so refusing it gives up nothing more
    have hwrite : st.reply client id (.ok v) = (encoded e []).finish client id
        ((st.expose client v).2.2.abandon (st.expose client v).2.1) := by
      rw [hexpose]
      refine finish_next ?_
      simp only [step, hw, he]
    have deep := deep_of_unwritable hw
    rw [hdepth] at deep
    rw [hwrite, finish_encoded]
    cases hsend : ((st.expose client v).2.2.abandon
        (st.expose client v).2.1).transport.send client e with
    | mk result t =>
      have reverts : st.Reverts v st.tracker st.server.forwardings
          (({ (st.expose client v).2.2 with transport := t } : Stage).abandon
            (st.expose client v).2.1) := Stage.reverts_abandon sound few tidy t
      cases result with
      | ok u => exact ⟨.excused, .excused hw deep he hsend rfl reverts⟩
      | error err' =>
        refine ⟨.refused, .refused (.excuse hw he) ?_ rfl ?_⟩
        · exact hsend
        · show st.Reverts v st.tracker st.server.forwardings (Stage.abandon _ [])
          rw [Stage.abandon_nil]
          exact reverts

end Reply

/-! ## Items -/

namespace Forwarding

/-- How many steps a task can take at most before it waits for an item or is over. -/
def Phase.remaining : Phase → Nat
  | .waiting => 0
  | .closing => 1
  | .failing _ => 2
  | .refused _ => 2
  | .accepted _ _ => 2
  | .encoded _ _ _ => 3
  | .exposed _ _ => 4
  | .cleared _ => 5
  | .pulled _ => 6

/-- A stream's task that has an item in hand has less left to do after a step. -/
private theorem remaining_step {f : Forwarding} {st : Stage} {o : Outcome} {phase : Phase}
    (busy : 0 < f.phase.remaining) (go : f.step? st = some o) (next : o.phase = some phase) :
    phase.remaining < f.phase.remaining := by
  have does := Forwarding.does 0 go
  generalize st.forwardingEvents 0 f = es at does
  cases does with
  -- A task that waits has nothing left to do, so it is not busy.
  | pull phase | dry phase | stop phase =>
    rw [phase] at busy
    cases busy
  | halt | close => cases next
  | start phase =>
    obtain rfl := Option.some.inj next
    rw [phase]
    split <;> simp [Phase.remaining]
  | clear phase | expose phase | write phase | fail phase | accept phase | refuse phase
  | drop phase | tell phase | hush phase =>
    obtain rfl := Option.some.inj next
    rw [phase]
    simp [Phase.remaining]

end Forwarding

namespace Stage

/-- How many steps a task can take at most before it waits for an item or is over. -/
def due (st : Stage) (n : Nat) : Nat :=
  (st.server.forwardings[n]?).elim 0 fun f => f.phase.remaining

/-- What is left to do of an item is what its task has left. -/
private theorem due_of_found {st : Stage} {n : Nat} {f : Forwarding}
    (found : st.server.forwardings[n]? = some f) : st.due n = f.phase.remaining := by
  rw [due, found]
  rfl

/-- Each step of passing an item on leaves less to do. -/
private theorem due_forward {st st' : Stage} {n : Nat} {retires : Option StreamId}
    (busy : 0 < st.due n)
    (go : st.forward? n = some (st', retires)) : st'.due n < st.due n := by
  cases found : st.server.forwardings[n]? with
  | none =>
    rw [due, found] at busy
    cases busy
  | some f =>
    rw [due_of_found found] at busy ⊢
    obtain ⟨o, hstep, -, rfl⟩ := forward_eq found go
    -- A task that goes has nothing left to do; one that stays has less.
    cases hphase : o.phase with
    | none =>
      rw [due, forwardings_putForwarding, if_pos rfl]
      exact busy
    | some phase =>
      rw [due, forwardings_putForwarding, if_pos rfl]
      exact Forwarding.remaining_step busy hstep hphase

/-- Lets a task go on without a pause until it waits for an item or is over. -/
def passOn (st : Stage) (n : Nat) : Stage :=
  if _busy : 0 < st.due n then
    match _moved : st.forward? n with
    | some (st', _) => st'.passOn n
    | none => st
  else st
termination_by st.due n
decreasing_by exact due_forward _busy _moved

/-- Passing an item on goes on from its first step. -/
private theorem passOn_next {st st' : Stage} {n : Nat} {retires : Option StreamId}
    (busy : 0 < st.due n)
    (go : st.forward? n = some (st', retires)) : st.passOn n = st'.passOn n := by
  rw [passOn, dif_pos busy]
  split
  · next moved =>
    rw [go] at moved
    rw [(Prod.mk.inj (Option.some.inj moved)).1]
  · next moved =>
    rw [go] at moved
    cases moved

/-- With nothing left to do the item has been passed on. -/
private theorem passOn_rest {st : Stage} {n : Nat} (rest : st.due n = 0) : st.passOn n = st := by
  rw [passOn, dif_neg (by omega)]

/-- A task that can take a step takes it when it has its turn. -/
private theorem forward?_of_step {st : Stage} {n : Nat} {f : Forwarding} {o : Forwarding.Outcome}
    (found : st.server.forwardings[n]? = some f) (go : f.step? st = some o) :
    st.forward? n = some (o.stage.putForwarding n f o.phase, o.retires) := by
  unfold forward?
  rw [found]
  simp only [Option.bind_eq_bind, Option.bind_some, go]
  rfl

/-- The stage in the middle of an item: its task is in another phase, the streams of the server have
    changed, and the way to the queues has. -/
def amid (st : Stage) (n : Nat) (f : Forwarding) (phase : Forwarding.Phase) (mux : Multiplexer)
    (transport : Transport) (sources : Sources) : Stage :=
  { server := { st.server with
      mux, forwardings := st.server.forwardings.insert n { f with phase } }
    sources, transport }

section
variable {st : Stage} {n : Nat} {f : Forwarding} {phase phase' : Forwarding.Phase}
  {mux mux' : Multiplexer} {t t' : Transport} {sources sources' : Sources}

/-- Of two tasks put in one place the second stays. -/
private theorem insert_insert (tasks : Std.ExtTreeMap Nat Forwarding) (n : Nat)
    (f f' : Forwarding) :
    (tasks.insert n f).insert n f' = tasks.insert n f' := by
  refine Std.ExtTreeMap.ext_getElem? fun k => ?_
  simp only [Std.ExtTreeMap.getElem?_insert]
  split <;> rfl

/-- A task that was put in a place is taken out of it. -/
private theorem erase_insert (tasks : Std.ExtTreeMap Nat Forwarding) (n : Nat) (f : Forwarding) :
    (tasks.insert n f).erase n = tasks.erase n := by
  refine Std.ExtTreeMap.ext_getElem? fun k => ?_
  simp only [Std.ExtTreeMap.getElem?_insert, Std.ExtTreeMap.getElem?_erase]
  split <;> rfl

/-- Amid an item the task is found in that phase. -/
private theorem found_amid : (st.amid n f phase mux t sources).server.forwardings[n]? =
    some { f with phase } := by
  show (st.server.forwardings.insert _ _)[n]? = _
  rw [Std.ExtTreeMap.getElem?_insert, if_pos (by simp)]

/-- One step in the middle of an item. -/
private theorem passOn_amid (busy : 0 < phase.remaining)
    (go : ({ f with phase } : Forwarding).step? (st.amid n f phase mux t sources) =
      some { phase := some phase', stage := st.amid n f phase mux' t' sources' }) :
    (st.amid n f phase mux t sources).passOn n = (st.amid n f phase' mux' t' sources').passOn n := by
  have hdue : 0 < (st.amid n f phase mux t sources).due n := by
    rw [due_of_found found_amid]
    exact busy
  rw [passOn_next hdue (forward?_of_step found_amid go)]
  -- The task is written over its own entry, so the stage is again of this form.
  simp only [amid, putForwarding, setServer, insert_insert]

/-- A stage is amid what its task is doing. -/
private theorem amid_self (found : st.server.forwardings[n]? = some f) :
    st.amid n f f.phase st.server.mux st.transport st.sources = st := by
  have htasks : st.server.forwardings.insert n f = st.server.forwardings := by
    refine Std.ExtTreeMap.ext_getElem? fun k => ?_
    rw [Std.ExtTreeMap.getElem?_insert]
    split
    · next hk => rw [← Std.compare_eq_iff_eq.1 hk, found]
    · rfl
  simp only [amid, htasks]

/-- An item of an active stream is cleared. -/
private theorem passOn_pulled {v : ServerValue} (active : mux.tracker.isActive f.id = true) :
    (st.amid n f (.pulled (.next v)) mux t sources).passOn n =
      (st.amid n f (.cleared (.next v)) mux t sources).passOn n :=
  passOn_amid (by simp [Forwarding.Phase.remaining]) (if_pos active)

/-- A cleared item is exposed. -/
private theorem passOn_cleared {v : ServerValue} :
    (st.amid n f (.cleared (.next v)) mux t sources).passOn n =
      (st.amid n f (.exposed (.next (mux.expose f.client v).1) (mux.expose f.client v).2.1)
        (mux.expose f.client v).2.2 t sources).passOn n :=
  passOn_amid (by simp [Forwarding.Phase.remaining]) rfl

/-- An exposed item that can be written is encoded. -/
private theorem passOn_exposed {wire : WireValue} {nested : List Subscription} {e : Envelope}
    (written : (ServerMessage.observation f.id (.next wire)).toEnvelope = .ok e) :
    (st.amid n f (.exposed (.next wire) nested) mux t sources).passOn n =
      (st.amid n f (.encoded e false nested) mux t sources).passOn n :=
  passOn_amid (by simp [Forwarding.Phase.remaining]) (by
    simp only [Forwarding.step?, Forwarding.encode, written]
    rfl)

/-- An exposed item that cannot be written fails the stream. -/
private theorem passOn_unwritable {wire : WireValue} {nested : List Subscription} {err : CodecError}
    (unwritable : (ServerMessage.observation f.id (.next wire)).toEnvelope = .error err) :
    (st.amid n f (.exposed (.next wire) nested) mux t sources).passOn n =
      (st.amid n f (.failing (.unwritable "observation" err))
        (mux.retireAll (nested.map (·.id))) t (sources.dropAll (nested.map (·.source)))).passOn n :=
  passOn_amid (by simp [Forwarding.Phase.remaining]) (by
    simp only [Forwarding.step?, Forwarding.encode, unwritable]
    rfl)

/-- Sending amid an item is a send of the transport. -/
theorem send_amid (e : Envelope) : (st.amid n f phase mux t sources).send f.client e =
    ((t.send f.client e).1, st.amid n f phase mux (t.send f.client e).2 sources) :=
  rfl

/-- An encoded item that the queue takes is accepted. -/
private theorem passOn_encoded {nested : List Subscription} {e : Envelope}
    (taken : t.send f.client e = (.ok (), t')) :
    (st.amid n f (.encoded e false nested) mux t sources).passOn n =
      (st.amid n f (.accepted false nested) mux t' sources).passOn n :=
  passOn_amid (by simp [Forwarding.Phase.remaining]) (by
    simp only [Forwarding.step?, send_amid, taken])

/-- An encoded item that the queue does not take is refused. -/
private theorem passOn_encoded_refused {nested : List Subscription} {e : Envelope}
    {err : TransportError}
    (refused : t.send f.client e = (.error err, t')) :
    (st.amid n f (.encoded e false nested) mux t sources).passOn n =
      (st.amid n f (.refused nested) mux t' sources).passOn n :=
  passOn_amid (by simp [Forwarding.Phase.remaining]) (by
    simp only [Forwarding.step?, send_amid, refused])

/-- A refused item is taken back with its streams and sources, and then the stream closes. -/
private theorem passOn_refused {nested : List Subscription} :
    (st.amid n f (.refused nested) mux t sources).passOn n =
      (st.amid n f .closing (mux.retireAll (nested.map (·.id))) t
        (sources.dropAll (nested.map (·.source)))).passOn n :=
  passOn_amid (by simp [Forwarding.Phase.remaining]) rfl

/-- A stream that fails says so once and then closes. -/
private theorem passOn_failing {failure : Failure} {e : Envelope}
    (written : (ServerMessage.observation f.id (.error failure)).toEnvelope = .ok e) :
    (st.amid n f (.failing failure) mux t sources).passOn n =
      (st.amid n f .closing mux (t.send f.client e).2 sources).passOn n :=
  passOn_amid (by simp [Forwarding.Phase.remaining]) (by
    simp only [Forwarding.step?, Forwarding.tell, written, send_amid])

/-- The task goes on waiting once the streams in its item are started. -/
private theorem passOn_accepted {nested : List Subscription} :
    (st.amid n f (.accepted false nested) mux t sources).passOn n =
      ((st.amid n f (.accepted false nested) mux t sources).start f.client nested).putForwarding n f
        (some .waiting) := by
  have hdue : 0 < (st.amid n f (.accepted false nested) mux t sources).due n := by
    rw [due_of_found found_amid]
    exact Nat.succ_pos 1
  -- One step more starts the nested tasks, and after it the task waits again.
  rw [passOn_next hdue (forward?_of_step found_amid rfl)]
  refine passOn_rest ?_
  rw [due, forwardings_putForwarding, if_pos rfl]
  rfl

/-- The task is over once its stream is retired. -/
private theorem passOn_closing : (st.amid n f .closing mux t sources).passOn n =
    (f.finish ((st.amid n f .closing mux t sources).retire f.id) []).stage.putForwarding n f none := by
  have hdue : 0 < (st.amid n f .closing mux t sources).due n := by
    rw [due_of_found found_amid]
    exact Nat.succ_pos 0
  rw [passOn_next hdue (forward?_of_step found_amid rfl)]
  refine passOn_rest ?_
  rw [due, forwardings_putForwarding, if_pos rfl]
  rfl

/-- A task that was there before goes on to another phase. -/
private theorem Adds.put {st' : Stage} {client : String} {v : ServerValue} {wire : WireValue}
    {tasks : Std.ExtTreeMap Nat Forwarding} (adds : st.Adds client v wire tasks st')
    (hn : n < st.server.nextTask) (f : Forwarding) (phase : Forwarding.Phase) :
    st.Adds client v wire (tasks.insert n { f with phase })
      (st'.putForwarding n f (some phase)) where
  shape := adds.shape
  slots := adds.slots
  distinct := adds.distinct
  fresh := adds.fresh
  owner := adds.owner
  owned := adds.owned
  -- The task that goes on is an old one, so the new ones are untouched.
  started i id source hid hsource := by
    obtain ⟨signal, started, active⟩ := adds.started i id source hid hsource
    refine ⟨signal, ?_, active⟩
    rw [forwardings_putForwarding, if_neg (by omega), started]
  -- Under its own number the task is found in its new phase, on both sides.
  others k hk := by
    rw [forwardings_putForwarding, Std.ExtTreeMap.getElem?_insert]
    by_cases heq : n = k
    · rw [if_pos heq, if_pos (Std.compare_eq_iff_eq.2 heq)]
      rfl
    · rw [if_neg heq, if_neg (by rwa [Std.compare_eq_iff_eq])]
      exact adds.others k hk
  nextTask := adds.nextTask
  handlings := adds.handlings
  sources := adds.sources

end

end Stage

namespace Forwarding

/-- Whether every length in the item with this value fits its prefix. -/
def ItemFits (v : WireValue) : Prop :=
  (Wire.Item.variant "next" v.toItem).Fits

/-- What passing on an item comes to, and what it leaves. -/
inductive Ends (st : Stage) (n : Nat) (f : Forwarding) (v : ServerValue) (st' : Stage) : Way → Prop
    where
  | delivered {e : Envelope}
      (written : (ServerMessage.observation f.id (.next (st.expose f.client v).1)).toEnvelope =
        .ok e)
      (taken : st.transport.send f.client e = (.ok (), st'.transport))
      (adds : st.Adds f.client v (st.expose f.client v).1
        (st.server.forwardings.insert n { f with phase := .waiting }) st') :
      Ends st n f v st' .delivered
  | excused {err : CodecError} {e : Envelope}
      (unwritable : (ServerMessage.observation f.id (.next (st.expose f.client v).1)).toEnvelope =
        .error err)
      (deep : ItemFits (st.expose f.client v).1 → maxDepth < v.depth ∧ err = .nestingTooDeep)
      (written : (ServerMessage.observation f.id
        (.error (.unwritable "observation" err))).toEnvelope = .ok e)
      (sent : st'.transport = (st.transport.send f.client e).2)
      (reverts : st.Reverts v (st.tracker.retire f.id).2 (st.server.forwardings.erase n) st')
      (dropped : st'.sources.live f.source = false) : Ends st n f v st' .excused
  | refused {e : Envelope} {err : TransportError}
      (written : (ServerMessage.observation f.id (.next (st.expose f.client v).1)).toEnvelope =
        .ok e)
      (refused : st.transport.send f.client e = (.error err, st'.transport))
      (reverts : st.Reverts v (st.tracker.retire f.id).2 (st.server.forwardings.erase n) st')
      (dropped : st'.sources.live f.source = false) : Ends st n f v st' .refused

/-- Passing on an item does not come to two things. -/
private theorem Ends.unique {st st' : Stage} {n : Nat} {f : Forwarding} {v : ServerValue}
    {way way' : Way}
    (ends : Ends st n f v st' way) (ends' : Ends st n f v st' way') : way = way' := by
  -- What was written and what the queue said to it tell the three apart.
  cases ends with
  | delivered written taken _ =>
    cases ends' with
    | delivered => rfl
    | excused unwritable => rw [written] at unwritable; cases unwritable
    | refused written' refused' =>
      obtain rfl := Except.ok.inj (written.symm.trans written')
      rw [taken] at refused'
      cases refused'
  | excused unwritable _ _ _ _ _ =>
    cases ends' with
    | delivered written | refused written => rw [written] at unwritable; cases unwritable
    | excused => rfl
  | refused written refused _ _ =>
    cases ends' with
    | delivered written' taken' =>
      obtain rfl := Except.ok.inj (written.symm.trans written')
      rw [refused] at taken'
      cases taken'
    | excused unwritable => rw [written] at unwritable; cases unwritable
    | refused => rfl

/-- A value that is refused though its lengths fit is too deep. -/
private theorem deep_of_unwritable {id : StreamId} {wire : WireValue} {err : CodecError}
    (unwritable : (ServerMessage.observation id (.next wire)).toEnvelope = .error err)
    (fits : ItemFits wire) : maxDepth < wire.depth ∧ err = .nestingTooDeep := by
  -- An item that fits can be written unless it is too deep.
  rcases Nat.lt_or_ge maxDepth wire.depth with h | h
  · refine ⟨h, ?_⟩
    obtain ⟨w, hw⟩ := Wire.Writer.variantBegin_ok (w := {}) rfl fits.1
    have hw' : ofWire (Wire.Writer.variantBegin {} "next") = .ok w := ofWire_eq_ok_iff.2 hw
    have hv : wire.write w = .error .nestingTooDeep :=
      Value.writeWithin_deep ((Wire.Writer.variantBegin_inside hw).1.accepts (by decide))
        fits.2.2 h
    simpa [ServerMessage.toEnvelope, ServerMessage.writeEvent, Notification.kind, hw', hv, bind,
      Except.bind, eq_comm] using unwritable
  · have := ServerMessage.observation_toEnvelope id (.next wire) fits (by rintro v ⟨⟩; exact h)
    rw [this] at unwritable
    cases unwritable

section
variable {st : Stage} {n : Nat} {f : Forwarding} {v : ServerValue}
  (sound : st.server.mux.Sound) (tidy : st.tracker.Tidy)
  (few : st.server.mux.numbered + v.slots.length ≤ 2 ^ 64)
include sound tidy few

/-- When the streams in an item are given up and its own stream is retired, nothing is left of the
    former. -/
private theorem reverts_closing (t : Transport) (n : Nat) (f : Forwarding) :
    let st' := (st.amid n f .closing
      ((st.expose f.client v).2.2.abandon (st.expose f.client v).2.1).server.mux t
      ((st.expose f.client v).2.2.abandon (st.expose f.client v).2.1).sources).passOn n
    st.Reverts v (st.tracker.retire f.id).2 (st.server.forwardings.erase n) st' ∧
      st'.sources.live f.source = false ∧ st'.transport = t := by
  intro st'
  -- Once the numbers are taken back the books are those of before, so retiring the stream of the
  -- task does to them what it would have done then.
  obtain ⟨active, owned, sound', tidy'⟩ := sound.rollback tidy f.client v few
  have hst' : st' = _ := Stage.passOn_closing
  have hactive : st'.tracker.active = (st.tracker.retire f.id).2.active := by
    rw [hst']
    refine Std.ExtTreeMap.ext_getElem? fun id => ?_
    show ((Multiplexer.tracker _).retire f.id).2.active[id]? = _
    rw [Tracker.active_retire, Tracker.active_retire]
    split
    · rfl
    · exact congrArg (·[id]?) active
  -- in tidy books the streams that are active determine who owns them
  have howned : st'.tracker.owned = (st.tracker.retire f.id).2.owned := by
    refine Tracker.owned_eq ?_ ?_ (sound.books.retire f.id) (tidy.retire f.id) hactive
    · rw [hst']
      exact sound'.books.retire f.id
    · rw [hst']
      exact tidy'.retire f.id
  have hsources : st'.sources = (((st.expose f.client v).2.2.abandon
      (st.expose f.client v).2.1).sources.dropAll [f.source]) := by
    rw [hst']
    rfl
  refine ⟨⟨hactive, howned, ?_, ?_, ?_, fun r hr => ?_⟩, ?_, ?_⟩
  · rw [hst']
    exact Stage.erase_insert _ n _
  · rw [hst']
    rfl
  · rw [hst']
    rfl
  · rw [hsources, ← Bool.not_eq_true]
    intro live
    -- The sources were dropped with their numbers, and dropping one more brings none back.
    have abandoned : ((st.expose f.client v).2.2.abandon (st.expose f.client v).2.1).sources.live r =
        false := (Stage.reverts_abandon sound few tidy st.transport).dropped r hr
    rw [Sources.live_of_live_dropAll _ _ r live] at abandoned
    cases abandoned
  · rw [hsources]
    exact Sources.dropAll_not_live _ _ _ (List.mem_singleton_self _)
  · rw [hst']
    rfl

/-- Passing on an item comes to one of three things. -/
private theorem ends (found : st.server.forwardings[n]? = some f)
    (phase : f.phase = .pulled (.next v))
    (active : st.tracker.isActive f.id = true) (hn : n < st.server.nextTask)
    (measured : ∀ err, (ServerMessage.observation f.id
      (.next (st.expose f.client v).1)).toEnvelope = .error err → err.Measured) :
    ∃ way, Ends st n f v (st.passOn n) way := by
  have hdepth : (st.expose f.client v).1.depth = v.depth :=
    (st.server.mux.expose_exposes f.client v).depth
  -- first to where the sources in the item have numbers and nothing is written
  have hself : st.passOn n =
      (st.amid n f (.pulled (.next v)) st.server.mux st.transport st.sources).passOn n := by
    rw [← phase, Stage.amid_self found]
  have hexposed : st.passOn n = (st.amid n f
      (.exposed (.next (st.expose f.client v).1) (st.expose f.client v).2.1)
      (st.expose f.client v).2.2.server.mux st.transport st.sources).passOn n :=
    hself.trans ((Stage.passOn_pulled active).trans Stage.passOn_cleared)
  rw [hexposed]
  cases hw : (ServerMessage.observation f.id (.next (st.expose f.client v).1)).toEnvelope with
  | ok e =>
    rw [Stage.passOn_exposed hw]
    cases hsend : st.transport.send f.client e with
    | mk result t =>
      cases result with
      | ok u =>
        rw [Stage.passOn_encoded hsend, Stage.passOn_accepted]
        have adds := (Stage.adds_start sound few (st.amid n f (.accepted false
          (st.expose f.client v).2.1) (st.expose f.client v).2.2.server.mux t st.sources)
            rfl rfl rfl rfl).put hn f .waiting
        unfold Stage.amid at adds
        rw [Stage.insert_insert] at adds
        exact ⟨.delivered, .delivered hw hsend adds⟩
      | error err =>
        rw [Stage.passOn_encoded_refused hsend, Stage.passOn_refused]
        obtain ⟨reverts, dropped, htransport⟩ := reverts_closing sound tidy few t n f
        exact ⟨.refused, .refused hw (hsend.trans (congrArg (Prod.mk _) htransport.symm)) reverts
          dropped⟩
  | error err =>
    have hwhat : (Wire.utf8 "observation").length ≤ 100 := by decide
    obtain ⟨e, he⟩ := (ServerMessage.excuse hwhat hw (measured err hw) ⟨0⟩ f.id).2
    rw [Stage.passOn_unwritable hw, Stage.passOn_failing he]
    obtain ⟨reverts, dropped, htransport⟩ :=
      -- The failure is sent before the task closes, and what its queue says to it does not matter.
      reverts_closing sound tidy few (st.transport.send f.client e).2 n f
    have deep := deep_of_unwritable hw
    rw [hdepth] at deep
    exact ⟨.excused, .excused hw deep he htransport reverts dropped⟩

omit sound tidy few in
/-- An item of a stream that was retired meanwhile is dropped, and nothing else happens. -/
private theorem untold (found : st.server.forwardings[n]? = some f)
    (phase : f.phase = .pulled (.next v))
    (inactive : st.tracker.isActive f.id = false) :
    st.Reverts v st.tracker (st.server.forwardings.erase n) (st.passOn n) ∧
      (st.passOn n).server.mux = st.server.mux ∧ (st.passOn n).transport = st.transport ∧
        (st.passOn n).sources.live f.source = false := by
  have hdue : 0 < st.due n := by
    rw [Stage.due_of_found found, phase]
    exact Nat.succ_pos 5
  have hstep : f.step? st = some (f.finish st v.slots) := by
    simp only [step?, phase, inactive, Bool.false_eq_true, if_false, Notification.sources]
  -- One step ends it: the source and what came from it are dropped together.
  have hover : st.passOn n = (f.finish st v.slots).stage.putForwarding n f none := by
    rw [Stage.passOn_next hdue (Stage.forward?_of_step found hstep)]
    refine Stage.passOn_rest ?_
    rw [Stage.due, Stage.forwardings_putForwarding, if_pos rfl]
    rfl
  rw [hover]
  have dropped : ∀ r ∈ f.source :: v.slots, (st.sources.dropAll (f.source :: v.slots)).live r = false :=
    fun r => Sources.dropAll_not_live _ _ r
  exact ⟨⟨rfl, rfl, rfl, rfl, rfl, fun r hr => dropped r (List.mem_cons_of_mem _ hr)⟩, rfl, rfl,
    dropped f.source List.mem_cons_self⟩

end

end Forwarding

/-- In every state that a server can get to, sending an answer comes to exactly one of three things.
    The answer is written and the queue takes it; then the streams in it have the next numbers in the
    order of the slots, and are active for the client, and their tasks are started in this order.
    Or it is too deep, and nothing but a failure that says so is sent and taken; or the one message
    that is sent is refused.  Then the tracker is what it was, no task is started, and the sources in
    the answer are gone.  Passing on an item comes to the same, but that its own stream is retired
    with its task if the item cannot be written or is refused; and of a stream that was retired
    meanwhile nothing is sent. -/
theorem sending_all_or_nothing {router : Router} {config : ServerConfig} {t t' : Transport}
    {s : Server} (up : Server.launch router config t = (.ok s, t')) {sources : Sources}
    {tr : ServerTrace} {st : Stage}
    (run : Stage.Run { server := s, sources, transport := t' } tr st) :
    (∀ (client : String) (id : CallId) (v : ServerValue),
      st.server.mux.numbered + v.slots.length ≤ 2 ^ 64 →
      (∀ err, (ServerMessage.reply id (.ok (st.expose client v).1)).toEnvelope = .error err →
        err.Measured) →
      ∃! way, Reply.Ends st client id v (st.reply client id (.ok v)).1
        (st.reply client id (.ok v)).2 way) ∧
    ∀ (n : Nat) (f : Forwarding) (v : ServerValue), st.server.forwardings[n]? = some f →
      f.phase = .pulled (.next v) → st.server.mux.numbered + v.slots.length ≤ 2 ^ 64 →
      (∀ err, (ServerMessage.observation f.id (.next (st.expose f.client v).1)).toEnvelope =
        .error err → err.Measured) →
      (st.tracker.isActive f.id = true → ∃! way, Forwarding.Ends st n f v (st.passOn n) way) ∧
      (st.tracker.isActive f.id = false →
        st.Reverts v st.tracker (st.server.forwardings.erase n) (st.passOn n) ∧
          (st.passOn n).server.mux = st.server.mux ∧ (st.passOn n).transport = st.transport ∧
            (st.passOn n).sources.live f.source = false) := by
  have fresh := Server.fresh_of_launch up sources
  have tidy := run.tidy fresh
  constructor
  -- An answer.
  · intro client id v few measured
    have sound := (run.sound fresh (by omega)).1
    obtain ⟨way, ends⟩ := Reply.ends sound tidy few measured
    exact ⟨way, ends, fun way' ends' => ends'.unique ends⟩
  -- An item.
  · intro n f v found phase few measured
    have sound := (run.sound fresh (by omega)).1
    refine ⟨fun active => ?_, Forwarding.untold found phase⟩
    have hn := (run.told fresh).lt_of_forwarding found
    obtain ⟨way, ends⟩ := Forwarding.ends sound tidy few found phase active hn measured
    exact ⟨way, ends, fun way' ends' => ends'.unique ends⟩

namespace Bundled

/-- A method that answers with a stream whose one item is a number with a stream of two more. -/
def router : Router :=
  .ofList [("count", fun _ =>
    .ends (.returned (.stream (.ofValues [.list [.u64 7, .stream (.counting 2)]]))))]

/-- The request is answered, and the stream has yielded its item. -/
def halfway : ServerTrace × Stage :=
  (Stage.launched router).play
    (.meanwhile Counting.ask :: .serve :: List.replicate 6 (.handle 0 0) ++ [.forward 1])

/-- The moves make a run. -/
private theorem run_halfway : Stage.Run (.launched router) halfway.1 halfway.2 :=
  Stage.play_run _ _

/-- The item with this source in it. -/
def bundle (r : SourceRef) : ServerValue :=
  .list [.u64 7, .stream r]

/-- The source in the item that a task was just given. -/
def given? (f : Forwarding) : Option SourceRef :=
  match f.phase with
  | .pulled (.next (.list [.u64 7, .stream r])) => some r
  | _ => none

/-- A task that was given such an item has it in hand. -/
private theorem phase_of_given {f : Forwarding} {r : SourceRef} (h : given? f = some r) :
    f.phase = .pulled (.next (bundle r)) := by
  unfold given? at h
  split at h
  · next heq => rw [heq, Option.some.inj h, bundle]
  · cases h

/-- The task of the stream has the item in hand, its source is there, and it can be written. -/
private theorem halfway_given :
    ∃ f r, halfway.2.server.forwardings[1]? = some f ∧ given? f = some r ∧
    halfway.2.sources.live r = true ∧ halfway.2.tracker.isActive f.id = true ∧
      (ServerMessage.observation f.id
        (.next (halfway.2.expose f.client (bundle r)).1)).toEnvelope.isOk = true := by
  have there : (halfway.2.server.forwardings[1]?.any fun f => (given? f).any fun r =>
      halfway.2.sources.live r && (halfway.2.tracker.isActive f.id &&
        (ServerMessage.observation f.id
          (.next (halfway.2.expose f.client (bundle r)).1)).toEnvelope.isOk)) = true := by
    decide +kernel
  simp only [Option.any_eq_true, Bool.and_eq_true] at there
  obtain ⟨f, found, r, given, live, active, written⟩ := there
  exact ⟨f, r, found, given, live, active, written⟩

/-- An answer with two streams in it. -/
def pair : ServerValue :=
  .list [.stream ⟨5⟩, .present (.stream ⟨6⟩)]

end Bundled

/-- There an answer with two streams comes to one of these things, and so does the item with a stream
    in it. -/
theorem sending_all_or_nothing_counting :
    (∃! way, Reply.Ends Bundled.halfway.2 "rpc.client.a" ⟨1⟩ Bundled.pair
      (Bundled.halfway.2.reply "rpc.client.a" ⟨1⟩ (.ok Bundled.pair)).1
      (Bundled.halfway.2.reply "rpc.client.a" ⟨1⟩ (.ok Bundled.pair)).2 way) ∧
    ∃ f r, f.phase = .pulled (.next (Bundled.bundle r)) ∧ Bundled.halfway.2.sources.live r = true ∧
      Bundled.halfway.2.tracker.isActive f.id = true ∧
        ∃! way, Forwarding.Ends Bundled.halfway.2 1 f (Bundled.bundle r)
          (Bundled.halfway.2.passOn 1) way := by
  obtain ⟨answers, items⟩ :=
    sending_all_or_nothing (Server.launch_launched Bundled.router) Bundled.run_halfway
  -- Both messages can be written here, so the bounds on their sizes are not asked for.
  have written : (ServerMessage.reply ⟨1⟩
      (.ok (Bundled.halfway.2.expose "rpc.client.a" Bundled.pair).1)).toEnvelope.isOk = true := by
    decide +kernel
  obtain ⟨f, r, found, given, live, active, written'⟩ := Bundled.halfway_given
  have phase := Bundled.phase_of_given given
  have few : Bundled.halfway.2.server.mux.numbered + Bundled.pair.slots.length ≤ 2 ^ 64 := by
    decide +kernel
  have one : (Bundled.bundle r).slots.length ≤ Bundled.pair.slots.length := Nat.le_succ 1
  have fewer : Bundled.halfway.2.server.mux.numbered + (Bundled.bundle r).slots.length ≤ 2 ^ 64 := by
    omega
  -- The reply has its one way, and the item too, as its stream is active.
  refine ⟨answers _ _ _ few fun err h => ?_, f, r, phase, live, active,
    (items 1 f _ found phase fewer fun err h => ?_).1 active⟩
  · rw [h] at written
    cases written
  · rw [h] at written'
    cases written'

end StreamRpc
