import Mathlib.Data.List.Nodup
import Mathlib.Algebra.GroupWithZero.Nat
import StreamRpc.Proofs.Lists
import StreamRpc.Proofs.Stream.Clients
import StreamRpc.Proofs.Stream.Retiring

/-! # The history of a tracker

Streams are registered, retired, and retired together when their client departs, and whoever holds a
registration looks at its signal from time to time.  A number may be registered again after it was
retired, but not while it is active.  What has happened so far says which streams are active and
whose they are, and what each signal shows.

* `Tracker.Change`, `Tracker.History`       any operations in any order
* `Tracker.Sound.activeCount_eq`            how the counts of the two books belong together
* `Tracker.Agrees`                          what has happened says what the tracker knows
* `Tracker.registrations_accounted_for`     all of it together
-/

namespace StreamRpc

/-- What happens to a tracker. -/
inductive TrackerEvent where
  /-- A stream became active for a client. -/
  | registered (id : StreamId) (client : String) (signal : SignalId)
  /-- A stream was retired, and it had been active or not. -/
  | retired (id : StreamId) (was : Bool)
  /-- All streams of a client were retired, so many. -/
  | departed (client : String) (count : Nat)
  /-- A signal was looked at. -/
  | looked (signal : SignalId) (seen : Signal)
  deriving DecidableEq

/-- What has happened to a tracker, the oldest first. -/
abbrev TrackerTrace := List TrackerEvent

namespace TrackerEvent

/-- Whether this retires a stream that is active for this client. -/
def Ends (id : StreamId) (client : String) : TrackerEvent → Prop
  | retired other _ => other = id
  | departed other _ => other = client
  | _ => False

/-- For whom the stream was registered. -/
def client? (id : StreamId) : TrackerEvent → Option String
  | registered other client _ => if other = id then some client else none
  | _ => none

end TrackerEvent

namespace TrackerTrace

/-- For whom the stream was registered last. -/
def lastClient? (tr : TrackerTrace) (id : StreamId) : Option String :=
  (tr.filterMap (TrackerEvent.client? id)).getLast?

/-- How often somebody saw that this signal had gone off. -/
def seen (tr : TrackerTrace) (s : SignalId) : Nat :=
  tr.count (.looked s .fired)

/-- The last client of an id is that of its last registration. -/
private theorem lastClient?_concat (tr : TrackerTrace) (x : TrackerEvent) (id : StreamId) :
    lastClient? (tr ++ [x]) id = (x.client? id).or (tr.lastClient? id) := by
  unfold lastClient?
  cases h : x.client? id <;> simp [h]

/-- A look that finds the signal up is one more sighting. -/
private theorem seen_concat (tr : TrackerTrace) (x : TrackerEvent) (s : SignalId) :
    seen (tr ++ [x]) s = tr.seen s + if x = .looked s .fired then 1 else 0 := by
  unfold seen
  rw [List.count_append, List.count_singleton]
  simp

end TrackerTrace

namespace Tracker

open TrackerTrace (lastClient?_concat seen_concat)

/-- One operation, and what is told of it.  Only a stream that is not active can be registered. -/
inductive Change (t : Tracker) : TrackerEvent → Tracker → Prop where
  | register {id : StreamId} (client : String) (unused : t.isActive id = false) :
      Change t (.registered id client (t.register id client).1) (t.register id client).2
  | retire (id : StreamId) : Change t (.retired id (t.retire id).1) (t.retire id).2
  | depart (client : String) :
      Change t (.departed client (t.retireClient client).1) (t.retireClient client).2
  | look (s : SignalId) : Change t (.looked s (t.takeSignal s).1) (t.takeSignal s).2

/-- Operations in turn, with all that can be told of them. -/
inductive History : TrackerTrace → Tracker → Prop where
  | nil : History [] {}
  | next {tr : TrackerTrace} {x : TrackerEvent} {t t' : Tracker} (history : History tr t)
      (change : Change t x t') : History (tr ++ [x]) t'

variable {t t' : Tracker} {tr : TrackerTrace}

/-- An id is active when it has a registration. -/
private theorem active_of_isActive {id : StreamId} :
    t.isActive id = true ↔ ∃ r, t.active[id]? = some r := by
  rw [isActive, Std.ExtTreeMap.contains_eq_isSome_getElem?, Option.isSome_iff_exists]

/-- An id that is not active has no registration. -/
private theorem active_of_unused {id : StreamId} (unused : t.isActive id = false) :
    t.active[id]? = none := by
  rwa [isActive, Std.ExtTreeMap.contains_eq_isSome_getElem?, Option.isSome_eq_false_iff,
    Option.isNone_iff_eq_none] at unused

/-! ## The books -/

/-- A client is on the books as long as it has active streams. -/
private theorem Tidy.mem_owned_iff (tidy : t.Tidy) (client : String) :
    client ∈ t.owned ↔ ∃ id, id ∈ t.ownedBy client := by
  rw [Std.ExtTreeMap.mem_iff_isSome_getElem?, ownedBy]
  cases hids : t.owned[client]? with
  | none => simp
  | some ids =>
    -- A client in the index has a stream, for empty sets are taken out.
    have hne : ¬∀ id, id ∉ ids := fun hnone => by
      have hfull := tidy client ids hids
      rw [Std.ExtTreeSet.isEmpty_iff.2 (Std.ExtTreeSet.eq_empty_iff_forall_not_mem.2 hnone)] at hfull
      cases hfull
    simpa using hne

/-- The lists of all clients together have every active stream once. -/
private theorem Sound.perm_active (h : t.Sound) (tidy : t.Tidy) :
    (t.owned.keys.flatMap fun client => (t.ownedBy client).toList).Perm t.active.keys := by
  -- Neither list has a duplicate, so the same members suffice.
  refine (List.perm_ext_iff_of_nodup ?_ Std.ExtTreeMap.nodup_keys).2 fun id => ?_
  · refine List.nodup_flatMap.2 ⟨fun client _ => ?_, ?_⟩
    · exact Std.ExtTreeSet.distinct_toList.imp fun hne heq => hne (by rw [heq]; exact Std.compare_self)
    · -- A stream is active for one client only.
      refine Std.ExtTreeMap.nodup_keys.imp fun {client other} hne => ?_
      intro id hid hid'
      obtain ⟨r, hr, rfl⟩ := (h.owned client id).1 (Std.ExtTreeSet.mem_toList.1 hid)
      obtain ⟨r', hr', rfl⟩ := (h.owned other id).1 (Std.ExtTreeSet.mem_toList.1 hid')
      exact hne (congrArg Registration.client (Option.some.inj (hr.symm.trans hr')))
  · rw [Std.ExtTreeMap.mem_keys, ← Std.ExtTreeMap.contains_iff_mem, ← isActive, active_of_isActive,
      List.mem_flatMap]
    constructor
    · rintro ⟨client, -, hid⟩
      obtain ⟨r, hr, -⟩ := (h.owned client id).1 (Std.ExtTreeSet.mem_toList.1 hid)
      exact ⟨r, hr⟩
    · rintro ⟨r, hr⟩
      have hid : id ∈ t.ownedBy r.client := (h.owned r.client id).2 ⟨r, hr, rfl⟩
      exact ⟨r.client, Std.ExtTreeMap.mem_keys.2 ((tidy.mem_owned_iff r.client).2 ⟨id, hid⟩),
        Std.ExtTreeSet.mem_toList.2 hid⟩

/-- As many streams are active as all clients together have. -/
theorem Sound.activeCount_eq (h : t.Sound) (tidy : t.Tidy) :
    t.activeCount = (t.owned.keys.map t.activeFor).sum := by
  have hlength := (h.perm_active tidy).length_eq
  rw [List.length_flatMap, Std.ExtTreeMap.length_keys] at hlength
  rw [activeCount, ← hlength]
  refine congrArg List.sum (List.map_congr_left fun client _ => ?_)
  exact Std.ExtTreeSet.length_toList

/-- Streams that are active and different are all counted. -/
private theorem expire_fst {ids : List StreamId} (nodup : ids.Nodup)
    (active : ∀ id ∈ ids, ∃ r, t.active[id]? = some r) : (t.expire ids).1 = ids.length := by
  induction ids generalizing t with
  | nil => rfl
  | cons id ids ih =>
    obtain ⟨r, hr⟩ := active id List.mem_cons_self
    obtain ⟨hid, hids⟩ := List.nodup_cons.1 nodup
    have hrest := ih (t := { t with active := t.active.erase id }.setSignal r.signal .fired) hids
      fun other hother => by
        -- The ids are different, so the first leaves the others active.
        have hne : ¬id = other := fun heq => hid (heq ▸ hother)
        obtain ⟨r', hr'⟩ := active other (List.mem_cons_of_mem id hother)
        exact ⟨r', by simpa [setSignal, Std.ExtTreeMap.getElem?_erase, hne] using hr'⟩
    simp only [expire, hr, hrest, List.length_cons]

/-- A departure retires as many streams as the client has. -/
private theorem Sound.count_retireClient (h : t.Sound) (client : String) :
    (t.retireClient client).1 = t.activeFor client := by
  rw [retireClient_fst, activeFor, ← Std.ExtTreeSet.length_toList]
  refine expire_fst ?_ fun id hid => ?_
  · exact Std.ExtTreeSet.distinct_toList.imp fun hne heq => hne (by rw [heq]; exact Std.compare_self)
  · obtain ⟨r, hr, -⟩ := (h.owned client id).1 (Std.ExtTreeSet.mem_toList.1 hid)
    exact ⟨r, hr⟩

/-! ## Signals -/

/-- The holder of a registration sees what its signal shows, and nothing changes unless it sees that
    the signal has gone off. -/
private theorem takeSignal_cases (t : Tracker) (s : SignalId) :
    t.signal s ≠ .fired ∧ t.takeSignal s = (t.signal s, t) ∨
      t.signal s = .fired ∧ t.takeSignal s = (.fired, t.setSignal s .spent) := by
  unfold takeSignal
  cases hs : t.signal s with
  | armed => exact .inl ⟨by simp, rfl⟩
  | fired => exact .inr ⟨rfl, rfl⟩
  | spent =>
    -- A signal that is spent is written over with what it was.
    have hsame : t.signals.set s.index .spent = t.signals := by
      refine List.ext_getElem? fun i => ?_
      rw [List.getElem?_set]
      split
      · next hi =>
        subst hi
        split
        · next hlt =>
          rw [signal, List.getElem?_eq_getElem hlt] at hs
          rw [List.getElem?_eq_getElem hlt, ← hs]
          rfl
        · next hge => exact (List.getElem?_eq_none (Nat.le_of_not_lt hge)).symm
      · rfl
    refine .inl ⟨by simp, ?_⟩
    simp only [setSignal, hsame]

/-- A signal goes off if its stream is taken out, and stays as it is otherwise. -/
theorem Removes.signal_cases {out : StreamId → Registration → Prop} {n : Nat}
    (removes : Removes t out n t') (ready : t.Signalled) (s : SignalId) :
    (∃ (id : StreamId) (r : Registration), t.active[id]? = some r ∧ out id r ∧ r.signal = s ∧
      t.signal s = .armed ∧ t'.signal s = .fired) ∨ t'.signal s = t.signal s := by
  -- A signal of no stream that is taken out stays as it is.
  by_cases hit : ∃ (id : StreamId) (r : Registration),
      t.active[id]? = some r ∧ out id r ∧ r.signal = s
  · obtain ⟨id, r, hr, hout, rfl⟩ := hit
    exact .inl ⟨id, r, hr, hout, rfl, signal_of_getElem? (ready.armed id r hr),
      signal_of_getElem? (removes.fired id r hr hout)⟩
  · refine .inr (signal_congr (removes.kept s.index fun id r hr hout heq => hit ?_))
    exact ⟨id, r, hr, hout, eq_of_index heq⟩

section

variable {out : StreamId → Registration → Prop} {n : Nat} {id : StreamId} {client : String}
  {s : SignalId} (removes : Removes t out n t') (ready : t.Signalled)
  (own : t.signal s = .armed → t.active[id]? = some { client, signal := s })

include removes ready own

/-- The signal of a stream goes off when that stream is taken out. -/
private theorem Removes.goes_off :
    t.signal s ≠ .fired ∧ t'.signal s = .fired ↔ t.signal s = .armed ∧ out id ⟨client, s⟩ := by
  rcases removes.signal_cases ready s with ⟨other, r, hr, hout, rfl, harmed, hfired⟩ | hsame
  · -- The stream that was taken out is the one that the signal belongs to.
    have hown := own harmed
    obtain rfl := ready.apart other id r _ hr hown rfl
    have heq := Option.some.inj (hr.symm.trans hown)
    refine iff_of_true ⟨by simp [harmed], hfired⟩ ⟨harmed, ?_⟩
    rw [← heq]
    exact hout
  · refine iff_of_false (fun ⟨hnot, hfired⟩ => hnot (hsame ▸ hfired)) ?_
    rintro ⟨harmed, hout⟩
    have hfired : t'.signal s = .fired :=
      signal_of_getElem? (removes.fired id _ (own harmed) hout)
    rw [hsame, harmed] at hfired
    cases hfired

/-- The signal of a stream stays armed as long as the stream stays. -/
private theorem Removes.stays_armed :
    t'.signal s = .armed ↔ t.signal s = .armed ∧ ¬out id ⟨client, s⟩ := by
  have hoff := removes.goes_off ready own
  rcases removes.signal_cases ready s with ⟨_, _, _, _, _, harmed, hfired⟩ | hsame
  · have hout := (hoff.1 ⟨by simp [harmed], hfired⟩).2
    exact iff_of_false (by simp [hfired]) fun h => h.2 hout
  · rw [hsame]
    refine (and_iff_left_of_imp fun harmed hout => ?_).symm
    obtain ⟨hnot, hfired⟩ := hoff.2 ⟨harmed, hout⟩
    exact hnot (hsame ▸ hfired)

end

/-! ## What the history says -/

/-- What has happened to a tracker says what it knows. -/
structure Agrees (tr : TrackerTrace) (t : Tracker) : Prop where
  sound : t.Sound
  tidy : t.Tidy
  last : ∀ (id : StreamId) (r : Registration), t.active[id]? = some r →
    tr.lastClient? id = some r.client ∧ .registered id r.client r.signal ∈ tr
  placed : ∀ id client s, .registered id client s ∈ tr → s.index < t.signals.length
  /-- The signal of a registration is armed until something retires the stream. -/
  armed : ∀ pre id client s post, tr = pre ++ .registered id client s :: post →
    (t.signal s = .armed ↔ ∀ x ∈ post, ¬x.Ends id client) ∧
      (t.signal s = .armed → t.active[id]? = some { client, signal := s })
  /-- A signal is spent when it was seen to have gone off. -/
  seen : ∀ s, tr.seen s = if s.index < t.signals.length ∧ t.signal s = .spent then 1 else 0

/-- The empty tracker agrees with the empty trace. -/
private theorem agrees_empty : Agrees [] {} where
  sound := sound_empty
  tidy := tidy_empty
  last := by simp
  placed := by simp
  armed := by simp
  seen s := by simp [TrackerTrace.seen]

namespace Agrees

/-- Taking streams out and saying so. -/
private theorem removes (agrees : Agrees tr t) {x : TrackerEvent}
    {out : StreamId → Registration → Prop}
    {n : Nat} (removes : Removes t out n t') (sound : t'.Sound) (tidy : t'.Tidy)
    (length : t'.signals.length = t.signals.length)
    (told : ∀ id client s, x ≠ .registered id client s) (unseen : ∀ s, x ≠ .looked s .fired)
    (ends : ∀ id r, out id r ↔ x.Ends id r.client) : Agrees (tr ++ [x]) t' where
  sound := sound
  tidy := tidy
  last id r hr := by
    obtain ⟨hlast, hmem⟩ := agrees.last id r ((removes.active id r).1 hr).1
    have hnone : x.client? id = none := by
      cases x with
      | registered i c s => exact absurd rfl (told i c s)
      | _ => rfl
    rw [lastClient?_concat, hnone]
    exact ⟨hlast, List.mem_append_left _ hmem⟩
  -- A removal registers nothing.
  placed id client s hs := by
    rw [length]
    refine agrees.placed id client s ((List.mem_append.1 hs).resolve_right fun hx => ?_)
    exact told id client s (List.mem_singleton.1 hx).symm
  armed pre id client s post heq := by
    rcases split_concat heq with ⟨-, hx, -⟩ | ⟨init, rfl, htr⟩
    · exact absurd hx (told id client s)
    -- The signal was armed before if nothing in between ended the stream, and this event may.
    obtain ⟨harmed, hown⟩ := agrees.armed pre id client s init htr
    have hstays := removes.stays_armed agrees.sound.signalled hown
    rw [hstays, harmed, ends]
    refine ⟨?_, fun ⟨hinit, hx⟩ => ?_⟩
    · simp only [List.mem_append, List.mem_singleton, or_imp, forall_and, forall_eq]
    · rw [removes.active, ends]
      exact ⟨hown (harmed.2 hinit), hx⟩
  seen s := by
    rw [seen_concat, if_neg (unseen s), Nat.add_zero, agrees.seen s, length]
    rcases removes.signal_cases agrees.sound.signalled s with ⟨_, _, _, _, _, harmed, hfired⟩ | hsame
    · simp [harmed, hfired]
    · rw [hsame]

/-- A stream becomes active. -/
private theorem register (agrees : Agrees tr t) {id : StreamId} (client : String)
    (unused : t.isActive id = false) :
    Agrees (tr ++ [.registered id client (t.register id client).1]) (t.register id client).2 := by
  have hid := active_of_unused unused
  have hsignal := signal_register t id client
  have hlength := length_signals_register t id client
  have hold : ∀ s : SignalId, s.index < t.signals.length →
      (t.register id client).2.signal s = t.signal s := fun s => signal_register_of_lt client hid
  have hnew := signal_register_self client hid
  -- Signals that were there show what they did, and the new one comes behind them.
  refine ⟨agrees.sound.register client hid, agrees.tidy.register id client, fun other r hr => ?_,
    fun other c s hs => ?_, fun pre other c s post heq => ?_, fun s => ?_⟩
  · rw [active_register] at hr
    rw [lastClient?_concat]
    by_cases hother : id = other
    · subst hother
      rw [if_pos rfl] at hr
      obtain rfl := Option.some.inj hr
      exact ⟨by simp [TrackerEvent.client?], by simp⟩
    · rw [if_neg hother] at hr
      obtain ⟨hlast, hmem⟩ := agrees.last other r hr
      exact ⟨by simpa [TrackerEvent.client?, hother] using hlast, List.mem_append_left _ hmem⟩
  · rw [hlength]
    rcases List.mem_append.1 hs with hs | hs
    · exact Nat.lt_succ_of_lt (agrees.placed other c s hs)
    · obtain ⟨-, -, rfl⟩ := TrackerEvent.registered.injEq .. ▸ List.mem_singleton.1 hs
      rw [hsignal]
      exact Nat.lt_succ_self _
  · rcases split_concat heq with ⟨-, hx, rfl⟩ | ⟨init, rfl, htr⟩
    · obtain ⟨rfl, rfl, rfl⟩ := TrackerEvent.registered.injEq .. ▸ hx
      refine ⟨iff_of_true hnew (by simp), fun _ => ?_⟩
      rw [active_register, if_pos rfl]
    -- An earlier registration whose signal is armed is that of another stream.
    · obtain ⟨harmed, hown⟩ := agrees.armed pre other c s init htr
      have hlt := agrees.placed other c s (by rw [htr]; simp)
      rw [hold s hlt, harmed]
      constructor
      · simp [TrackerEvent.Ends, or_imp, forall_and]
      · intro hinit
        have hactive := hown (harmed.2 hinit)
        rw [active_register, if_neg, hactive]
        rintro rfl
        rw [hid] at hactive
        cases hactive
  · rw [seen_concat, if_neg (by simp), Nat.add_zero, agrees.seen s, hlength]
    by_cases hlt : s.index < t.signals.length
    · simp only [hold s hlt, hlt, Nat.lt_succ_of_lt hlt]
    · -- A signal that was not there before is the new one, and that is armed.
      refine (if_neg fun h => hlt h.1).trans (if_neg ?_).symm
      rintro ⟨hle, hspent⟩
      have hs : s = (t.register id client).1 := by
        rw [hsignal]
        exact eq_of_index (by show s.index = t.signals.length; omega)
      rw [hs, hnew] at hspent
      cases hspent

/-- Somebody looks at a signal, and all that may change is whether it is still there to be seen. -/
private theorem looked (agrees : Agrees tr t) {s : SignalId} {v : Signal}
    (active : t'.active = t.active)
    (owned : t'.owned = t.owned) (length : t'.signals.length = t.signals.length)
    (armed : ∀ s', t'.signal s' = .armed ↔ t.signal s' = .armed)
    (seen : ∀ s', TrackerTrace.seen (tr ++ [.looked s v]) s' =
      if s'.index < t'.signals.length ∧ t'.signal s' = .spent then 1 else 0) :
    Agrees (tr ++ [.looked s v]) t' where
  sound := by
    -- The signal of an active stream is armed, and looking at a signal disarms none.
    refine ⟨fun id r hr => ?_, ?_, ?_⟩
    · rw [active] at hr
      exact signal_armed_iff.1 ((armed r.signal).2 (signal_armed_iff.2 (agrees.sound.armed id r hr)))
    · rw [active]
      exact agrees.sound.apart
    · intro client id
      rw [ownedBy, owned, active]
      exact agrees.sound.owned client id
  tidy client ids hids := agrees.tidy client ids (by rwa [owned] at hids)
  last id r hr := by
    rw [active] at hr
    obtain ⟨hlast, hmem⟩ := agrees.last id r hr
    rw [lastClient?_concat]
    exact ⟨hlast, List.mem_append_left _ hmem⟩
  placed id client s' hs := by
    rw [length]
    exact agrees.placed id client s' (by simpa using hs)
  -- Looking ends no stream, so the older registrations are as they were.
  armed pre id client s' post htr := by
    rcases split_concat htr with ⟨-, hx, -⟩ | ⟨init, rfl, htr'⟩
    · cases hx
    · rw [armed, active]
      simpa [TrackerEvent.Ends, or_imp, forall_and] using agrees.armed pre id client s' init htr'
  seen := seen

/-- Somebody looks at a signal. -/
private theorem look (agrees : Agrees tr t) (s : SignalId) :
    Agrees (tr ++ [.looked s (t.takeSignal s).1]) (t.takeSignal s).2 := by
  -- A signal is taken just once, when it has gone off and nobody has looked.
  rcases t.takeSignal_cases s with ⟨hnot, heq⟩ | ⟨hfired, heq⟩
  · rw [heq]
    refine agrees.looked rfl rfl rfl (fun _ => Iff.rfl) fun s' => ?_
    rw [seen_concat, if_neg, Nat.add_zero, agrees.seen s']
    exact fun h => hnot (TrackerEvent.looked.injEq .. ▸ h).2
  · -- The signal is seen to have gone off, which it had not been before.
    rw [heq]
    have hlt : s.index < t.signals.length := lt_of_signal (by simp [hfired])
    have hspent := signal_setSignal_self .spent hlt
    -- Other signals are as before.
    have hother : ∀ s' ≠ s, (t.setSignal s .spent).signal s' = t.signal s' := fun s' =>
      signal_setSignal .spent
    have hlength : (t.setSignal s .spent).signals.length = t.signals.length := List.length_set
    refine agrees.looked rfl rfl hlength (fun s' => ?_) fun s' => ?_
    · by_cases hs : s' = s
      · subst hs
        simp [hspent, hfired]
      · rw [hother s' hs]
    · rw [seen_concat, agrees.seen s', hlength]
      by_cases hs : s' = s
      · subst hs
        simp [hspent, hfired, hlt]
      · have hne : ¬TrackerEvent.looked s .fired = .looked s' .fired := fun h =>
          hs (TrackerEvent.looked.injEq .. ▸ h).1.symm
        rw [hother s' hs, if_neg hne, Nat.add_zero]

end Agrees

/-- A change keeps the trace and the tracker in agreement. -/
private theorem Change.agrees {x : TrackerEvent} (change : Change t x t') (agrees : Agrees tr t) :
    Agrees (tr ++ [x]) t' := by
  -- One case per operation; the two that take streams out are instances of the same lemma.
  cases change with
  | register client unused => exact agrees.register client unused
  | retire id =>
    refine agrees.removes (removes_retire agrees.sound.signalled id) (agrees.sound.retire id)
      (agrees.tidy.retire id) (length_signals_retire t id) (by simp) (by simp) fun other r => ?_
    exact eq_comm
  | depart client =>
    refine agrees.removes (agrees.sound.removes_retireClient client)
      (agrees.sound.retireClient client) (agrees.tidy.retireClient client)
      (length_signals_retireClient t client) (by simp) (by simp) fun id r => ?_
    exact eq_comm
  | look s => exact agrees.look s

/-- Every history agrees with the tracker it ends in. -/
theorem History.agrees (history : History tr t) : Agrees tr t := by
  induction history with
  | nil => exact agrees_empty
  | next _ change ih => exact change.agrees ih

/-- A signal goes off when its stream is retired. -/
private theorem Agrees.goes_off (agrees : Agrees tr t) {x : TrackerEvent} (change : Change t x t')
    {id : StreamId} {client : String} {s : SignalId}
    (registered : .registered id client s ∈ tr) :
    t.signal s ≠ .fired ∧ t'.signal s = .fired ↔ t.signal s = .armed ∧ x.Ends id client := by
  -- Neither a registration nor a look sets off a signal that had not gone off before.
  obtain ⟨pre, post, htr⟩ := List.append_of_mem registered
  have hown := (agrees.armed pre id client s post htr).2
  have hlt := agrees.placed id client s registered
  cases change with
  -- Registering makes a new signal; this one is older.
  | @register other c unused =>
    rw [signal_register_of_lt c (active_of_unused unused) hlt]
    exact iff_of_false (fun h => h.1 h.2) fun h => h.2
  | retire other =>
    rw [(removes_retire agrees.sound.signalled other).goes_off agrees.sound.signalled hown]
    exact and_congr_right fun _ => eq_comm
  | depart c =>
    rw [(agrees.sound.removes_retireClient c).goes_off agrees.sound.signalled hown]
    exact and_congr_right fun _ => eq_comm
  | look s' =>
    refine iff_of_false ?_ fun h => h.2
    rintro ⟨hnot, hfired⟩
    rcases t.takeSignal_cases s' with ⟨-, heq⟩ | ⟨-, heq⟩
    · rw [heq] at hfired
      exact hnot hfired
    · rw [heq] at hfired
      by_cases hs : s = s'
      · subst hs
        rw [signal_setSignal_self .spent hlt] at hfired
        cases hfired
      · exact hnot ((signal_setSignal .spent hs).symm.trans hfired)

section

variable (agrees : Agrees tr t)

include agrees

/-- The list of a client has the active streams that were last registered for it. -/
private theorem Agrees.owned_iff (id : StreamId) (client : String) :
    id ∈ t.ownedBy client ↔ t.isActive id = true ∧ tr.lastClient? id = some client := by
  rw [agrees.sound.owned, active_of_isActive]
  constructor
  · rintro ⟨r, hr, rfl⟩
    exact ⟨⟨r, hr⟩, (agrees.last id r hr).1⟩
  · rintro ⟨⟨r, hr⟩, hlast⟩
    exact ⟨r, hr, Option.some.inj ((agrees.last id r hr).1.symm.trans hlast)⟩

/-- A stream is active if it was registered and nothing has retired it since. -/
private theorem Agrees.isActive_iff (id : StreamId) :
    t.isActive id = true ↔ ∃ pre client s post,
      tr = pre ++ .registered id client s :: post ∧ ∀ x ∈ post, ¬x.Ends id client := by
  rw [active_of_isActive]
  constructor
  · rintro ⟨r, hr⟩
    -- The registration that counts is the last one of the id.
    obtain ⟨pre, post, htr⟩ := List.append_of_mem (agrees.last id r hr).2
    have harmed := signal_armed_iff.2 (agrees.sound.armed id r hr)
    exact ⟨pre, r.client, r.signal, post, htr, (agrees.armed _ _ _ _ _ htr).1.1 harmed⟩
  · rintro ⟨pre, client, s, post, htr, hpost⟩
    obtain ⟨harmed, hown⟩ := agrees.armed pre id client s post htr
    exact ⟨_, hown (harmed.2 hpost)⟩

/-- The clients on the books are those with active streams. -/
private theorem Agrees.mem_clients (client : String) :
    client ∈ t.owned.keys ↔ ∃ id, t.isActive id = true ∧ tr.lastClient? id = some client := by
  rw [Std.ExtTreeMap.mem_keys, agrees.tidy.mem_owned_iff]
  exact exists_congr fun id => agrees.owned_iff id client

/-- A signal that has been given out is spent only if it was seen to have gone off. -/
private theorem Agrees.spent_iff {id : StreamId} {client : String} {s : SignalId}
    (registered : .registered id client s ∈ tr) :
    (t.signal s = .spent ↔ tr.seen s = 1) ∧ tr.seen s ≤ 1 := by
  have hlt := agrees.placed id client s registered
  rw [agrees.seen s]
  by_cases hs : t.signal s = .spent <;> simp [hs, hlt]

end

/-- However streams are registered and retired, if only such are registered as are not active: the
    list of a client has the active streams that were last registered for it; who is on the books has
    streams, so the counts are those of the clients with streams and of all their streams together;
    retiring takes out one stream, and a departure those of one client, and they say how many there
    were; and the signal of a registration goes off with the first operation that retires its stream,
    and no more than once, and is not spent before somebody saw that it went off. -/
theorem registrations_accounted_for (history : History tr t) :
    (∀ id client, id ∈ t.ownedBy client ↔
      t.isActive id = true ∧ tr.lastClient? id = some client) ∧
    (∀ id, t.isActive id = true ↔ ∃ pre client s post,
      tr = pre ++ .registered id client s :: post ∧ ∀ x ∈ post, ¬x.Ends id client) ∧
    ((∀ (client : String) (ids : StreamSet), t.owned[client]? = some ids → ids ≠ ∅) ∧
      ∃ clients : List String, clients.Nodup ∧
        (∀ client, client ∈ clients ↔
          ∃ id, t.isActive id = true ∧ tr.lastClient? id = some client) ∧
        t.clientCount = clients.length ∧ t.activeCount = (clients.map t.activeFor).sum) ∧
    (∀ id, ((t.retire id).1 = true ↔ t.isActive id = true) ∧
      ∀ other, (t.retire id).2.active[other]? =
        if other = id then none else t.active[other]?) ∧
    (∀ client, (t.retireClient client).1 = t.activeFor client ∧
      ∀ id, (t.retireClient client).2.active[id]? =
        if id ∈ t.ownedBy client then none else t.active[id]?) ∧
    (∀ pre id client s post, tr = pre ++ .registered id client s :: post →
      (t.signal s = .armed ↔ ∀ x ∈ post, ¬x.Ends id client) ∧
      (∀ x t', Change t x t' → (t.signal s ≠ .fired ∧ t'.signal s = .fired ↔
        (∀ y ∈ post, ¬y.Ends id client) ∧ x.Ends id client)) ∧
      (t.signal s = .spent ↔ tr.seen s = 1) ∧ tr.seen s ≤ 1) := by
  -- All of it is read off what the history says of the tracker.
  have agrees := history.agrees
  refine ⟨agrees.owned_iff, agrees.isActive_iff, ⟨?_, t.owned.keys, Std.ExtTreeMap.nodup_keys,
    agrees.mem_clients, Std.ExtTreeMap.length_keys.symm, agrees.sound.activeCount_eq agrees.tidy⟩,
    fun id => ⟨?_, fun other => ?_⟩, fun client => ⟨agrees.sound.count_retireClient client,
    fun id => ?_⟩, fun pre id client s post htr => ?_⟩
  · rintro client ids hids rfl
    simpa using agrees.tidy client ∅ hids
  · rw [retire_fst]
  · rw [active_retire]
    exact if_congr eq_comm rfl rfl
  · rw [retireClient_eq, active_expire]
    exact if_congr Std.ExtTreeSet.mem_toList rfl rfl
  -- Every registration has a signal of its own, which tells its story.
  · have hmem : .registered id client s ∈ tr := by
      rw [htr]
      simp
    have harmed := (agrees.armed pre id client s post htr).1
    refine ⟨harmed, fun x t' change => ?_, agrees.spent_iff hmem⟩
    rw [agrees.goes_off change hmem, harmed]

/-! A number is given out again, to another client, before the first one departs. -/

namespace Reused

/-- Two streams of one client are active. -/
def two : Tracker :=
  ((register {} ⟨0⟩ "a").2.register ⟨1⟩ "a").2

/-- The first was retired, and its signal was seen to have gone off. -/
def retired : Tracker :=
  ((two.retire ⟨0⟩).2.takeSignal ⟨0⟩).2

/-- Its number is in use again when the client departs. -/
def departed : Tracker :=
  ((retired.register ⟨0⟩ "b").2.retireClient "a").2

/-- The tracker at hand has a history in which id 0 was registered to two clients. -/
private theorem past : ∃ tr : TrackerTrace, History tr departed ∧ tr.lastClient? ⟨0⟩ = some "b" ∧
    ∃ since, tr = .registered ⟨0⟩ "a" ⟨0⟩ :: .registered ⟨1⟩ "a" ⟨1⟩ :: since := by
  have unused : isActive {} ⟨0⟩ = false ∧ (register {} ⟨0⟩ "a").2.isActive ⟨1⟩ = false ∧
      retired.isActive ⟨0⟩ = false := by decide +kernel
  have registered := (History.nil.next (.register "a" unused.1)).next (.register "a" unused.2.1)
  have again := ((registered.next (.retire ⟨0⟩)).next (.look ⟨0⟩)).next (.register "b" unused.2.2)
  exact ⟨_, again.next (.depart "a"), rfl, _, rfl⟩

/-- The id is active again, its old signal has been seen, and the departed client's has gone off. -/
private theorem departed_signals : departed.isActive ⟨0⟩ = true ∧ departed.signal ⟨0⟩ = .spent ∧
    departed.signal ⟨1⟩ = .fired := by decide +kernel

end Reused

/-- An id used again belongs to its second client, and only the first signal has been seen. -/
theorem registrations_accounted_for_reused : ∃ tr, History tr Reused.departed ∧
    ⟨0⟩ ∈ Reused.departed.ownedBy "b" ∧ tr.seen ⟨0⟩ = 1 ∧ tr.seen ⟨1⟩ = 0 := by
  obtain ⟨tr, history, last, since, htr⟩ := Reused.past
  obtain ⟨active, spent, fired⟩ := Reused.departed_signals
  obtain ⟨owned, -, -, -, -, signals⟩ := registrations_accounted_for history
  refine ⟨tr, history, (owned ⟨0⟩ "b").2 ⟨active, last⟩, ?_, ?_⟩
  · exact (signals [] ⟨0⟩ "a" ⟨0⟩ _ htr).2.2.1.1 spent
  · obtain ⟨-, -, hspent, hle⟩ := signals [_] ⟨1⟩ "a" ⟨1⟩ _ htr
    rw [fired] at hspent
    -- The second signal has gone off, but nobody has looked at it.
    have hnot : ¬tr.seen ⟨1⟩ = 1 := mt hspent.2 (by simp)
    omega

end Tracker

end StreamRpc
