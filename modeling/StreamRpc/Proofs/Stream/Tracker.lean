import StreamRpc.Stream.Tracker

/-! # The books of a tracker

What each operation does to the active streams, and that the books agree with one another as long
as no number is registered twice: the signal of an active stream is armed and its own, and the
streams on a client's list are those that are active for it.

* `Sound.register`                       a registration keeps the books in agreement
* `active_retire`, `active_retireAll`    retiring takes out these streams and no others
* `Sound.active_retireClient`            a departure takes out the streams of one client
-/

namespace StreamRpc.Tracker

/-- The books agree. -/
structure Sound (t : Tracker) : Prop where
  /-- The signal of an active stream is armed. -/
  armed : ∀ (id : StreamId) (r : Registration),
    t.active[id]? = some r → t.signals[r.signal.index]? = some .armed
  /-- No two active streams have one signal. -/
  apart : ∀ (id id' : StreamId) (r r' : Registration),
    t.active[id]? = some r → t.active[id']? = some r' → r.signal = r'.signal → id = id'
  /-- The streams of a client are those that are active for it. -/
  owned : ∀ (client : String) (id : StreamId),
    id ∈ t.ownedBy client ↔ ∃ r, t.active[id]? = some r ∧ r.client = client

/-- The empty tracker is sound. -/
theorem sound_empty : Sound {} where
  armed := by simp
  apart := by simp
  owned := by simp [ownedBy]

/-- A signal is its index. -/
theorem eq_of_index {s s' : SignalId} (h : s.index = s'.index) : s = s' := by
  cases s
  cases s'
  exact congrArg SignalId.mk h

/-! ## Signals -/

section

variable {t t' : Tracker}

/-- A signal in the list has the state listed. -/
theorem signal_of_getElem? {s : SignalId} {x : Signal} (h : t.signals[s.index]? = some x) :
    t.signal s = x := by
  rw [signal, h]
  rfl

/-- A signal's state depends on its own entry only. -/
theorem signal_congr {s : SignalId} (h : t'.signals[s.index]? = t.signals[s.index]?) :
    t'.signal s = t.signal s := by
  rw [signal, signal, h]

/-- An armed signal is in the list. -/
theorem signal_armed_iff {s : SignalId} :
    t.signal s = .armed ↔ t.signals[s.index]? = some .armed := by
  rw [signal]
  cases t.signals[s.index]? <;> simp

/-- A signal that is not spent is in the list. -/
theorem lt_of_signal {s : SignalId} (h : t.signal s ≠ .spent) : s.index < t.signals.length := by
  refine Nat.lt_of_not_le fun hle => h ?_
  rw [signal, List.getElem?_eq_none hle]
  rfl

/-- Setting a signal leaves the others. -/
theorem signal_setSignal {s s' : SignalId} (x : Signal) (h : s' ≠ s) :
    (t.setSignal s x).signal s' = t.signal s' :=
  signal_congr (List.getElem?_set_ne fun hindex => h (eq_of_index hindex).symm)

/-- A signal that is set has the state it was set to. -/
theorem signal_setSignal_self {s : SignalId} (x : Signal) (h : s.index < t.signals.length) :
    (t.setSignal s x).signal s = x :=
  signal_of_getElem? (List.getElem?_set_self h)

end

/-! ## Registering -/

/-- The active streams after a registration: the new one, and those before. -/
theorem active_register (t : Tracker) (id other : StreamId) (client : String) :
    (t.register id client).2.active[other]? =
      if id = other then some { client, signal := (t.register id client).1 }
      else t.active[other]? := by
  simp only [register]
  split <;> simp [Std.ExtTreeMap.getElem?_insert, setSignal]

/-- A registration takes the next signal. -/
theorem signal_register (t : Tracker) (id : StreamId) (client : String) :
    (t.register id client).1 = ⟨t.signals.length⟩ := by
  simp only [register]
  split <;> simp [setSignal]

/-- A registration adds one signal. -/
theorem length_signals_register (t : Tracker) (id : StreamId) (client : String) :
    (t.register id client).2.signals.length = t.signals.length + 1 := by
  simp only [register]
  split <;> simp [setSignal]

/-- The signal of a new stream comes after all others, and is armed. -/
private theorem signals_register {t : Tracker} {id : StreamId} (client : String)
    (hid : t.active[id]? = none) :
    (t.register id client).2.signals = t.signals ++ [.armed] := by
  simp only [register, hid]

/-- A registration leaves the older signals. -/
theorem signal_register_of_lt {t : Tracker} {id : StreamId} (client : String)
    (hid : t.active[id]? = none) {s : SignalId} (hs : s.index < t.signals.length) :
    (t.register id client).2.signal s = t.signal s :=
  signal_congr (by rw [signals_register client hid, List.getElem?_append_left hs])

/-- A registration's signal is armed. -/
theorem signal_register_self {t : Tracker} {id : StreamId} (client : String)
    (hid : t.active[id]? = none) :
    (t.register id client).2.signal (t.register id client).1 = .armed :=
  signal_of_getElem? (by rw [signals_register client hid, signal_register]; simp)

/-- A registration adds its id to its own client's list only. -/
private theorem ownedBy_register (t : Tracker) {id : StreamId} (client other : String)
    (hid : t.active[id]? = none) :
    (t.register id client).2.ownedBy other =
      if client = other then (t.ownedBy client).insert id else t.ownedBy other := by
  simp only [register, hid, ownedBy, Std.ExtTreeMap.getElem?_insert]
  by_cases h : client = other <;> simp [h]

/-- Registering a number that is not active keeps the books in order. -/
theorem Sound.register {t : Tracker} (h : t.Sound) {id : StreamId} (client : String)
    (hid : t.active[id]? = none) : (t.register id client).2.Sound := by
  have hsig := signals_register client hid
  have hlt : ∀ (id : StreamId) (r : Registration), t.active[id]? = some r →
      r.signal.index < t.signals.length := by
    intro id r hr
    exact (List.getElem?_eq_some_iff.1 (h.armed id r hr)).1
  constructor
  · intro i r hr
    rw [active_register, signal_register] at hr
    rw [hsig]
    split at hr
    · obtain rfl := Option.some.inj hr
      simp
    · rw [List.getElem?_append_left (hlt i r hr)]
      exact h.armed i r hr
  · -- The new signal comes after all that there were, so no other stream has it.
    intro i i' r r' hr hr' hs
    rw [active_register, signal_register] at hr hr'
    split at hr <;> split at hr'
    · next hi hi' => exact hi.symm.trans hi'
    · obtain rfl := Option.some.inj hr
      have := hlt i' r' hr'
      rw [← hs] at this
      exact absurd this (Nat.lt_irrefl _)
    · obtain rfl := Option.some.inj hr'
      have := hlt i r hr
      rw [hs] at this
      exact absurd this (Nat.lt_irrefl _)
    · exact h.apart i i' r r' hr hr' hs
  · intro other i
    rw [ownedBy_register t client other hid, active_register]
    -- The new stream is put into the set of its client, and no other set changes.
    have ho := h.owned other i
    by_cases hc : client = other <;> by_cases hi : id = i
    · subst hc hi
      simp
    · subst hc
      simpa [hi] using ho
    · subst hi
      simp only [hc, if_false, if_true, ho, hid]
      simp [hc]
    · simpa [hc, hi] using ho

/-! ## Retiring -/

/-- The active streams after one was retired: all but that one. -/
theorem active_retire (t : Tracker) (id other : StreamId) :
    (t.retire id).2.active[other]? = if id = other then none else t.active[other]? := by
  simp only [retire]
  cases h : t.active[id]? with
  | none =>
    by_cases ho : id = other
    · subst ho
      simp [h]
    · simp [ho]
  | some r => simp [setSignal, Std.ExtTreeMap.getElem?_erase]

/-- A retirement adds no signal. -/
theorem length_signals_retire (t : Tracker) (id : StreamId) :
    (t.retire id).2.signals.length = t.signals.length := by
  simp only [retire]
  cases t.active[id]? <;> simp [setSignal]

/-- Taking a stream off a client's list takes it off that list and no other. -/
theorem mem_disown {owned : Std.ExtTreeMap String StreamSet} {client other : String}
    {id i : StreamId} :
    i ∈ ((disown owned client id)[other]?.getD ∅) ↔
      i ∈ (owned[other]?.getD ∅) ∧ ¬ (client = other ∧ id = i) := by
  simp only [disown]
  cases hc : owned[client]? with
  | none =>
    refine ⟨fun h => ⟨h, ?_⟩, And.left⟩
    rintro ⟨rfl, rfl⟩
    simp [hc] at h
  | some ids =>
    -- What is left in the set of the client are its other streams.
    have herase : ∀ i, i ∈ ids.erase id ↔ i ∈ ids ∧ ¬ id = i := by
      intro i
      simp [Std.ExtTreeSet.mem_erase, and_comm]
    simp only
    -- The set of the client is taken out when it becomes empty.
    split
    · next he =>
      by_cases ho : client = other
      · subst ho
        have hn : ∀ i, ¬ i ∈ ids.erase id := by
          rw [Std.ExtTreeSet.isEmpty_iff.1 he]
          simp
        have := hn i
        rw [herase] at this
        simpa [hc] using this
      · simp [Std.ExtTreeMap.getElem?_erase, ho]
    · by_cases ho : client = other
      · subst ho
        simp [hc, herase]
      · simp [Std.ExtTreeMap.getElem?_insert, ho]

/-- A retirement removes the id from its client's list. -/
theorem ownedBy_retire {t : Tracker} {id : StreamId} {r : Registration}
    (hr : t.active[id]? = some r) (client : String) :
    (t.retire id).2.ownedBy client = (disown t.owned r.client id)[client]?.getD ∅ := by
  simp only [retire, hr, ownedBy, setSignal]

/-- The active streams after several were retired: all but those. -/
theorem active_retireAll (t : Tracker) (ids : List StreamId) (other : StreamId) :
    (t.retireAll ids).2.active[other]? = if other ∈ ids then none else t.active[other]? := by
  induction ids generalizing t with
  | nil => simp [retireAll]
  | cons id ids ih =>
    simp only [retireAll, ih, active_retire, List.mem_cons]
    by_cases hi : id = other
    · simp [hi]
    · have : ¬ other = id := fun h => hi h.symm
      simp [hi, this]

/-- Retiring a list of ids adds no signal. -/
theorem length_signals_retireAll (t : Tracker) (ids : List StreamId) :
    (t.retireAll ids).2.signals.length = t.signals.length := by
  induction ids generalizing t with
  | nil => rfl
  | cons id ids ih => simp only [retireAll, ih, length_signals_retire]

/-! ## Departures -/

/-- What is left after streams were taken off without a look at whose they are. -/
theorem active_expire (t : Tracker) (ids : List StreamId) (other : StreamId) :
    (t.expire ids).2.active[other]? = if other ∈ ids then none else t.active[other]? := by
  induction ids generalizing t with
  | nil => simp [expire]
  | cons id ids ih =>
    rw [expire]
    -- Once taken out, a stream stays out.
    by_cases hi : id = other
    · subst hi
      split
      · next hn => rw [ih]; simp [hn]
      · simp [ih, setSignal]
    · have hne : ¬ other = id := fun h => hi h.symm
      split
      · rw [ih]; simp [hne]
      · simp [ih, setSignal, Std.ExtTreeMap.getElem?_erase, hi, hne]

/-- An expiry adds no signal. -/
private theorem length_signals_expire (t : Tracker) (ids : List StreamId) :
    (t.expire ids).2.signals.length = t.signals.length := by
  induction ids generalizing t with
  | nil => rfl
  | cons id ids ih =>
    rw [expire]
    split
    · exact ih t
    · simp [ih, setSignal]

/-- An expiry leaves the index as it is. -/
theorem owned_expire (t : Tracker) (ids : List StreamId) :
    (t.expire ids).2.owned = t.owned := by
  induction ids generalizing t with
  | nil => rfl
  | cons id ids ih =>
    rw [expire]
    split
    · exact ih t
    · exact ih _

/-- Retiring a client removes its list and expires the ids in it. -/
theorem retireClient_eq (t : Tracker) (client : String) :
    (t.retireClient client).2 =
      ({ t with owned := t.owned.erase client }.expire (t.ownedBy client).toList).2 := by
  simp only [retireClient, ownedBy]
  -- For a client that is not in the index both sides leave everything as it is.
  cases h : t.owned[client]? with
  | none =>
    have he : t.owned.erase client = t.owned := by
      refine Std.ExtTreeMap.ext_getElem? fun k => ?_
      rw [Std.ExtTreeMap.getElem?_erase]
      split
      · next hk => rw [← Std.LawfulEqOrd.eq_of_compare hk, h]
      · rfl
    have hn : Std.ExtTreeSet.toList (∅ : StreamSet) = [] := by simp
    simp only [he, Option.getD_none, hn, expire]
  | some ids => rfl

/-- Retiring a client adds no signal. -/
theorem length_signals_retireClient (t : Tracker) (client : String) :
    (t.retireClient client).2.signals.length = t.signals.length := by
  rw [retireClient_eq, length_signals_expire]

/-- A departure takes out the streams that are active for the client that is gone, and no others. -/
theorem Sound.active_retireClient {t : Tracker} (h : t.Sound) (client : String) (id : StreamId) :
    (t.retireClient client).2.active[id]? =
      (t.active[id]?).filter fun r => r.client ≠ client := by
  have hm := h.owned client id
  rw [retireClient_eq, active_expire]
  simp only [Std.ExtTreeSet.mem_toList, hm]
  cases hid : t.active[id]? with
  | none => simp
  | some r => by_cases hc : r.client = client <;> simp [hc, Option.filter]

end StreamRpc.Tracker
