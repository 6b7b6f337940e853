import StreamRpc.Proofs.Stream.Tracker

/-! # What retiring takes out

Streams are retired one by one, in batches, or together with all others of their client.  In each
case some of the active streams are taken out, their signals go off, and nothing else changes.
What is taken out in several steps is what each of them takes out, in whichever order, and this says
what is left.

* `Removes`                                    what taking streams out does
* `Removes.trans`                              taking out some and then others
* `Removes.eq`                                 what is left is known from what was taken out
* `removes_retire`, `Sound.removes_retireClient`, …   what each operation takes out
* `Sound.retire`, `Sound.retireClient`, …      the books keep agreeing
-/

namespace StreamRpc.Tracker

/-- Each active stream has an armed signal of its own. -/
structure Signalled (t : Tracker) : Prop where
  armed : ∀ (id : StreamId) (r : Registration),
    t.active[id]? = some r → t.signals[r.signal.index]? = some .armed
  apart : ∀ (id id' : StreamId) (r r' : Registration),
    t.active[id]? = some r → t.active[id']? = some r' →
      r.signal.index = r'.signal.index → id = id'

/-- So many of the active streams were taken out, and their signals went off. -/
structure Removes (t : Tracker) (out : StreamId → Registration → Prop) (n : Nat)
    (t' : Tracker) : Prop where
  active : ∀ (id : StreamId) (r : Registration),
    t'.active[id]? = some r ↔ t.active[id]? = some r ∧ ¬out id r
  fired : ∀ (id : StreamId) (r : Registration), t.active[id]? = some r → out id r →
    t'.signals[r.signal.index]? = some .fired
  kept : ∀ i : Nat, (∀ (id : StreamId) (r : Registration), t.active[id]? = some r → out id r →
    r.signal.index ≠ i) → t'.signals[i]? = t.signals[i]?
  count : n + t'.activeCount = t.activeCount

variable {t t' t'' : Tracker} {out out' : StreamId → Registration → Prop} {n m : Nat}

/-- In a sound tracker every registration has a signal of its own. -/
theorem Sound.signalled (h : t.Sound) : t.Signalled where
  armed := h.armed
  apart id id' r r' hr hr' he := h.apart id id' r r' hr hr' (eq_of_index he)

/-- A signalled tracker is sound when its index lists the owners. -/
private theorem Signalled.sound (h : t.Signalled) (owned : ∀ (client : String) (id : StreamId),
    id ∈ t.ownedBy client ↔ ∃ r, t.active[id]? = some r ∧ r.client = client) : t.Sound where
  armed := h.armed
  apart id id' r r' hr hr' he := h.apart id id' r r' hr hr' (congrArg SignalId.index he)
  owned := owned

/-- Removing nothing changes nothing. -/
theorem removes_none (hnot : ∀ (id : StreamId) (r : Registration), t.active[id]? = some r →
    ¬out id r) : Removes t out 0 t where
  active id r := (and_iff_left_of_imp (hnot id r)).symm
  fired id r hr hout := absurd hout (hnot id r hr)
  kept _ _ := rfl
  count := Nat.zero_add _

/-- Only what is said of active streams counts. -/
theorem Removes.congr (h : Removes t out n t')
    (same : ∀ (id : StreamId) (r : Registration), t.active[id]? = some r → (out id r ↔ out' id r)) :
    Removes t out' n t' where
  active id r := (h.active id r).trans (and_congr_right fun hr => not_congr (same id r hr))
  fired id r hr hout := h.fired id r hr ((same id r hr).2 hout)
  kept i hi := h.kept i fun id r hr hout => hi id r hr ((same id r hr).1 hout)
  count := h.count

/-- The streams that are left have their armed signals still. -/
private theorem Removes.signalled (h : Removes t out n t') (ready : t.Signalled) :
    t'.Signalled where
  armed id r hr := by
    obtain ⟨hold, hnot⟩ := (h.active id r).1 hr
    rw [h.kept r.signal.index, ready.armed id r hold]
    -- A signal that went off is that of a stream which is not there any more.
    intro other r' hr' hout heq
    obtain rfl := ready.apart other id r' r hr' hold heq
    rw [hold] at hr'
    exact hnot (Option.some.inj hr' ▸ hout)
  apart id id' r r' hr hr' :=
    ready.apart id id' r r' ((h.active id r).1 hr).1 ((h.active id' r').1 hr').1

/-- Taking out some streams and then others takes out both. -/
theorem Removes.trans (h : Removes t out n t') (h' : Removes t' out' m t'') (ready : t.Signalled) :
    Removes t (fun id r => out id r ∨ out' id r) (n + m) t'' where
  active id r := by
    rw [h'.active, h.active, and_assoc, not_or]
  fired id r hr hout := by
    -- A stream the first takes out is fired by it, and the second leaves that signal alone.
    by_cases hfirst : out id r
    · rw [h'.kept r.signal.index, h.fired id r hr hfirst]
      intro other r' hr' _ heq
      obtain ⟨hold, hnot⟩ := (h.active other r').1 hr'
      obtain rfl := ready.apart other id r' r hold hr heq
      rw [hr] at hold
      exact hnot (Option.some.inj hold ▸ hfirst)
    · exact h'.fired id r ((h.active id r).2 ⟨hr, hfirst⟩) (hout.resolve_left hfirst)
  kept i hi := by
    rw [h'.kept i, h.kept i]
    · exact fun id r hr hout => hi id r hr (.inl hout)
    · exact fun id r hr hout => hi id r ((h.active id r).1 hr).1 (.inr hout)
  count := by
    have := h.count
    have := h'.count
    omega

/-- What was taken out says what is left: the active streams, the signals, and how many there
    were. -/
theorem Removes.eq (h : Removes t out n t') (h' : Removes t out m t'') :
    t'.active = t''.active ∧ t'.signals = t''.signals ∧ n = m := by
  have hactive : t'.active = t''.active := Std.ExtTreeMap.ext_getElem? fun id =>
    Option.ext fun r => (h.active id r).trans (h'.active id r).symm
  refine ⟨hactive, List.ext_getElem? fun i => ?_, ?_⟩
  -- A signal either belongs to one of the streams taken out or is untouched.
  · by_cases hi : ∃ (id : StreamId) (r : Registration),
        t.active[id]? = some r ∧ out id r ∧ r.signal.index = i
    · obtain ⟨id, r, hr, hout, rfl⟩ := hi
      rw [h.fired id r hr hout, h'.fired id r hr hout]
    · have hnot : ∀ (id : StreamId) (r : Registration), t.active[id]? = some r → out id r →
          r.signal.index ≠ i := fun id r hr hout heq => hi ⟨id, r, hr, hout, heq⟩
      rw [h.kept i hnot, h'.kept i hnot]
  · have := h.count
    have := h'.count
    rw [activeCount, hactive, ← activeCount] at *
    omega

/-! ## Operations -/

/-- One stream is taken out, whatever becomes of the books. -/
private theorem removes_one (ready : t.Signalled) {id : StreamId} {r : Registration}
    (hr : t.active[id]? = some r) (owned : Std.ExtTreeMap String StreamSet) :
    Removes t (fun other _ => other = id) 1
      (({ t with active := t.active.erase id, owned } : Tracker).setSignal r.signal .fired) where
  active other r' := by
    simp only [setSignal, Std.ExtTreeMap.getElem?_erase, Std.LawfulEqCmp.compare_eq_iff_eq]
    by_cases h : id = other
    · simp [h]
    · simp [h, Ne.symm h]
  -- No two streams share a signal, so the one set here is that of the stream.
  fired other r' hr' hout := by
    subst hout
    obtain rfl := Option.some.inj (hr.symm.trans hr')
    have hlt := (List.getElem?_eq_some_iff.1 (ready.armed other r hr)).1
    simp only [setSignal, List.getElem?_set_self hlt]
  kept i hi := by
    simp only [setSignal]
    rw [List.getElem?_set_ne (hi id r hr rfl)]
  count := by
    have hcontains : t.active.contains id = true := by
      rw [Std.ExtTreeMap.contains_eq_isSome_getElem?, hr]
      rfl
    -- There is an active stream, so one less is not below zero.
    have hpos : t.active.size ≠ 0 := by
      intro hzero
      rw [Std.ExtTreeMap.eq_empty_iff_size_eq_zero.2 hzero] at hr
      simp at hr
    simp only [setSignal, activeCount, Std.ExtTreeMap.size_erase, hcontains, if_true]
    omega

/-- A retirement removes the one registration of its id. -/
theorem removes_retire (ready : t.Signalled) (id : StreamId) :
    Removes t (fun other _ => other = id) (t.retire id).1.toNat (t.retire id).2 := by
  unfold Tracker.retire
  cases hr : t.active[id]? with
  | none =>
    refine removes_none fun other r hother heq => ?_
    rw [heq, hr] at hother
    cases hother
  | some r => exact removes_one ready hr _

/-- Retiring a list of ids removes their registrations. -/
theorem removes_retireAll (ready : t.Signalled) (ids : List StreamId) :
    Removes t (fun id _ => id ∈ ids) (t.retireAll ids).1 (t.retireAll ids).2 := by
  induction ids generalizing t with
  | nil => exact removes_none (by simp)
  | cons id ids ih =>
    have first := removes_retire ready id
    have both := first.trans (ih (first.signalled ready)) ready
    rw [Nat.add_comm] at both
    exact both.congr fun other r _ => List.mem_cons.symm

/-- An expiry removes the registrations of the ids it lists. -/
private theorem removes_expire (ready : t.Signalled) (ids : List StreamId) :
    Removes t (fun id _ => id ∈ ids) (t.expire ids).1 (t.expire ids).2 := by
  induction ids generalizing t with
  | nil => exact removes_none (by simp)
  | cons id ids ih =>
    rw [expire]
    cases hr : t.active[id]? with
    | none =>
      refine (ih ready).congr fun other r hother => ?_
      have hne : other ≠ id := by
        rintro rfl
        rw [hr] at hother
        cases hother
      simp [hne]
    | some r =>
      have first := removes_one ready hr t.owned
      -- One id after another: the effects add up.
      have both := first.trans (ih (first.signalled ready)) ready
      rw [Nat.add_comm] at both
      exact both.congr fun other r _ => List.mem_cons.symm

/-- Retiring a client counts what expires of its own list. -/
theorem retireClient_fst (t : Tracker) (client : String) :
    (t.retireClient client).1 =
      ({ t with owned := t.owned.erase client }.expire (t.ownedBy client).toList).1 := by
  simp only [retireClient, ownedBy]
  cases h : t.owned[client]? with
  | none =>
    have hn : Std.ExtTreeSet.toList (∅ : StreamSet) = [] := by simp
    simp only [Option.getD_none, hn, expire]
  | some ids => rfl

/-- A departure takes out the streams of the client that is gone. -/
theorem Sound.removes_retireClient (h : t.Sound) (client : String) :
    Removes t (fun _ r => r.client = client) (t.retireClient client).1
      (t.retireClient client).2 := by
  -- The index entry goes first, which the signals do not look at.
  have ready : Signalled { t with owned := t.owned.erase client } := ⟨h.signalled.1, h.signalled.2⟩
  have expired := removes_expire ready (t.ownedBy client).toList
  rw [← retireClient_eq, ← retireClient_fst] at expired
  have whole : Removes t (fun id _ => id ∈ (t.ownedBy client).toList) (t.retireClient client).1
      (t.retireClient client).2 := ⟨expired.1, expired.2, expired.3, expired.4⟩
  refine whole.congr fun id r hr => ?_
  rw [Std.ExtTreeSet.mem_toList, h.owned client id]
  constructor
  · rintro ⟨r', hr', hclient⟩
    exact Option.some.inj (hr.symm.trans hr') ▸ hclient
  · exact fun hclient => ⟨r, hr, hclient⟩

/-! ## The books -/

/-- Retiring a stream keeps the books in order. -/
theorem Sound.retire (h : t.Sound) (id : StreamId) : (t.retire id).2.Sound := by
  refine ((removes_retire h.signalled id).signalled h.signalled).sound fun client i => ?_
  have ho := h.owned client i
  -- A stream that is not active is in nobody's set, and nothing happens.
  cases hid : t.active[id]? with
  | none =>
    have hsame : (t.retire id).2 = t := by simp only [Tracker.retire, hid]
    rwa [hsame]
  | some r =>
    rw [ownedBy] at ho
    rw [ownedBy_retire hid, mem_disown, active_retire, ho]
    by_cases hi : id = i
    · subst hi
      simp [hid]
    · simp [hi]

/-- Retiring a list of ids keeps a tracker sound. -/
theorem Sound.retireAll {t : Tracker} (h : t.Sound) (ids : List StreamId) :
    (t.retireAll ids).2.Sound := by
  induction ids generalizing t with
  | nil => exact h
  | cons id ids ih => exact ih (h.retire id)

/-- A departure keeps the books in order. -/
theorem Sound.retireClient (h : t.Sound) (client : String) : (t.retireClient client).2.Sound := by
  refine ((h.removes_retireClient client).signalled h.signalled).sound fun other id => ?_
  have ho := h.owned other id
  rw [ownedBy] at ho
  rw [ownedBy, retireClient_eq, owned_expire, ← retireClient_eq, h.active_retireClient client,
    Std.ExtTreeMap.getElem?_erase]
  by_cases hc : client = other
  · subst hc
    simp [Option.filter_eq_some_iff]
  · -- Those of another client are neither taken out nor off its list.
    simp only [Std.compare_eq_iff_eq, hc, if_false, ho, Option.filter_eq_some_iff]
    constructor
    · rintro ⟨r, hr, rfl⟩
      exact ⟨r, ⟨hr, by simpa using fun h => hc h.symm⟩, rfl⟩
    · rintro ⟨r, ⟨hr, -⟩, hrc⟩
      exact ⟨r, hr, hrc⟩

end StreamRpc.Tracker
