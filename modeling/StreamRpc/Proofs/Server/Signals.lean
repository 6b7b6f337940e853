import StreamRpc.Proofs.Server.Endings

/-! # Signals that have not gone off

A signal that is armed is the signal of an active stream.  So the task of a stream that is not active
comes to its end as soon as it waits for its source again.

* `Tracker.Guarded`                        each armed signal has its stream
* `Tracker.Sound.signal_retireClient`      a departure sets off the signals of one client only
* `Stage.Run.guarded`                      signals are guarded in every run
* `Stage.Run.finish_of_inactive`           the task of a stream that is not active asks no source
-/

namespace StreamRpc

namespace Tracker

variable {t t' : Tracker}

/-- Each signal that is armed is that of an active stream. -/
def Guarded (t : Tracker) : Prop :=
  ∀ s, t.signal s = .armed →
    ∃ (id : StreamId) (r : Registration), t.active[id]? = some r ∧ r.signal = s

/-- The empty tracker is guarded. -/
private theorem guarded_empty : Guarded {} :=
  fun s hs => by simp [signal] at hs

/-- A registration keeps a tracker guarded. -/
private theorem Guarded.register (h : t.Guarded) {id : StreamId} (client : String)
    (hid : t.active[id]? = none) : (t.register id client).2.Guarded := by
  intro s hs
  -- The signal of the new stream comes after all others.
  by_cases hnew : s.index < t.signals.length
  · have hold : t.signal s = .armed := signal_register_of_lt client hid hnew ▸ hs
    obtain ⟨other, r, hr, rfl⟩ := h s hold
    refine ⟨other, r, ?_, rfl⟩
    rw [active_register, if_neg, hr]
    rintro rfl
    rw [hid] at hr
    cases hr
  · have hlt := lt_of_signal (hs.trans_ne (by decide))
    rw [length_signals_register] at hlt
    have hindex : s.index = t.signals.length := by omega
    refine ⟨id, ⟨client, (t.register id client).1⟩, ?_, ?_⟩
    · rw [active_register, if_pos rfl]
    · rw [signal_register, ← hindex]

/-- Signals go off with the streams that are taken out, so those that are armed are of others. -/
private theorem Guarded.removes (h : t.Guarded) {out : StreamId → Registration → Prop} {n : Nat}
    (removes : Removes t out n t') : t'.Guarded := by
  intro s hs
  -- A signal that is still quiet belongs to no removed registration, as those have fired.
  have spared : ∀ (id : StreamId) (r : Registration), t.active[id]? = some r → out id r →
      r.signal.index ≠ s.index := by
    intro id r hr hout heq
    have hfired : t'.signal s = .fired := signal_of_getElem? (heq ▸ removes.fired id r hr hout)
    rw [hs] at hfired
    cases hfired
  obtain ⟨id, r, hr, rfl⟩ := h s ((signal_congr (removes.kept s.index spared)).symm.trans hs)
  exact ⟨id, r, (removes.active id r).2 ⟨hr, fun hout => spared id r hr hout rfl⟩, rfl⟩

/-- A departure sets off no signals but those of the client that is gone. -/
theorem Sound.signal_retireClient (h : t.Sound) {client : String} {s : SignalId}
    (other : ∀ (id : StreamId) (r : Registration), t.active[id]? = some r → r.client = client →
      r.signal ≠ s) :
    (t.retireClient client).2.signal s = t.signal s :=
  signal_congr ((h.removes_retireClient client).kept s.index fun id r hr hclient heq =>
    other id r hr hclient (eq_of_index heq))

end Tracker

/-! ## Runs -/

/-- Numbers come with signals of active streams. -/
private theorem Multiplexer.Sound.guarded_subscribeAll {m : Multiplexer} (h : m.Sound)
    (guarded : m.tracker.Guarded) (client : String) (rs : List SourceRef)
    (few : m.numbered + rs.length ≤ 2 ^ 64) :
    (m.subscribeAll client rs).2.tracker.Guarded := by
  induction rs generalizing m with
  | nil => exact guarded
  | cons r rs ih =>
    rw [List.length_cons] at few
    -- The new id is not active yet, so no registration is overwritten.
    have hsubscribe : (m.subscribe client r).2.tracker.Guarded :=
      guarded.register client (h.fresh (by omega))
    refine ih (h.subscribe (by omega) client r) hsubscribe ?_
    show m.numbered + 1 + rs.length ≤ _
    omega

namespace Stage

/-- An event that numbers nothing keeps a tracker guarded. -/
private theorem guarded_effect {m : Multiplexer} (sound : m.Sound) (h : m.tracker.Guarded)
    {x : ServerEvent} (hx : ∀ w client subs, x ≠ .numbered w client subs) :
    (x.effect m).tracker.Guarded := by
  have ready := sound.books.signalled
  cases x with
  | numbered w client subs => exact absurd rfl (hx w client subs)
  | closed ids => exact h.removes (Tracker.removes_retireAll ready ids)
  | dropped w subs => exact h.removes (Tracker.removes_retireAll ready _)
  | finished n id => exact h.removes (Tracker.removes_retire ready id)
  | withdrawn id => exact h.removes (Tracker.removes_retire ready id)
  | departed client => exact h.removes (sound.books.removes_retireClient client)
  | _ => exact h

/-- Numbering streams keeps a tracker guarded while there are numbers left. -/
private theorem Numbers.guarded {es : ServerTrace} {m m' : Multiplexer} (h : Numbers es m m')
    (sound : m.Sound) (guarded : m.tracker.Guarded) (few : m'.numbered ≤ 2 ^ 64) :
    m'.tracker.Guarded := by
  obtain ⟨hm, hes⟩ := h
  by_cases hx : ∃ w client subs, ServerEvent.numbered w client subs ∈ es
  · obtain ⟨w, client, subs, hx⟩ := hx
    obtain ⟨rfl, -⟩ := hes w client subs hx
    have hm' : m' = (m.subscribeAll client (subs.map (·.source))).2 := hm
    rw [hm', (m.ids_subscribeAll client (subs.map (·.source))).2] at few
    rw [hm']
    exact sound.guarded_subscribeAll guarded client _ few
  · have hno : ∀ x ∈ es, ∀ w client subs, x ≠ ServerEvent.numbered w client subs := by
      rintro x hxes w client subs rfl
      exact hx ⟨w, client, subs, hxes⟩
    rw [hm]
    -- Each event takes streams out or does nothing to them.
    refine (List.foldlRecOn (motive := fun m : Multiplexer => m.Sound ∧ m.tracker.Guarded) es _
      ⟨sound, guarded⟩ ?_).2
    exact fun m ⟨hs, hg⟩ x hxes =>
      ⟨(sound_effect hs (hno x hxes)).1, guarded_effect hs hg (hno x hxes)⟩

section

variable {st₀ st : Stage} {tr : ServerTrace} (fresh : st₀.Fresh) (run : Run st₀ tr st)
  (few : st.server.mux.numbered ≤ 2 ^ 64)

include fresh run few

/-- In a run each signal that is armed is that of an active stream. -/
theorem Run.guarded : st.tracker.Guarded := by
  induction run with
  | refl =>
    rw [tracker, fresh.mux]
    exact Tracker.guarded_empty
  | step run next ih =>
    obtain ⟨k, -, hk⟩ := next.mux.next
    exact next.mux.guarded (run.sound fresh (by omega)).1 (ih (by omega)) few

/-- The signal of a task is not armed any more when its stream is not active. -/
theorem Run.signal_of_inactive {n : Nat} {f : Forwarding}
    (found : st.server.forwardings[n]? = some f) (inactive : st.server.mux.owner f.id = none) :
    st.tracker.signal f.signal ≠ .armed := by
  intro armed
  obtain ⟨id, r, hr, hsignal⟩ := run.guarded fresh few _ armed
  obtain ⟨w, subs, numbered, hsub⟩ :=
    run.numbered_of_began fresh (run.forwarding_began fresh found)
  obtain ⟨k, -, hid, hk⟩ := run.signal_of_numbered fresh few numbered hsub
  obtain ⟨k', -, rfl, hk'⟩ := (run.sound fresh few).1.given id r hr
  -- One signal has one place, and the place is that of one number.
  obtain rfl : k = k' := congrArg SignalId.index (hk.symm.trans (hsignal.symm.trans hk'))
  have hnone : (st.server.mux.tracker.active[StreamId.nth k]?).map (·.client) = none :=
    hid ▸ inactive
  have hr' : st.server.mux.tracker.active[StreamId.nth k]? = some r := hr
  rw [hr'] at hnone
  cases hnone

/-- A task whose stream is not active comes to its end instead of asking its source. -/
theorem Run.finish_of_inactive {n : Nat} {f : Forwarding}
    (found : st.server.forwardings[n]? = some f) (inactive : st.server.mux.owner f.id = none)
    (waits : f.phase = .waiting) : f.step? st = some (f.finish st []) := by
  have hsignal := run.signal_of_inactive fresh few found inactive
  simp only [Forwarding.step?, waits, Forwarding.pull?, if_neg hsignal]

end

end Stage

end StreamRpc
