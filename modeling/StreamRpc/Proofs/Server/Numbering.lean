import Mathlib.Algebra.Group.Nat.Defs
import StreamRpc.Proofs.Stream.Retiring
import StreamRpc.Proofs.Value.Slots
import StreamRpc.Server.Multiplexer

/-! # Numbers are given out in order

A multiplexer gives the numbers from zero on, each with a signal of its own, so as long as there are
enough of them no number is given twice.  Exposing a value gives one number to each of its sources,
in the order of the slots.

* `Multiplexer.expose_exposes`   the value on the wire is the value with numbers for sources
* `Multiplexer.ids_expose`       which numbers those are
* `Multiplexer.Sound.expose`     the books stay in order, and the new streams are active
-/

namespace StreamRpc

/-- The number that is given out after so many others. -/
def StreamId.nth (k : Nat) : StreamId :=
  ⟨UInt64.ofNat k⟩

/-- There are enough numbers for this many streams. -/
theorem StreamId.nth_inj {j k : Nat} (hj : j < 2 ^ 64) (hk : k < 2 ^ 64)
    (h : nth j = nth k) : j = k := by
  have hv : UInt64.ofNat j = UInt64.ofNat k := congrArg StreamId.val h
  have hn := congrArg UInt64.toNat hv
  simp only [UInt64.toNat_ofNat'] at hn
  omega

/-- `wire` is `v` with its sources, in the order of the slots, replaced by the numbers that they have
    in `subs`. -/
structure Exposes (v : ServerValue) (wire : WireValue) (subs : List Subscription) : Prop where
  sources : subs.map (·.source) = v.slots
  ids : wire.slots = subs.map (·.id)
  /-- The two are alike but for what stands in the slots. -/
  shape : (wire.map fun _ => ()) = v.map fun _ => ()

/-- A value is nested as deep on the wire as it was made. -/
theorem Exposes.depth {v : ServerValue} {wire : WireValue} {subs : List Subscription}
    (h : Exposes v wire subs) : wire.depth = v.depth := by
  rw [← Value.depth_map (fun _ => ()) wire, h.shape, Value.depth_map]

namespace Multiplexer

/-! ## Many at once -/

/-- Gives numbers to sources one after another. -/
def subscribeAll (m : Multiplexer) (client : String) :
    List SourceRef → List Subscription × Multiplexer
  | [] => ([], m)
  | r :: rs =>
    let (sub, m) := m.subscribe client r
    let (subs, m) := m.subscribeAll client rs
    (sub :: subs, m)

/-- The streams subscribed have the sources given, in order. -/
private theorem sources_subscribeAll (m : Multiplexer) (client : String) (rs : List SourceRef) :
    (m.subscribeAll client rs).1.map (·.source) = rs := by
  induction rs generalizing m with
  | nil => rfl
  | cons r rs ih =>
    have := ih (m.subscribe client r).2
    simp only [subscribeAll, List.map_cons, this]
    rfl

/-- The streams subscribed have the next numbers, in order. -/
theorem ids_subscribeAll (m : Multiplexer) (client : String) (rs : List SourceRef) :
    (m.subscribeAll client rs).1.map (·.id) =
        (List.range' m.numbered rs.length).map StreamId.nth ∧
      (m.subscribeAll client rs).2.numbered = m.numbered + rs.length := by
  induction rs generalizing m with
  | nil => exact ⟨rfl, rfl⟩
  | cons r rs ih =>
    have ⟨h1, h2⟩ := ih (m.subscribe client r).2
    -- The first source gets the next number, and the others go on from the one after it.
    have hn : (m.subscribe client r).2.numbered = m.numbered + 1 := rfl
    rw [hn] at h1 h2
    refine ⟨?_, ?_⟩
    · simp only [subscribeAll, List.map_cons, List.length_cons, List.range'_succ, h1]
      rfl
    · simp only [subscribeAll, List.length_cons, h2]
      omega

/-- Visiting slots gives numbers to them one after another. -/
private theorem run_exposeSlots (client : String) (rs : List SourceRef) (m : Multiplexer)
    (subs : List Subscription) :
    StateT.run (rs.mapM (exposeSlot client)) (m, subs) =
      ((m.subscribeAll client rs).1.map (·.id), (m.subscribeAll client rs).2,
        subs ++ (m.subscribeAll client rs).1) := by
  induction rs generalizing m subs with
  | nil =>
    rw [List.mapM_nil, Value.run_pure, subscribeAll, List.append_nil]
    rfl
  | cons r rs ih =>
    -- One slot is one subscription, added to those that were made before it.
    have hstep : StateT.run (exposeSlot client r) (m, subs) =
        ((m.subscribe client r).1.id, (m.subscribe client r).2,
          subs ++ [(m.subscribe client r).1]) := rfl
    rw [List.mapM_cons]
    simp only [Value.run_bind, hstep, ih, Value.run_pure, subscribeAll, List.map_cons,
      List.append_assoc, List.singleton_append]

/-- Exposing a value gives numbers to its slots one after another. -/
theorem expose_eq (m : Multiplexer) (client : String) (v : ServerValue) :
    (m.expose client v).2 = m.subscribeAll client v.slots := by
  -- Walking over the value is visiting its slots in turn, so only the list of slots counts.
  have h := Value.run_traverse (exposeSlot client) v (m, [])
  rw [run_exposeSlots, List.nil_append] at h
  have hm := congrArg Prod.snd h
  exact Prod.ext (congrArg Prod.snd hm).symm (congrArg Prod.fst hm).symm

/-- What goes over the wire is the value with numbers for its sources. -/
theorem expose_exposes (m : Multiplexer) (client : String) (v : ServerValue) :
    Exposes v (m.expose client v).1 (m.expose client v).2.1 := by
  have hrun := Value.run_traverse (exposeSlot client) v (m, [])
  rw [run_exposeSlots, ← expose_eq] at hrun
  have hids : (m.expose client v).1.slots = (m.expose client v).2.1.map (·.id) :=
    (congrArg Prod.fst hrun).symm
  have hsrc : (m.expose client v).2.1.map (·.source) = v.slots := by
    rw [expose_eq, sources_subscribeAll]
  -- As many numbers come back as there are slots, so each slot gets its own.
  refine ⟨hsrc, hids, Value.map_traverse (exposeSlot client) _ _ v (m, []) ?_⟩
  show ((m.expose client v).1.slots).map (fun _ => ()) = v.slots.map fun _ => ()
  rw [hids, ← hsrc, List.map_map, List.map_map]
  rfl

/-- The numbers are the next ones in order. -/
theorem ids_expose (m : Multiplexer) (client : String) (v : ServerValue) :
    (m.expose client v).2.1.map (·.id) =
        (List.range' m.numbered v.slots.length).map StreamId.nth ∧
      (m.expose client v).2.2.numbered = m.numbered + v.slots.length := by
  rw [expose_eq]
  exact ids_subscribeAll m client v.slots

/-! ## The books -/

/-- The books are in order, and each active stream has the signal that came with its number. -/
structure Sound (m : Multiplexer) : Prop where
  books : m.tracker.Sound
  signals : m.tracker.signals.length = m.numbered
  given : ∀ (id : StreamId) (r : Registration), m.tracker.active[id]? = some r →
    ∃ k, k < m.numbered ∧ id = StreamId.nth k ∧ r.signal = ⟨k⟩

/-- The empty multiplexer is sound. -/
theorem sound_empty : Sound {} :=
  ⟨Tracker.sound_empty, rfl, by simp⟩

/-- The number given out next is not active. -/
theorem Sound.fresh {m : Multiplexer} (h : m.Sound) (few : m.numbered < 2 ^ 64) :
    m.tracker.active[m.nextId]? = none := by
  cases hr : m.tracker.active[m.nextId]? with
  | none => rfl
  | some r =>
    obtain ⟨k, hk, hid, -⟩ := h.given _ r hr
    have := StreamId.nth_inj (j := m.numbered) few (by omega) hid
    omega

/-- A subscription keeps a multiplexer sound while there are numbers left. -/
theorem Sound.subscribe {m : Multiplexer} (h : m.Sound) (few : m.numbered < 2 ^ 64)
    (client : String) (source : SourceRef) : (m.subscribe client source).2.Sound := by
  -- Below the bound the next id is not in use.
  have hfresh := h.fresh few
  refine ⟨h.books.register client hfresh, ?_, ?_⟩
  · show (m.tracker.register m.nextId client).2.signals.length = m.numbered + 1
    rw [Tracker.length_signals_register, h.signals]
  · intro id r hr
    have hr' : (m.tracker.register m.nextId client).2.active[id]? = some r := hr
    rw [Tracker.active_register, Tracker.signal_register, h.signals] at hr'
    split at hr'
    · next hid =>
      obtain rfl := Option.some.inj hr'
      exact ⟨m.numbered, Nat.lt_succ_self _, hid.symm, rfl⟩
    · obtain ⟨k, hk, hid, hs⟩ := h.given id r hr'
      exact ⟨k, Nat.lt_succ_of_lt hk, hid, hs⟩

/-- What is active after a source got its number: that stream, and what was active before. -/
private theorem active_subscribe (m : Multiplexer) (client : String) (source : SourceRef)
    (id : StreamId) : (m.subscribe client source).2.tracker.active[id]? =
      if (m.subscribe client source).1.id = id then
        some { client, signal := (m.subscribe client source).1.signal }
      else m.tracker.active[id]? :=
  Tracker.active_register m.tracker m.nextId id client

/-- Giving out numbers keeps the books in order as long as there are enough numbers. -/
theorem Sound.subscribeAll {m : Multiplexer} (h : m.Sound) (client : String)
    (rs : List SourceRef) (few : m.numbered + rs.length ≤ 2 ^ 64) :
    (m.subscribeAll client rs).2.Sound ∧
      ∀ id r, (m.subscribeAll client rs).2.tracker.active[id]? = some r ↔
        m.tracker.active[id]? = some r ∨
          ∃ sub ∈ (m.subscribeAll client rs).1, sub.id = id ∧ r = ⟨client, sub.signal⟩ := by
  induction rs generalizing m with
  | nil => exact ⟨h, fun id r => by simp [Multiplexer.subscribeAll]⟩
  | cons s rs ih =>
    rw [List.length_cons] at few
    have h1 := h.subscribe (by omega) client s
    have hn : (m.subscribe client s).2.numbered = m.numbered + 1 := rfl
    have ⟨h2, hact⟩ := ih h1 (by rw [hn]; omega)
    refine ⟨h2, fun id r => (hact id r).trans ?_⟩
    rw [active_subscribe]
    -- The id is free, for the counter has not come round.
    have hfresh := h.fresh (by omega)
    have hid : (m.subscribe client s).1.id = m.nextId := rfl
    have hcons : (m.subscribeAll client (s :: rs)).1 =
        (m.subscribe client s).1 :: ((m.subscribe client s).2.subscribeAll client rs).1 := rfl
    rw [hcons]
    -- The first source gets the next number, and that is nobody's; the others get later ones.
    by_cases hi : (m.subscribe client s).1.id = id
    · subst hi
      have hnone : m.tracker.active[(m.subscribe client s).1.id]? = none := hfresh
      simp [hnone, eq_comm]
    · simp [hi]

/-- Exposing a value keeps the books in order, and makes its streams active besides those that
    were. -/
theorem Sound.expose {m : Multiplexer} (h : m.Sound) (client : String) (v : ServerValue)
    (few : (m.expose client v).2.2.numbered ≤ 2 ^ 64) :
    (m.expose client v).2.2.Sound ∧
      ∀ id r, (m.expose client v).2.2.tracker.active[id]? = some r ↔
        m.tracker.active[id]? = some r ∨
          ∃ sub ∈ (m.expose client v).2.1, sub.id = id ∧ r = ⟨client, sub.signal⟩ := by
  rw [(ids_expose m client v).2] at few
  rw [expose_eq]
  exact h.subscribeAll client v.slots few

/-- Taking out active streams keeps the books in order if the tracker's are. -/
private theorem Sound.setTracker {m : Multiplexer} (h : m.Sound) {t : Tracker} (ht : t.Sound)
    (hs : t.signals.length = m.tracker.signals.length)
    (hsub : ∀ (id : StreamId) (r : Registration), t.active[id]? = some r →
      m.tracker.active[id]? = some r) : Sound { m with tracker := t } :=
  ⟨ht, hs.trans h.signals, fun id r hr => h.given id r (hsub id r hr)⟩

/-- Retiring a list of streams keeps a multiplexer sound. -/
theorem Sound.retireAll {m : Multiplexer} (h : m.Sound) (ids : List StreamId) :
    (m.retireAll ids).Sound :=
  h.setTracker (h.books.retireAll ids) (m.tracker.length_signals_retireAll ids) fun id r hr => by
    rw [Tracker.active_retireAll] at hr
    split at hr
    · cases hr
    · exact hr

/-- Retiring a stream keeps a multiplexer sound. -/
theorem Sound.retire {m : Multiplexer} (h : m.Sound) (id : StreamId) : (m.retire id).Sound :=
  h.setTracker (h.books.retire id) (m.tracker.length_signals_retire id) fun i r hr => by
    rw [Tracker.active_retire] at hr
    split at hr
    · cases hr
    · exact hr

/-- Retiring what a client has keeps a multiplexer sound. -/
theorem Sound.retireClient {m : Multiplexer} (h : m.Sound) (client : String) :
    Sound { m with tracker := (m.tracker.retireClient client).2 } :=
  h.setTracker (h.books.retireClient client) (m.tracker.length_signals_retireClient client)
    fun id r hr => by
      rw [h.books.active_retireClient, Option.filter_eq_some_iff] at hr
      exact hr.1

end Multiplexer

end StreamRpc
