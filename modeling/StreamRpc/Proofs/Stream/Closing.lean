import StreamRpc.Proofs.Stream.History

/-! # The order of closings does not matter

A client asks for its streams to be closed one by one or in batches, and closes all that are left by
departing.  It may ask for a stream twice, and what it asks for may arrive in another order.  The
streams and clients that are named in some closings say what is left after them, which signals went
off, and how many streams were retired in all.

* `Tracker.closeAll`                  closings in turn
* `Tracker.removes_closeAll`          what they take out
* `Tracker.closings_commute`          closings that name the same come to the same
-/

namespace StreamRpc

/-- Asks for streams to be retired. -/
inductive Closing where
  | stream (id : StreamId)
  /-- Several at once, as a client asks for it. -/
  | batch (ids : List StreamId)
  /-- All that a client has, when it departs. -/
  | departure (client : String)

namespace Closing

/-- The streams that are named. -/
def ids : Closing → List StreamId
  | stream id => [id]
  | batch ids => ids
  | departure _ => []

/-- The clients that are named. -/
def clients : Closing → List String
  | departure client => [client]
  | _ => []

/-- Whether a stream is one of those that are asked for. -/
def Hits (c : Closing) (id : StreamId) (r : Registration) : Prop :=
  id ∈ c.ids ∨ r.client ∈ c.clients

end Closing

namespace Tracker

/-- Retires what is asked for, and counts what was active of it. -/
def close (t : Tracker) : Closing → Nat × Tracker
  | .stream id => ((t.retire id).1.toNat, (t.retire id).2)
  | .batch ids => t.retireAll ids
  | .departure client => t.retireClient client

/-- Retires what is asked for in turn. -/
def closeAll (t : Tracker) : List Closing → Nat × Tracker
  | [] => (0, t)
  | c :: cs =>
    let (n, t) := t.close c
    let (m, t) := t.closeAll cs
    (n + m, t)

/-- The signals that went off from one time to another. -/
def wentOff (t t' : Tracker) : List SignalId :=
  ((List.range t.signals.length).map SignalId.mk).filter fun s =>
    t.signal s ≠ .fired ∧ t'.signal s = .fired

/-- The signals that go off while streams are retired in turn. -/
def goOff (t : Tracker) : List Closing → List SignalId
  | [] => []
  | c :: cs => t.wentOff (t.close c).2 ++ goOff (t.close c).2 cs

variable {t t' : Tracker}

/-! ## One closing -/

/-- A closing removes the registrations it hits and counts them. -/
private theorem Sound.removes_close (h : t.Sound) (c : Closing) :
    Removes t c.Hits (t.close c).1 (t.close c).2 := by
  -- Each operation is known by the streams it takes out.
  cases c with
  | stream id =>
    exact (removes_retire h.signalled id).congr fun other r _ => by
      simp [Closing.Hits, Closing.ids, Closing.clients]
  | batch ids =>
    exact (removes_retireAll h.signalled ids).congr fun other r _ => by
      simp [Closing.Hits, Closing.ids, Closing.clients]
  | departure client =>
    exact (h.removes_retireClient client).congr fun other r _ => by
      simp [Closing.Hits, Closing.ids, Closing.clients]

/-- A closing keeps a tracker sound. -/
private theorem Sound.close (h : t.Sound) (c : Closing) : (t.close c).2.Sound := by
  cases c with
  | stream id => exact h.retire id
  | batch ids => exact h.retireAll ids
  | departure client => exact h.retireClient client

/-- A closing keeps a tracker tidy. -/
private theorem Tidy.close (h : t.Tidy) (c : Closing) : (t.close c).2.Tidy := by
  cases c with
  | stream id => exact h.retire id
  | batch ids => exact h.retireAll ids
  | departure client => exact h.retireClient client

/-! ## Closings in turn -/

/-- Closings one after the other keep a tracker sound. -/
private theorem Sound.closeAll (h : t.Sound) (cs : List Closing) : (t.closeAll cs).2.Sound := by
  induction cs generalizing t with
  | nil => exact h
  | cons c cs ih => exact ih (h.close c)

/-- Closings one after the other keep a tracker tidy. -/
private theorem Tidy.closeAll (h : t.Tidy) (cs : List Closing) : (t.closeAll cs).2.Tidy := by
  induction cs generalizing t with
  | nil => exact h
  | cons c cs ih => exact ih (h.close c)

/-- Closings take out the streams that any of them asks for. -/
private theorem Sound.removes_closeAll (h : t.Sound) (cs : List Closing) :
    Removes t (fun id r => ∃ c ∈ cs, c.Hits id r) (t.closeAll cs).1 (t.closeAll cs).2 := by
  induction cs generalizing t with
  | nil => exact removes_none (by simp)
  | cons c cs ih =>
    have both := (h.removes_close c).trans (ih (h.close c)) h.signalled
    exact both.congr fun id r _ => by simp

/-- The signals that went off are those that are up now and were not before. -/
private theorem mem_wentOff {s : SignalId} :
    s ∈ t.wentOff t' ↔
      s.index < t.signals.length ∧ t.signal s ≠ .fired ∧ t'.signal s = .fired := by
  simp only [wentOff, List.mem_filter, List.mem_map, List.mem_range, decide_eq_true_eq]
  refine and_congr_left fun _ => ⟨?_, fun hlt => ⟨s.index, hlt, rfl⟩⟩
  rintro ⟨i, hlt, rfl⟩
  exact hlt

/-- No signal goes off twice. -/
private theorem nodup_wentOff (t t' : Tracker) : (t.wentOff t').Nodup := by
  refine List.Nodup.filter _ (List.Nodup.map ?_ List.nodup_range)
  exact fun i j h => congrArg SignalId.index h

/-- The signals that go off are those of the streams that are taken out. -/
private theorem Removes.mem_wentOff {out : StreamId → Registration → Prop} {n : Nat}
    (removes : Removes t out n t') (ready : t.Signalled) {s : SignalId} :
    s ∈ t.wentOff t' ↔
      ∃ (id : StreamId) (r : Registration), t.active[id]? = some r ∧ out id r ∧ r.signal = s := by
  rw [Tracker.mem_wentOff]
  constructor
  · rintro ⟨-, hnot, hfired⟩
    -- A signal goes off only with the stream it belongs to.
    rcases removes.signal_cases ready s with ⟨id, r, hr, hout, hs, -, -⟩ | hsame
    · exact ⟨id, r, hr, hout, hs⟩
    · exact absurd (hsame ▸ hfired) hnot
  · rintro ⟨id, r, hr, hout, rfl⟩
    have harmed := signal_armed_iff.2 (ready.armed id r hr)
    exact ⟨lt_of_signal (by simp [harmed]), by simp [harmed],
      signal_of_getElem? (removes.fired id r hr hout)⟩

/-- Closings set off the signals of the active streams that they ask for, … -/
private theorem Sound.mem_goOff (h : t.Sound) {cs : List Closing} {s : SignalId} :
    s ∈ t.goOff cs ↔ ∃ (id : StreamId) (r : Registration),
      t.active[id]? = some r ∧ (∃ c ∈ cs, c.Hits id r) ∧ r.signal = s := by
  induction cs generalizing t with
  | nil => simp [goOff]
  | cons c cs ih =>
    have first := h.removes_close c
    rw [goOff, List.mem_append, first.mem_wentOff h.signalled, ih (h.close c)]
    simp only [first.active, List.mem_cons, exists_eq_or_imp]
    constructor
    · rintro (⟨id, r, hr, hc, hs⟩ | ⟨id, r, ⟨hr, -⟩, hcs, hs⟩)
      · exact ⟨id, r, hr, .inl hc, hs⟩
      · exact ⟨id, r, hr, .inr hcs, hs⟩
    · -- A stream that the first one asks for is gone when the others come.
      rintro ⟨id, r, hr, hits, hs⟩
      by_cases hc : c.Hits id r
      · exact .inl ⟨id, r, hr, hc, hs⟩
      · exact .inr ⟨id, r, ⟨hr, hc⟩, hits.resolve_left hc, hs⟩

/-- … and each of them once. -/
private theorem Sound.nodup_goOff (h : t.Sound) (cs : List Closing) : (t.goOff cs).Nodup := by
  induction cs generalizing t with
  | nil => exact List.nodup_nil
  | cons c cs ih =>
    refine List.nodup_append.2 ⟨t.nodup_wentOff _, ih (h.close c), ?_⟩
    rintro s hs s' hs' rfl
    obtain ⟨id, r, hr, -, rfl⟩ := (h.close c).mem_goOff.1 hs'
    -- What goes off later is armed after the first closing.
    have hfired := (Tracker.mem_wentOff.1 hs).2.2
    rw [signal_armed_iff.2 ((h.close c).armed id r hr)] at hfired
    cases hfired

/-- After anything that can happen to a tracker, closings that name the same streams and clients, in
    whichever order and however often, leave the same tracker behind: they set off the same signals,
    each of them once, and retire equally many streams, by which there are fewer active ones. -/
theorem closings_commute {tr : TrackerTrace} (history : History tr t) {cs cs' : List Closing}
    (streams : ∀ id, id ∈ cs.flatMap Closing.ids ↔ id ∈ cs'.flatMap Closing.ids)
    (clients : ∀ client, client ∈ cs.flatMap Closing.clients ↔
      client ∈ cs'.flatMap Closing.clients) :
    (t.closeAll cs).2 = (t.closeAll cs').2 ∧
    ((t.goOff cs).Nodup ∧ (t.goOff cs').Nodup ∧ ∀ s, s ∈ t.goOff cs ↔ s ∈ t.goOff cs') ∧
    (t.closeAll cs).1 = (t.closeAll cs').1 ∧
    (t.closeAll cs).1 = t.activeCount - (t.closeAll cs).2.activeCount ∧
      (t.closeAll cs).2.activeCount ≤ t.activeCount := by
  have agrees := history.agrees
  have sound := agrees.sound
  -- Both ask for the same streams, and what is left depends on that alone.
  have hits : ∀ (id : StreamId) (r : Registration),
      (∃ c ∈ cs, c.Hits id r) ↔ ∃ c ∈ cs', c.Hits id r := by
    intro id r
    have hid := streams id
    have hclient := clients r.client
    simp only [List.mem_flatMap] at hid hclient
    simp only [Closing.Hits, and_or_left, exists_or, hid, hclient]
  have removes := sound.removes_closeAll cs
  have removes' := (sound.removes_closeAll cs').congr fun id r _ => (hits id r).symm
  obtain ⟨active, signals, count⟩ := removes.eq removes'
  have owned := owned_eq (sound.closeAll cs) (agrees.tidy.closeAll cs) (sound.closeAll cs')
    (agrees.tidy.closeAll cs') active
  have total := removes.count
  refine ⟨?_, ⟨sound.nodup_goOff cs, sound.nodup_goOff cs', fun s => ?_⟩, count, by omega, by omega⟩
  -- The parts of the two trackers are equal, and so are the trackers.
  · cases h : (t.closeAll cs).2
    cases h' : (t.closeAll cs').2
    rw [h, h'] at active signals owned
    cases active
    cases signals
    cases owned
    rfl
  · rw [sound.mem_goOff, sound.mem_goOff]
    simp only [hits]

/-! One client has two streams and another has one.  The first closes both of its own, at once or one
by one and one of them twice, while the other departs. -/

namespace Mixed

def three : Tracker :=
  (((register {} ⟨0⟩ "a").2.register ⟨1⟩ "b").2.register ⟨2⟩ "a").2

def atOnce : List Closing :=
  [.batch [⟨0⟩, ⟨2⟩, ⟨7⟩], .departure "b"]

def oneByOne : List Closing :=
  [.stream ⟨2⟩, .stream ⟨7⟩, .departure "b", .batch [⟨2⟩, ⟨0⟩]]

/-- The three registrations have a history. -/
private theorem past : ∃ tr, History tr three := by
  have unused : isActive {} ⟨0⟩ = false ∧ (register {} ⟨0⟩ "a").2.isActive ⟨1⟩ = false ∧
      ((register {} ⟨0⟩ "a").2.register ⟨1⟩ "b").2.isActive ⟨2⟩ = false := by decide +kernel
  exact ⟨_, ((History.nil.next (.register "a" unused.1)).next (.register "b" unused.2.1)).next
    (.register "a" unused.2.2)⟩

/-- The closings find three registrations, leave none, and set off the three signals in turn. -/
private theorem closed_at_once :
    (three.closeAll atOnce).1 = 3 ∧ (three.closeAll atOnce).2.activeCount = 0 ∧
    three.goOff atOnce = [⟨0⟩, ⟨2⟩, ⟨1⟩] := by decide +kernel

end Mixed

/-- Three closings in one order and the same three in another agree on three registrations. -/
theorem closings_commute_mixed : (Mixed.three.closeAll Mixed.oneByOne).1 = 3 ∧
    (Mixed.three.closeAll Mixed.oneByOne).2.activeCount = 0 ∧
      ⟨1⟩ ∈ Mixed.three.goOff Mixed.oneByOne := by
  obtain ⟨count, left, off⟩ := Mixed.closed_at_once
  obtain ⟨tr, history⟩ := Mixed.past
  -- The same ids and the same client, in another order and grouped otherwise.
  have streams : ∀ id, id ∈ Mixed.atOnce.flatMap Closing.ids ↔
      id ∈ Mixed.oneByOne.flatMap Closing.ids := by
    intro id
    simp only [Mixed.atOnce, Mixed.oneByOne, Closing.ids, List.flatMap_cons, List.flatMap_nil,
      List.cons_append, List.nil_append, List.append_nil, List.mem_cons, List.not_mem_nil]
    tauto
  have clients : ∀ client, client ∈ Mixed.atOnce.flatMap Closing.clients ↔
      client ∈ Mixed.oneByOne.flatMap Closing.clients := fun _ => Iff.rfl
  obtain ⟨same, ⟨-, -, signals⟩, counts, -⟩ := closings_commute history streams clients
  exact ⟨counts ▸ count, same ▸ left, (signals ⟨1⟩).1 (by simp [off])⟩

end Tracker

end StreamRpc
