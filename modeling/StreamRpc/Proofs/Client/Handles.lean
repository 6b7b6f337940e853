import StreamRpc.Proofs.Value.Slots
import StreamRpc.Stream.Demux

/-! # Handles are made in order and dropped for good

Handles get the keys from zero on, so the streams that were introduced, in order, say which handle
belongs to which of them.  A stream is open only for the handle that was made for it, and while it is
open the handle has its inbox.  Dropping handles closes their streams, and asks for just those to be
closed on the server.

* `Demux.attach_eq`        attaching a value makes one handle for each of its slots
* `Demux.Fit`              what holds of the handles of a session
* `Demux.dropAll_closes`   what dropping closes
* `Demux.Fit.of_dropAll`   what dropping leaves alone
* `Demux.Fit.observe`      what happens on a stream is passed on
-/

namespace StreamRpc

/-- A notification as it was on the wire. -/
def Notification.onWire : Notification ClientValue → Notification WireValue
  | next v => next (v.map Handle.id)
  | error f => error f
  | completed => completed

/-- The streams that a notification introduces. -/
def Notification.ids : Notification WireValue → List StreamId
  | next v => v.slots
  | _ => []

/-- A notification is terminal on the wire when it is on the client. -/
theorem Notification.terminal_onWire (n : Notification ClientValue) :
    n.onWire.terminal = n.terminal := by
  cases n <;> rfl

namespace Demux

/-! ## Making handles -/

/-- Makes handles one after another. -/
def introduceAll (d : Demux) : List StreamId → List Handle × Demux
  | [] => ([], d)
  | id :: ids =>
    let (h, d) := d.introduce id
    let (hs, d) := d.introduceAll ids
    (h :: hs, d)

/-- Introducing ids in turn is introducing the list. -/
private theorem run_introduceAll (ids : List StreamId) (d : Demux) :
    StateT.run (ids.mapM (m := StateM Demux) fun id d => d.introduce id) d = d.introduceAll ids := by
  induction ids generalizing d with
  | nil =>
    rw [List.mapM_nil, Value.run_pure]
    rfl
  | cons id ids ih =>
    rw [List.mapM_cons, Value.run_bind, Value.run_bind, ih, Value.run_pure]
    rfl

/-- The handles introduced carry the ids given, in order. -/
theorem ids_introduceAll (d : Demux) (ids : List StreamId) :
    (d.introduceAll ids).1.map (·.id) = ids := by
  induction ids generalizing d with
  | nil => rfl
  | cons id ids ih =>
    have := ih (d.introduce id).2
    simp only [introduceAll, List.map_cons, this]
    rfl

/-- Attaching a value makes one handle for each of its slots, in order. -/
theorem attach_eq (d : Demux) (v : WireValue) :
    (d.attach v).1.slots = (d.introduceAll v.slots).1 ∧
      (d.attach v).2 = (d.introduceAll v.slots).2 ∧ (d.attach v).1.map Handle.id = v := by
  have hrun := Value.run_traverse (fun id (d : Demux) => d.introduce id) v d
  rw [run_introduceAll] at hrun
  have hslots : (d.attach v).1.slots = (d.introduceAll v.slots).1 :=
    (congrArg Prod.fst hrun).symm
  refine ⟨hslots, (congrArg Prod.snd hrun).symm, ?_⟩
  have hids : (d.attach v).1.slots.map Handle.id = v.slots.map id := by
    rw [hslots, List.map_id]
    exact d.ids_introduceAll v.slots
  -- The value is traversed from left to right, so its slots are the handles in this order.
  have hmap := Value.map_traverse (fun id (d : Demux) => d.introduce id) Handle.id id v d hids
  rwa [Value.map_id] at hmap

/-- Attaching an event makes a handle for each of its ids. -/
theorem attachEvent_eq (d : Demux) (event : Notification WireValue) :
    (d.attachEvent event).1.onWire = event ∧
      (d.attachEvent event).1.handles = (d.introduceAll event.ids).1 ∧
      (d.attachEvent event).2 = (d.introduceAll event.ids).2 := by
  cases event with
  | next v =>
    obtain ⟨h1, h2, h3⟩ := d.attach_eq v
    exact ⟨congrArg Notification.next h3, h1, h2⟩
  | error f => exact ⟨rfl, rfl, rfl⟩
  | completed => exact ⟨rfl, rfl, rfl⟩

/-- What happens on a stream, once there are handles for all streams that it introduces. -/
inductive Observes (d : Demux) (id : StreamId) (event : Notification WireValue) :
    Bool → Demux → Prop where
  /-- Nobody gets it, and the new handles are dropped. -/
  | shut (ho : (d.introduceAll event.ids).2.opened[id]? = none) :
      Observes d id event false
        ((d.introduceAll event.ids).2.dropAll (d.introduceAll event.ids).1)
  /-- It goes to the handle of the stream, which is closed first if this is its end. -/
  | opened {key : Nat} {n : Notification ClientValue}
      {opened : Std.ExtTreeMap StreamId Nat}
      (ho : (d.introduceAll event.ids).2.opened[id]? = some key) (wire : n.onWire = event)
      (handles : n.handles = (d.introduceAll event.ids).1)
      (rest : opened = if event.terminal then (d.introduceAll event.ids).2.opened.erase id
        else (d.introduceAll event.ids).2.opened) :
      Observes d id event
        (({ (d.introduceAll event.ids).2 with opened } : Demux).deliver key n).1
        (({ (d.introduceAll event.ids).2 with opened } : Demux).deliver key n).2

/-- An observation ends in one of the ways `Observes` lists. -/
theorem observes (d : Demux) (id : StreamId) (event : Notification WireValue) :
    ∃ b d', d.observe id event = (b, d') ∧ Observes d id event b d' := by
  obtain ⟨hwire, hhandles, hd⟩ := d.attachEvent_eq event
  have hterm : (d.attachEvent event).1.terminal = event.terminal := by
    rw [← Notification.terminal_onWire, hwire]
  refine ⟨(d.observe id event).1, (d.observe id event).2, rfl, ?_⟩
  unfold observe
  simp only [hd, hterm]
  -- The stream is looked up only after the handles of the observation have been made.
  cases ho : (d.introduceAll event.ids).2.opened[id]? with
  | none => exact hhandles ▸ .shut ho
  | some key =>
    cases hlast : event.terminal with
    | true => exact .opened ho hwire hhandles (if_pos hlast).symm
    | false => exact .opened ho hwire hhandles (by rw [hlast]; rfl)

/-! ## What holds of handles -/

/-- A handle is the one that was made for a stream, if these streams were introduced so far. -/
def Given (made : List StreamId) (h : Handle) : Prop :=
  made[h.key]? = some h.id

/-- A handle made stays made. -/
theorem Given.mono {made : List StreamId} {h : Handle} (hg : Given made h)
    (more : List StreamId) : Given (made ++ more) h := by
  unfold Given at hg ⊢
  obtain ⟨hlt, -⟩ := List.getElem?_eq_some_iff.1 hg
  rwa [List.getElem?_append_left hlt]

/-- The handles of a session to which these streams were introduced. -/
structure Fit (made : List StreamId) (d : Demux) : Prop where
  count : d.nextKey = made.length
  keys : ∀ (k : Nat) (box : Inbox), d.inboxes[k]? = some box → k < made.length
  /-- A stream is open for the handle that was made for it, … -/
  opened : ∀ (id : StreamId) (k : Nat), d.opened[id]? = some k → made[k]? = some id
  /-- … and that handle has its inbox. -/
  inbox : ∀ (id : StreamId) (k : Nat), d.opened[id]? = some k → ∃ box, d.inboxes[k]? = some box
  unread : ∀ (k : Nat) (box : Inbox), d.inboxes[k]? = some box → ∀ h ∈ box.held, Given made h
  released : ∀ id ∈ d.released, id ∈ made

/-- The empty demultiplexer fits no handles made. -/
theorem fit_empty : Fit [] {} where
  count := rfl
  keys k box h := by simp at h
  opened id k h := by simp at h
  inbox id k h := by simp at h
  unread k box h := by simp at h
  released id h := by cases h

/-- An introduction keeps the inboxes in line with the handles made. -/
theorem Fit.introduce {made : List StreamId} {d : Demux} (fit : Fit made d) (id : StreamId) :
    Fit (made ++ [id]) (d.introduce id).2 where
  -- The new handle has the next key, and that is the place of its stream in the list.
  count := by
    show d.nextKey + 1 = _
    rw [fit.count, List.length_append, List.length_singleton]
  keys k box h := by
    have h' : (d.inboxes.insert d.nextKey {})[k]? = some box := h
    rw [Std.ExtTreeMap.getElem?_insert] at h'
    have hcount := fit.count
    rw [List.length_append, List.length_singleton]
    split at h'
    · next hk =>
      have := Std.compare_eq_iff_eq.1 hk
      omega
    · have := fit.keys k box h'
      omega
  opened other k h := by
    have h' : (d.opened.insert id d.nextKey)[other]? = some k := h
    rw [Std.ExtTreeMap.getElem?_insert] at h'
    split at h'
    · next ho =>
      obtain rfl := Std.LawfulEqOrd.eq_of_compare ho
      obtain rfl := Option.some.inj h'
      rw [fit.count]
      simp
    · have := fit.opened other k h'
      obtain ⟨hlt, -⟩ := List.getElem?_eq_some_iff.1 this
      rwa [List.getElem?_append_left hlt]
  inbox other k h := by
    have h' : (d.opened.insert id d.nextKey)[other]? = some k := h
    show ∃ box, (d.inboxes.insert d.nextKey {})[k]? = some box
    rw [Std.ExtTreeMap.getElem?_insert] at h' ⊢
    split at h'
    · obtain rfl := Option.some.inj h'
      exact ⟨{}, by simp⟩
    · obtain ⟨box, hbox⟩ := fit.inbox other k h'
      split
      · exact ⟨{}, rfl⟩
      · exact ⟨box, hbox⟩
  -- The new inbox is empty, so it holds no handle.
  unread k box h g hg := by
    have h' : (d.inboxes.insert d.nextKey {})[k]? = some box := h
    rw [Std.ExtTreeMap.getElem?_insert] at h'
    split at h'
    · obtain rfl := Option.some.inj h'
      cases hg
    · exact (fit.unread k box h' g hg).mono [id]
  released other h := List.mem_append_left _ (fit.released other h)

/-- New handles fit, and each of them belongs to its stream. -/
theorem Fit.introduceAll {made : List StreamId} {d : Demux} (fit : Fit made d)
    (ids : List StreamId) :
    Fit (made ++ ids) (d.introduceAll ids).2 ∧
      ∀ h ∈ (d.introduceAll ids).1, Given (made ++ ids) h := by
  induction ids generalizing made d with
  | nil => exact ⟨by rwa [List.append_nil], by simp [Demux.introduceAll]⟩
  | cons id ids ih =>
    have ⟨h1, h2⟩ := ih (fit.introduce id)
    rw [List.append_assoc] at h1 h2
    refine ⟨h1, fun h hh => ?_⟩
    -- The first new handle has the next key, which is the number of handles made so far.
    rcases List.mem_cons.1 hh with rfl | hh
    · show (made ++ id :: ids)[d.nextKey]? = some id
      rw [fit.count]
      simp
    · exact h2 h hh

/-! ## Dropping handles -/

/-- Dropping closes some of the open streams, and asks for just those to be closed on the server. -/
theorem dropAll_closes (d : Demux) (hs : List Handle) :
    ∃ new, (d.dropAll hs).released = d.released ++ new ∧ (∀ id ∈ new, d.isOpen id = true) ∧
      ∀ id, (d.dropAll hs).isOpen id = true ↔ d.isOpen id = true ∧ id ∉ new := by
  induction d, hs using dropAll_induct with
  | nil d => exact ⟨[], by simp [dropAll]⟩
  | absent d g hs hg ih =>
    rw [dropAll_of_absent hg]
    exact ih
  | found d g hs box hg ih =>
    rw [dropAll_of_found hg]
    -- The handles that were unread in this one are dropped with the rest.
    obtain ⟨new, h1, h2, h3⟩ := ih
    have hopen : ∀ id, (d.dropOne g).isOpen id = (d.isOpen id && id != g.id) :=
      fun id => d.isOpen_release g.id id
    by_cases hgo : d.opened.contains g.id = true
    -- The stream of this handle is open, so it is closed first and queued first.
    · refine ⟨g.id :: new, ?_, ?_, ?_⟩
      · rw [h1]
        simp [dropOne, release, hgo]
      · intro id hid
        rcases List.mem_cons.1 hid with rfl | hid
        · exact hgo
        · have := h2 id hid
          rw [hopen] at this
          exact (Bool.and_eq_true_iff.1 this).1
      · intro id
        rw [h3, hopen]
        simp only [Bool.and_eq_true, bne_iff_ne, ne_eq, List.mem_cons, not_or, and_assoc]
    -- Its stream is not open, so dropping it closes nothing.
    · refine ⟨new, ?_, ?_, ?_⟩
      · rw [h1]
        simp [dropOne, release, hgo]
      · intro id hid
        have := h2 id hid
        rw [hopen] at this
        exact (Bool.and_eq_true_iff.1 this).1
      · intro id
        rw [h3, hopen]
        simp only [Bool.and_eq_true, bne_iff_ne, ne_eq, and_assoc]
        refine and_congr_right fun hid => and_iff_right ?_
        rintro rfl
        exact hgo hid

/-- Releasing an id leaves the other registrations. -/
theorem opened_release_of_ne (d : Demux) {id other : StreamId} (h : other ≠ id) :
    (d.release id).opened[other]? = d.opened[other]? := by
  unfold release
  split
  · rw [Std.ExtTreeMap.getElem?_erase, if_neg]
    exact fun hc => h (Std.LawfulEqOrd.eq_of_compare hc).symm
  · rfl

/-- A registration that is left after a release was there before, under another id. -/
theorem opened_release_eq (d : Demux) {id other : StreamId} {k : Nat}
    (h : (d.release id).opened[other]? = some k) : d.opened[other]? = some k ∧ other ≠ id := by
  -- A released stream is open no more, and another one is as it was.
  by_cases ho : other = id
  · subst ho
    unfold release at h
    split at h
    · simp at h
    · next hn =>
      rw [Std.ExtTreeMap.contains_eq_isSome_getElem?, h] at hn
      simp at hn
  · rw [opened_release_of_ne d ho] at h
    exact ⟨h, ho⟩

/-- A release gives out no key. -/
@[simp] theorem nextKey_release (d : Demux) (id : StreamId) :
    (d.release id).nextKey = d.nextKey := by
  unfold release
  split <;> rfl

/-- A stream is released, if it is open. -/
theorem Fit.release {made : List StreamId} {d : Demux} (fit : Fit made d) (id : StreamId) :
    Fit made (d.release id) where
  count := (d.nextKey_release id).trans fit.count
  keys k box hk := fit.keys k box (by rwa [inboxes_release] at hk)
  opened other k hk := fit.opened other k (opened_release_eq d hk).1
  inbox other k hk := by
    rw [inboxes_release]
    exact fit.inbox other k (opened_release_eq d hk).1
  unread k box hk := fit.unread k box (by rwa [inboxes_release] at hk)
  -- A stream is released only while it is open, and then its handle was made.
  released other hother := by
    unfold Demux.release at hother
    split at hother
    · next hopen =>
      rcases List.mem_append.1 hother with hother | hother
      · exact fit.released other hother
      · obtain rfl := List.mem_singleton.1 hother
        rw [Std.ExtTreeMap.contains_eq_isSome_getElem?, Option.isSome_iff_exists] at hopen
        obtain ⟨k, hk⟩ := hopen
        exact List.mem_of_getElem? (fit.opened _ k hk)
    · exact fit.released other hother

/-- The inbox of a handle vanishes that no stream is open for. -/
theorem Fit.discard {made : List StreamId} {d : Demux} (fit : Fit made d) {key : Nat}
    (unfed : ∀ id : StreamId, d.opened[id]? ≠ some key) :
    Fit made { d with inboxes := d.inboxes.erase key } := by
  have hkept : ∀ {k : Nat} {box : Inbox}, (d.inboxes.erase key)[k]? = some box →
      d.inboxes[k]? = some box := fun {k box} hk => by
    rw [Std.ExtTreeMap.getElem?_erase] at hk
    split at hk
    · cases hk
    · exact hk
  refine ⟨fit.count, fun k box hk => fit.keys k box (hkept hk), fit.opened, fun id k hk => ?_,
    fun k box hk => fit.unread k box (hkept hk), fit.released⟩
  obtain ⟨box, hbox⟩ := fit.inbox id k hk
  refine ⟨box, ?_⟩
  show (d.inboxes.erase key)[k]? = some box
  rw [Std.ExtTreeMap.getElem?_erase, if_neg, hbox]
  intro hc
  -- The inbox of an open stream stays, since no open stream feeds the one discarded.
  obtain rfl := Std.compare_eq_iff_eq.1 hc
  exact unfed id hk

/-- A handle that belongs to its stream is dropped without disturbing the others. -/
theorem Fit.dropOne {made : List StreamId} {d : Demux} (fit : Fit made d) {h : Handle}
    (given : Given made h) : Fit made (d.dropOne h) := by
  have hfit := @Fit.discard _ _ (fit.release h.id) h.key fun id hk => ?_
  · rwa [inboxes_release] at hfit
  · -- A stream that is open for this handle is its own, which has just been released.
    obtain ⟨hopen, hne⟩ := opened_release_eq d hk
    exact hne (Option.some.inj ((fit.opened id _ hopen).symm.trans given))

/-- The handles that a dropped one leaves belong to their streams. -/
theorem Fit.given_held {made : List StreamId} {d : Demux} (fit : Fit made d) {g : Handle}
    {hs : List Handle} {box : Inbox} (found : d.inboxes[g.key]? = some box)
    (given : ∀ h ∈ g :: hs, Given made h) : ∀ h ∈ box.held ++ hs, Given made h := by
  intro h hh
  rcases List.mem_append.1 hh with hh | hh
  · exact fit.unread g.key box found h hh
  · exact given h (List.mem_cons_of_mem _ hh)

/-- What dropping leaves alone: handles that keep their inboxes keep them as they are, and their
    streams stay open if they were. -/
theorem Fit.of_dropAll {made : List StreamId} {d : Demux} {hs : List Handle} (fit : Fit made d)
    (given : ∀ h ∈ hs, Given made h) :
    Fit made (d.dropAll hs) ∧ ∀ (k : Nat) (box : Inbox), (d.dropAll hs).inboxes[k]? = some box →
      d.inboxes[k]? = some box ∧ (made.Nodup → ∀ id, made[k]? = some id →
        (d.dropAll hs).opened[id]? = d.opened[id]?) := by
  induction d, hs using dropAll_induct with
  | nil d =>
    rw [dropAll]
    exact ⟨fit, fun k box h => ⟨h, fun _ _ _ => rfl⟩⟩
  | absent d g hs hg ih =>
    rw [dropAll_of_absent hg]
    exact ih fit fun h hh => given h (List.mem_cons_of_mem _ hh)
  | found d g hs box hg ih =>
    rw [dropAll_of_found hg]
    have hgiven := given g List.mem_cons_self
    -- The first handle goes with its inbox, then the rest with what was in it.
    obtain ⟨h1, h2⟩ := ih (fit.dropOne hgiven) (fit.given_held hg given)
    refine ⟨h1, fun k other hk => ?_⟩
    obtain ⟨h3, h4⟩ := h2 k other hk
    have h3' : (d.inboxes.erase g.key)[k]? = some other := h3
    rw [Std.ExtTreeMap.getElem?_erase] at h3'
    split at h3'
    · cases h3'
    · next hne =>
      refine ⟨h3', fun nodup id hid => ?_⟩
      rw [h4 nodup id hid]
      -- With different streams, another key is that of another stream, which stays open.
      refine opened_release_of_ne d ?_
      rintro rfl
      have hlt := (List.getElem?_eq_some_iff.1 hid).1
      have hkey := (List.getElem?_inj hlt nodup).1 (hid.trans hgiven.symm)
      exact hne (by rw [hkey, Std.compare_self])

/-! ## The other things that happen to handles -/

section

variable {made : List StreamId} {d : Demux}

/-- A stream is not open any more. -/
theorem Fit.shut (fit : Fit made d) (id : StreamId) :
    Fit made { d with opened := d.opened.erase id } := by
  -- Closing a stream leaves fewer open ones, and nothing else is changed.
  have hsub : ∀ (other : StreamId) (k : Nat), (d.opened.erase id)[other]? = some k →
      d.opened[other]? = some k := by
    intro other k hk
    rw [Std.ExtTreeMap.getElem?_erase] at hk
    split at hk
    · cases hk
    · exact hk
  exact ⟨fit.count, fit.keys, fun other k hk => fit.opened other k (hsub other k hk),
    fun other k hk => fit.inbox other k (hsub other k hk), fit.unread, fit.released⟩

/-- The inbox of a handle changes. -/
theorem Fit.fill (fit : Fit made d) {key : Nat} {box box' : Inbox}
    (hbox : d.inboxes[key]? = some box) (held : ∀ h ∈ box'.held, Given made h) :
    Fit made { d with inboxes := d.inboxes.insert key box' } := by
  -- The key already had an inbox, so only what this inbox holds is new.
  refine ⟨fit.count, fun k other hk => ?_, fit.opened, fun id k hk => ?_, fun k other hk => ?_,
    fit.released⟩
  · have hk' : (d.inboxes.insert key box')[k]? = some other := hk
    rw [Std.ExtTreeMap.getElem?_insert] at hk'
    split at hk'
    · next hc =>
      obtain rfl := Std.compare_eq_iff_eq.1 hc
      exact fit.keys _ box hbox
    · exact fit.keys k other hk'
  · obtain ⟨other, hother⟩ := fit.inbox id k hk
    show ∃ b, (d.inboxes.insert key box')[k]? = some b
    rw [Std.ExtTreeMap.getElem?_insert]
    split
    · exact ⟨_, rfl⟩
    · exact ⟨other, hother⟩
  · have hk' : (d.inboxes.insert key box')[k]? = some other := hk
    rw [Std.ExtTreeMap.getElem?_insert] at hk'
    split at hk'
    · obtain rfl := Option.some.inj hk'
      exact held
    · exact fit.unread k other hk'

/-- Delivering a notification keeps the inboxes in line with the handles made. -/
theorem Fit.deliver (fit : Fit made d) {key : Nat} {n : Notification ClientValue}
    (given : ∀ g ∈ n.handles, Given made g) : Fit made (d.deliver key n).2 := by
  unfold Demux.deliver
  -- The notification goes into the inbox, or its handles are dropped with it.
  split
  · next box hbox =>
    refine fit.fill hbox fun g hg => ?_
    simp only [Inbox.held, List.flatMap_append, List.flatMap_cons, List.flatMap_nil,
      List.append_nil, List.mem_append] at hg
    rcases hg with hg | hg
    · exact fit.unread key box hbox g hg
    · exact given g hg
  · exact (fit.of_dropAll given).1

/-- An observation keeps the inboxes in line with the handles made, its own included. -/
theorem Fit.observe (fit : Fit made d) (id : StreamId) (event : Notification WireValue) :
    Fit (made ++ event.ids) (d.observe id event).2 := by
  obtain ⟨fit', given⟩ := fit.introduceAll event.ids
  obtain ⟨b, d', heq, observes⟩ := d.observes id event
  rw [heq]
  -- Either the handles just made are dropped again or they go into the inbox.
  cases observes with
  | shut => exact (fit'.of_dropAll given).1
  | opened ho wire handles rest =>
    refine Fit.deliver ?_ (by rwa [handles])
    rw [rest]
    cases event.terminal with
    | true => exact fit'.shut id
    | false => exact fit'

/-- Failing an id keeps the inboxes in line with the handles made. -/
theorem Fit.failOne (fit : Fit made d) (f : Failure) (id : StreamId) :
    Fit made (d.failOne f id) := by
  unfold Demux.failOne
  split
  · exact fit
  · exact (fit.shut id).deliver (by simp [Notification.handles])

/-- Failing all ids keeps the inboxes in line with the handles made. -/
theorem Fit.failAll (fit : Fit made d) (f : Failure) : Fit made (d.failAll f) := by
  unfold Demux.failAll
  generalize d.opened.keys = ids
  induction ids generalizing d with
  | nil => exact fit
  | cons id ids ih =>
    rw [Demux.failEach_cons]
    exact ih (fit.failOne f id)

/-- Draining the queue of closed ids keeps the inboxes in line with the handles made. -/
theorem Fit.takeReleased (fit : Fit made d) : Fit made d.takeReleased.2 :=
  ⟨fit.count, fit.keys, fit.opened, fit.inbox, fit.unread, by simp [Demux.takeReleased]⟩

/-- A read keeps the inboxes in line with the handles made, however it ends. -/
theorem Fit.reads (fit : Fit made d) {h : Handle} {r : Reading} {d' : Demux}
    (reads : d.Reads h r d') : Fit made d' := by
  cases reads with
  | ended | nothing => exact fit
  | @item box n unread found _ waiting =>
    -- What is left unread was unread before.
    refine fit.fill found fun g hg => fit.unread h.key box found g ?_
    rw [Inbox.held, waiting, List.flatMap_cons]
    exact List.mem_append_right _ hg
  | last found => exact fit.fill found fun g hg => by cases hg

/-- A read keeps the inboxes in line with the handles made. -/
theorem Fit.read (fit : Fit made d) (h : Handle) : Fit made (d.read h).2 := by
  obtain ⟨r, d', heq, reads⟩ := d.reads h
  rw [heq]
  exact fit.reads reads

end

end Demux

end StreamRpc
