import StreamRpc.Proofs.Client.Streams

/-! # What operations do to handles, exactly

Which streams an operation opens and closes, which inboxes it fills, and what it asks to be closed.
What happens on an open stream goes to the end of one inbox.  If the stream is not open, the streams
that the notification introduces are closed again, and no other inbox changes.  A failure goes to the
end of the inboxes of all open streams.

* `Demux.introduceAll_eq`          making handles
* `Demux.inboxes_dropAll_of_empty` dropping handles that have nothing unread
* `Demux.observe_of_open`          what happens on an open stream
* `Demux.observe_of_shut`          what happens on another
* `Demux.Fit.failAll_eq`           failing all streams
-/

namespace StreamRpc

namespace Demux

/-- What a handle has not read. -/
def unreadOf (d : Demux) (h : Handle) : List (Notification ClientValue) :=
  (d.inboxes[h.key]?.getD {}).unread

/-- What is unread of a handle is as much as counted. -/
theorem length_unreadOf (d : Demux) (h : Handle) : (d.unreadOf h).length = d.unreadCount h := rfl

/-- A handle is held while it has an inbox. -/
theorem held_iff (d : Demux) (h : Handle) :
    d.held h = true ↔ ∃ box, d.inboxes[h.key]? = some box := by
  rw [held, Std.ExtTreeMap.contains_eq_isSome_getElem?, Option.isSome_iff_exists]

/-! ## Making handles -/

/-- An inbox set changes the entry of its own key only. -/
theorem getElem?_insert_inbox (m : Std.ExtTreeMap Nat Inbox) (key k : Nat) (box : Inbox) :
    (m.insert key box)[k]? = if k = key then some box else m[k]? := by
  simp only [Std.ExtTreeMap.getElem?_insert, Std.compare_eq_iff_eq, eq_comm (a := k)]

/-- An inbox removed changes the entry of its own key only. -/
theorem getElem?_erase_inbox (m : Std.ExtTreeMap Nat Inbox) (key k : Nat) :
    (m.erase key)[k]? = if k = key then none else m[k]? := by
  simp only [Std.ExtTreeMap.getElem?_erase, Std.compare_eq_iff_eq, eq_comm (a := k)]

/-- An id closed changes its own entry only. -/
theorem getElem?_erase_opened (m : Std.ExtTreeMap StreamId Nat) (id other : StreamId) :
    (m.erase id)[other]? = if other = id then none else m[other]? := by
  rw [Std.ExtTreeMap.getElem?_erase]
  simp only [Std.LawfulEqCmp.compare_eq_iff_eq, eq_comm (a := other)]

/-- What is there when a stream is closed was there before, and is another one. -/
theorem opened_of_erase {opened : Std.ExtTreeMap StreamId Nat} {id other : StreamId} {k : Nat}
    (ho : (opened.erase id)[other]? = some k) : opened[other]? = some k ∧ other ≠ id := by
  rw [getElem?_erase_opened] at ho
  split at ho
  · cases ho
  · next hne => exact ⟨ho, hne⟩

/-- New handles get the next keys and inboxes of their own. -/
theorem introduceAll_eq (d : Demux) (ids : List StreamId) :
    (d.introduceAll ids).1.map (·.key) = List.range' d.nextKey ids.length ∧
      (d.introduceAll ids).2.nextKey = d.nextKey + ids.length ∧
      (∀ k, (d.introduceAll ids).2.inboxes[k]? =
        if d.nextKey ≤ k ∧ k < d.nextKey + ids.length then some {} else d.inboxes[k]?) ∧
      ∀ id ∉ ids, (d.introduceAll ids).2.opened[id]? = d.opened[id]? := by
  induction ids generalizing d with
  | nil =>
    refine ⟨rfl, rfl, fun k => (if_neg ?_).symm, fun id _ => rfl⟩
    rw [List.length_nil]
    omega
  | cons id ids ih =>
    obtain ⟨h1, h2, h3, h4⟩ := ih (d.introduce id).2
    have hkey : (d.introduce id).2.nextKey = d.nextKey + 1 := rfl
    rw [hkey] at h1 h2 h3
    refine ⟨?_, ?_, fun k => ?_, fun other hother => ?_⟩
    · show d.nextKey :: ((d.introduce id).2.introduceAll ids).1.map (·.key) = _
      rw [h1, List.length_cons, List.range'_succ]
    · show ((d.introduce id).2.introduceAll ids).2.nextKey = _
      rw [h2, List.length_cons]
      omega
    · show ((d.introduce id).2.introduceAll ids).2.inboxes[k]? = _
      -- The first one gets the next key, and the others the keys that follow.
      have hinsert : (d.introduce id).2.inboxes[k]? =
          if k = d.nextKey then some {} else d.inboxes[k]? := getElem?_insert_inbox ..
      rw [h3, hinsert, List.length_cons]
      split
      · next h => rw [if_pos (by omega)]
      · split
        · next h => rw [if_pos (by omega)]
        · rw [if_neg (by omega)]
    -- A stream that is none of these is registered as it was before.
    · obtain ⟨hne, hnot⟩ := List.ne_and_not_mem_of_not_mem_cons hother
      show ((d.introduce id).2.introduceAll ids).2.opened[other]? = _
      rw [h4 other hnot]
      show (d.opened.insert id d.nextKey)[other]? = _
      rw [Std.ExtTreeMap.getElem?_insert, if_neg]
      exact fun hc => hne (Std.LawfulEqOrd.eq_of_compare hc).symm

/-- A new handle is open, and a stream that was open for another handle is open for it no more. -/
theorem opened_introduce (d : Demux) (id : StreamId) (h : Handle) :
    (d.introduce id).2.opened[h.id]? = some h.key ↔
      (d.introduce id).1 = h ∨ d.opened[h.id]? = some h.key ∧ h.id ≠ id := by
  obtain ⟨key, other⟩ := h
  show (d.opened.insert id d.nextKey)[other]? = _ ↔ Handle.mk d.nextKey id = _ ∨ _
  rw [Std.ExtTreeMap.getElem?_insert, Handle.mk.injEq]
  simp only [Std.LawfulEqCmp.compare_eq_iff_eq, ne_eq, eq_comm (a := other)]
  split
  · next hid => simp [hid]
  · next hid => simp [hid]

/-- An introduction adds one handle to those held. -/
theorem held_introduce (d : Demux) (id : StreamId) (h : Handle) :
    (d.introduce id).2.held h = true ↔ h.key = d.nextKey ∨ d.held h = true := by
  rw [held_iff, held_iff, introduce, getElem?_insert_inbox]
  split
  · next hkey => simp [hkey]
  · next hkey => simp [hkey]

/-- What a handle has not read can change while the handle stays. -/
theorem held_fill {d d' : Demux} {key : Nat} {box box' : Inbox}
    (found : d.inboxes[key]? = some box) (filled : d'.inboxes = d.inboxes.insert key box')
    (h : Handle) : d'.held h = d.held h := by
  refine Bool.eq_iff_iff.2 ?_
  rw [held_iff, held_iff, filled, getElem?_insert_inbox]
  split
  · next hkey => simp [hkey, found]
  · rfl

/-- The handles introduced take the next keys. -/
private theorem key_of_mem_introduceAll {d : Demux} {ids : List StreamId} {h : Handle}
    (hh : h ∈ (d.introduceAll ids).1) : d.nextKey ≤ h.key ∧ h.key < d.nextKey + ids.length := by
  have hmem : h.key ∈ (d.introduceAll ids).1.map (·.key) := List.mem_map_of_mem hh
  rw [(d.introduceAll_eq ids).1, List.mem_range'_1] at hmem
  exact hmem

/-- New handles have nothing to read. -/
private theorem inbox_of_mem_introduceAll {d : Demux} {ids : List StreamId} {h : Handle}
    (hh : h ∈ (d.introduceAll ids).1) : (d.introduceAll ids).2.inboxes[h.key]? = some {} := by
  rw [(d.introduceAll_eq ids).2.2.1, if_pos (key_of_mem_introduceAll hh)]

/-- Making handles leaves what other handles have not read. -/
private theorem Fit.unreadOf_introduceAll {made : List StreamId} {d : Demux} (fit : Fit made d)
    (ids : List StreamId) (h : Handle) : (d.introduceAll ids).2.unreadOf h = d.unreadOf h := by
  unfold unreadOf
  rw [(d.introduceAll_eq ids).2.2.1]
  split
  · next hk =>
    -- No handle had the key before, so nothing was waiting for it.
    have hnone : d.inboxes[h.key]? = none := by
      refine Option.eq_none_iff_forall_ne_some.2 fun box hbox => ?_
      have := fit.keys h.key box hbox
      have := fit.count
      omega
    rw [hnone]
    rfl
  · rfl

/-- The handle for which a stream is open. -/
theorem Fit.opened_of_given {made : List StreamId} {d : Demux} (fit : Fit made d)
    (once : made.Nodup) {h : Handle} (given : Given made h) (hopen : d.isOpen h.id = true) :
    d.opened[h.id]? = some h.key := by
  obtain ⟨k, hk⟩ := (d.isOpen_iff h.id).1 hopen
  have hmade := fit.opened h.id k hk
  rw [hk, (List.getElem?_inj (List.getElem?_eq_some_iff.1 hmade).1 once).1 (hmade.trans given.symm)]

/-- A handle has one stream. -/
theorem Fit.eq_of_opened {made : List StreamId} {d : Demux} (fit : Fit made d) {id other : StreamId}
    {k : Nat} (ho : d.opened[id]? = some k) (ho' : d.opened[other]? = some k) : id = other :=
  Option.some.inj ((fit.opened id k ho).symm.trans (fit.opened other k ho'))

/-! ## Dropping handles -/

/-- Dropping a handle closes its id only. -/
theorem isOpen_dropOne (d : Demux) (h : Handle) (id : StreamId) :
    (d.dropOne h).isOpen id = (d.isOpen id && id != h.id) :=
  d.isOpen_release h.id id

/-- Dropping a handle removes its inbox only. -/
theorem inboxes_dropOne (d : Demux) (h : Handle) (k : Nat) :
    (d.dropOne h).inboxes[k]? = if k = h.key then none else d.inboxes[k]? :=
  getElem?_erase_inbox d.inboxes h.key k

/-- Dropping a handle takes that one from those held. -/
theorem held_dropOne (d : Demux) (g h : Handle) :
    (d.dropOne g).held h = true ↔ d.held h = true ∧ h.key ≠ g.key := by
  rw [held_iff, held_iff, inboxes_dropOne]
  split
  · next hkey => simp [hkey]
  · next hkey => simp [hkey]

/-- Dropping a handle removes the registration of its id only. -/
theorem opened_dropOne (d : Demux) (g : Handle) (id : StreamId) (k : Nat) :
    (d.dropOne g).opened[id]? = some k ↔ d.opened[id]? = some k ∧ id ≠ g.id := by
  show (d.release g.id).opened[id]? = some k ↔ _
  refine ⟨opened_release_eq d, fun ⟨hopen, hne⟩ => ?_⟩
  rw [opened_release_of_ne d hne, hopen]

/-- A dropped handle's id is queued when it was open. -/
theorem released_dropOne (d : Demux) (h : Handle) :
    (d.dropOne h).released = if d.isOpen h.id then d.released ++ [h.id] else d.released := by
  show (d.release h.id).released = _
  unfold release isOpen
  split <;> rfl

/-- Dropping handles that have no others to read takes their inboxes away and leaves the rest. -/
theorem inboxes_dropAll_of_empty {d : Demux} {hs : List Handle}
    (empty : ∀ h ∈ hs, ∀ box, d.inboxes[h.key]? = some box → box.held = []) (k : Nat) :
    (d.dropAll hs).inboxes[k]? = if k ∈ hs.map (·.key) then none else d.inboxes[k]? := by
  induction hs generalizing d with
  | nil => simp [dropAll]
  | cons h hs ih =>
    have hrest := fun g hg => empty g (List.mem_cons_of_mem h hg)
    cases hbox : d.inboxes[h.key]? with
    | none =>
      rw [dropAll_of_absent hbox, ih hrest, List.map_cons]
      by_cases hk : k = h.key
      · simp [hk, hbox]
      · simp [hk]
    -- Nothing comes after the handle but the rest of the list.
    | some box =>
      rw [dropAll_of_found hbox, empty h List.mem_cons_self box hbox, List.nil_append, ih]
      · rw [inboxes_dropOne, List.map_cons]
        by_cases hk : k = h.key
        · simp [hk]
        · simp [hk]
      · intro g hg box' hbox'
        rw [inboxes_dropOne] at hbox'
        split at hbox'
        · cases hbox'
        · exact hrest g hg box' hbox'

/-- Dropping handles of open streams that have no others to read asks for just these streams to be
    closed, in the order of the handles. -/
private theorem released_dropAll_of_empty {d : Demux} {hs : List Handle}
    (empty : ∀ h ∈ hs, ∃ box, d.inboxes[h.key]? = some box ∧ box.held = [])
    (keys : (hs.map (·.key)).Nodup) (ids : (hs.map (·.id)).Nodup)
    (opened : ∀ h ∈ hs, d.isOpen h.id = true) :
    (d.dropAll hs).released = d.released ++ hs.map (·.id) := by
  induction hs generalizing d with
  | nil => simp [dropAll]
  | cons h hs ih =>
    obtain ⟨box, hbox, hheld⟩ := empty h List.mem_cons_self
    obtain ⟨hkey, hkeys⟩ := List.nodup_cons.1 keys
    obtain ⟨hid, hids⟩ := List.nodup_cons.1 ids
    have hopen := opened h List.mem_cons_self
    -- No handle holds another, so nothing falls with the first; it leaves the others open and
    -- empty.
    rw [dropAll_of_found hbox, hheld, List.nil_append, ih _ hkeys hids, released_dropOne,
      if_pos hopen, List.append_assoc]
    · rfl
    · intro g hg
      have hne : g.id ≠ h.id := fun heq => hid (List.mem_map.2 ⟨g, hg, heq⟩)
      rw [isOpen_dropOne, opened g (List.mem_cons_of_mem h hg), bne_iff_ne.2 hne, Bool.true_and]
    · intro g hg
      obtain ⟨box', hbox', hheld'⟩ := empty g (List.mem_cons_of_mem h hg)
      have hne : g.key ≠ h.key := fun heq => hkey (List.mem_map.2 ⟨g, hg, heq⟩)
      exact ⟨box', by rw [inboxes_dropOne, if_neg hne, hbox'], hheld'⟩

/-! ## Handles that are made and dropped at once -/

/-- The streams of the handles are closed, … -/
theorem released_dropAll_introduceAll (d : Demux) {ids : List StreamId} (nodup : ids.Nodup) :
    ((d.introduceAll ids).2.dropAll (d.introduceAll ids).1).released = d.released ++ ids := by
  obtain ⟨hreleased, hopens⟩ := d.introduceAll_opens ids
  have hids := d.ids_introduceAll ids
  have hdropped := released_dropAll_of_empty
    (fun g hg => ⟨{}, inbox_of_mem_introduceAll hg, rfl⟩)
    (by rw [(d.introduceAll_eq ids).1]; exact List.nodup_range')
    (by rwa [hids])
    (fun g hg => (hopens g.id).2 (.inr (hids ▸ List.mem_map_of_mem hg)))
  rwa [hids, hreleased] at hdropped

/-- … no other stream is opened or closed, … -/
theorem isOpen_dropAll_introduceAll (d : Demux) {ids : List StreamId} (nodup : ids.Nodup)
    (shut : ∀ id ∈ ids, d.isOpen id = false) (id : StreamId) :
    ((d.introduceAll ids).2.dropAll (d.introduceAll ids).1).isOpen id = d.isOpen id := by
  obtain ⟨hreleased, hopens⟩ := d.introduceAll_opens ids
  obtain ⟨new, hnew, -, hopen⟩ := dropAll_closes (d.introduceAll ids).2 (d.introduceAll ids).1
  rw [d.released_dropAll_introduceAll nodup, hreleased] at hnew
  -- The streams released are just the ones introduced, so these and no others are closed again.
  obtain rfl := List.append_cancel_left hnew
  refine Bool.eq_iff_iff.2 ((hopen id).trans ?_)
  rw [hopens]
  constructor
  · rintro ⟨ho | hin, hnot⟩
    · exact ho
    · exact absurd hin hnot
  · intro ho
    exact ⟨.inl ho, fun hin => Bool.false_ne_true ((shut id hin).symm.trans ho)⟩

/-- … and no other handle has more or less to read. -/
theorem Fit.unreadOf_dropAll_introduceAll {made : List StreamId} {d : Demux} (fit : Fit made d)
    (ids : List StreamId) (h : Handle) :
    ((d.introduceAll ids).2.dropAll (d.introduceAll ids).1).unreadOf h = d.unreadOf h := by
  have hempty : ∀ g ∈ (d.introduceAll ids).1, ∀ box,
      (d.introduceAll ids).2.inboxes[g.key]? = some box → box.held = [] := by
    intro g hg box hbox
    obtain rfl := Option.some.inj ((inbox_of_mem_introduceAll hg).symm.trans hbox)
    rfl
  have hinbox := inboxes_dropAll_of_empty hempty h.key
  have hsame := fit.unreadOf_introduceAll ids h
  unfold unreadOf at hsame ⊢
  rw [hinbox, ← hsame]
  split
  · next hkey =>
    -- A handle with the key of a new one has nothing to read, before and after.
    obtain ⟨g, hg, heq⟩ := List.mem_map.1 hkey
    have heq : g.key = h.key := heq
    rw [← heq, inbox_of_mem_introduceAll hg]
    rfl
  · rfl

/-! ## What happens on streams -/

/-- What happens on an open stream is put into the inbox of its handle. -/
theorem Fit.observe_of_open {made : List StreamId} {d : Demux} (fit : Fit made d) {id : StreamId}
    (event : Notification WireValue) {key : Nat}
    (ho : (d.introduceAll event.ids).2.opened[id]? = some key) :
    ∃ n box, n.onWire = event ∧ n.handles = (d.introduceAll event.ids).1 ∧
      (d.introduceAll event.ids).2.inboxes[key]? = some box ∧
      d.observe id event = (true,
        { (d.introduceAll event.ids).2 with
          opened :=
            if event.terminal then (d.introduceAll event.ids).2.opened.erase id
            else (d.introduceAll event.ids).2.opened
          inboxes := (d.introduceAll event.ids).2.inboxes.insert key
            { box with unread := box.unread ++ [n] } }) := by
  obtain ⟨box, hbox⟩ := (fit.introduceAll event.ids).1.inbox id key ho
  obtain ⟨b, d', heq, observes⟩ := d.observes id event
  rw [heq]
  -- The stream is open, so only one of the two cases is possible.
  cases observes with
  | shut ho' =>
    rw [ho] at ho'
    cases ho'
  | @opened key' n _ ho' wire handles rest =>
    obtain rfl := Option.some.inj (ho.symm.trans ho')
    refine ⟨n, box, wire, handles, hbox, ?_⟩
    simp only [rest, Demux.deliver, hbox]

/-- What happens on an open stream goes to the end of what its handle has not read, and nowhere
    else. -/
theorem Fit.unreadOf_observe {made : List StreamId} {d : Demux} (fit : Fit made d) {id : StreamId}
    (event : Notification WireValue) {key : Nat}
    (ho : (d.introduceAll event.ids).2.opened[id]? = some key) :
    ∃ n, n.onWire = event ∧ n.handles = (d.introduceAll event.ids).1 ∧
      (d.observe id event).1 = true ∧
      (d.observe id event).2.released = (d.introduceAll event.ids).2.released ∧
      ∀ other, (d.observe id event).2.unreadOf other =
        if other.key = key then d.unreadOf other ++ [n] else d.unreadOf other := by
  obtain ⟨n, box, hwire, hn, hbox, heq⟩ := fit.observe_of_open event ho
  rw [heq]
  refine ⟨n, hwire, hn, rfl, rfl, fun other => ?_⟩
  -- The new handles have inboxes of their own, which are empty.
  have hsame := fit.unreadOf_introduceAll event.ids other
  show (((d.introduceAll event.ids).2.inboxes.insert key _)[other.key]?.getD {}).unread = _
  rw [getElem?_insert_inbox]
  split
  · next hkey =>
    rw [← hsame, unreadOf, hkey, hbox]
    rfl
  · exact hsame

/-- The handles in what happens on a stream that is not open are dropped. -/
theorem observe_of_shut {d : Demux} {id : StreamId} {event : Notification WireValue}
    (ho : (d.introduceAll event.ids).2.opened[id]? = none) :
    d.observe id event =
      (false, (d.introduceAll event.ids).2.dropAll (d.introduceAll event.ids).1) := by
  obtain ⟨b, d', heq, observes⟩ := d.observes id event
  rw [heq]
  -- The stream is not open, so the new handles are dropped again.
  cases observes with
  | shut => rfl
  | opened ho' =>
    rw [ho] at ho'
    cases ho'

/-- What was accepted went to the handle of an open stream. -/
theorem opened_of_accepted {d : Demux} {id : StreamId} {event : Notification WireValue}
    (accepted : (d.observe id event).1 = true) :
    ∃ key, (d.introduceAll event.ids).2.opened[id]? = some key := by
  refine Option.ne_none_iff_exists'.1 fun ho => ?_
  rw [observe_of_shut ho] at accepted
  cases accepted

/-- What was not accepted had no open stream to go to. -/
theorem Fit.shut_of_rejected {made : List StreamId} {d : Demux} (fit : Fit made d) {id : StreamId}
    {event : Notification WireValue} (rejected : (d.observe id event).1 = false) :
    (d.introduceAll event.ids).2.opened[id]? = none := by
  refine Option.eq_none_iff_forall_ne_some.2 fun key ho => ?_
  obtain ⟨n, box, -, -, -, heq⟩ := fit.observe_of_open event ho
  rw [heq] at rejected
  cases rejected

/-! ## Failing streams -/

section Failing

variable {made : List StreamId} {d : Demux}

/-- What the failure of an open stream comes to. -/
private theorem Fit.failOne_of_open (fit : Fit made d) {id : StreamId} {key : Nat}
    (ho : d.opened[id]? = some key) (f : Failure) :
    ∃ box, d.inboxes[key]? = some box ∧ d.failOne f id = { d with
      opened := d.opened.erase id
      inboxes := d.inboxes.insert key { box with unread := box.unread ++ [.error f] } } := by
  obtain ⟨box, hbox⟩ := fit.inbox id key ho
  exact ⟨box, hbox, Demux.failOne_of_open ho hbox f⟩

/-- Failing an id queues nothing. -/
private theorem Fit.released_failOne (fit : Fit made d) (f : Failure) (id : StreamId) :
    (d.failOne f id).released = d.released := by
  cases ho : d.opened[id]? with
  | none => rw [failOne_of_shut ho]
  | some key =>
    obtain ⟨box, -, heq⟩ := fit.failOne_of_open ho f
    rw [heq]

/-- Failing an id removes its registration only. -/
private theorem Fit.opened_failOne (fit : Fit made d) (f : Failure) (id other : StreamId) :
    (d.failOne f id).opened[other]? = if other = id then none else d.opened[other]? := by
  -- Failing a stream that is not open does nothing.
  cases ho : d.opened[id]? with
  | none =>
    rw [failOne_of_shut ho]
    split
    · next heq => rw [heq, ho]
    · rfl
  | some key =>
    obtain ⟨box, -, heq⟩ := fit.failOne_of_open ho f
    rw [heq]
    exact getElem?_erase_opened d.opened id other

/-- Failing an id reaches the inbox it is open for only. -/
private theorem Fit.inboxes_failOne (fit : Fit made d) (f : Failure) {id : StreamId} {k : Nat}
    (hk : d.opened[id]? ≠ some k) : (d.failOne f id).inboxes[k]? = d.inboxes[k]? := by
  cases ho : d.opened[id]? with
  | none => rw [failOne_of_shut ho]
  | some key =>
    obtain ⟨box, -, heq⟩ := fit.failOne_of_open ho f
    rw [heq]
    refine (getElem?_insert_inbox ..).trans (if_neg ?_)
    rintro rfl
    exact hk ho

/-- Failing ids queues nothing. -/
private theorem Fit.released_failEach (fit : Fit made d) (f : Failure) (ids : List StreamId) :
    (d.failEach f ids).released = d.released := by
  induction ids generalizing d with
  | nil => rfl
  | cons id ids ih => rw [failEach_cons, ih (fit.failOne f id), fit.released_failOne]

/-- The streams that fail are closed. -/
private theorem Fit.opened_failEach (fit : Fit made d) (f : Failure) (ids : List StreamId)
    (other : StreamId) :
    (d.failEach f ids).opened[other]? = if other ∈ ids then none else d.opened[other]? := by
  induction ids generalizing d with
  | nil => simp [failEach]
  | cons id ids ih =>
    rw [failEach_cons, ih (fit.failOne f id), fit.opened_failOne]
    by_cases heq : other = id
    · simp [heq]
    · simp [heq]

/-- Whose stream does not fail hears nothing. -/
private theorem Fit.inboxes_failEach (fit : Fit made d) (f : Failure) {ids : List StreamId}
    {k : Nat}
    (hk : ∀ id ∈ ids, d.opened[id]? ≠ some k) :
    (d.failEach f ids).inboxes[k]? = d.inboxes[k]? := by
  induction ids generalizing d with
  | nil => rfl
  | cons id ids ih =>
    rw [failEach_cons, ih (fit.failOne f id), fit.inboxes_failOne f (hk id List.mem_cons_self)]
    -- What is open after the first was open before it.
    intro other hother
    rw [fit.opened_failOne]
    split
    · simp
    · exact hk other (List.mem_cons_of_mem _ hother)

/-- Whose stream fails gets the failure once, after what it has not read yet. -/
private theorem Fit.failed_failEach (fit : Fit made d) (f : Failure) {ids : List StreamId}
    {id : StreamId}
    (hid : id ∈ ids) {k : Nat} (ho : d.opened[id]? = some k) :
    ∃ box, d.inboxes[k]? = some box ∧
      (d.failEach f ids).inboxes[k]? = some { box with unread := box.unread ++ [.error f] } := by
  induction ids generalizing d with
  | nil => cases hid
  | cons first ids ih =>
    rw [failEach_cons]
    by_cases heq : id = first
    · -- This stream is closed from now on, and so its handle hears nothing more.
      subst heq
      obtain ⟨box, hbox, hone⟩ := fit.failOne_of_open ho f
      refine ⟨box, hbox, ?_⟩
      rw [(fit.failOne f id).inboxes_failEach f, hone]
      · exact (getElem?_insert_inbox ..).trans (if_pos rfl)
      · intro other _
        rw [fit.opened_failOne]
        split
        · simp
        · next hne => exact fun hother => hne (fit.eq_of_opened hother ho)
    -- Two open streams never have one key, so the first failure passes this handle by.
    · have hne : d.opened[first]? ≠ some k := fun h => heq (fit.eq_of_opened ho h)
      obtain ⟨box, hbox, hlast⟩ := ih (fit.failOne f first) ((List.mem_cons.1 hid).resolve_left heq)
        (by rw [fit.opened_failOne, if_neg heq, ho])
      rw [fit.inboxes_failOne f hne] at hbox
      exact ⟨box, hbox, hlast⟩

/-- Failing all streams leaves none open, and each of their handles gets the failure after what it
    has not read yet. -/
theorem Fit.failAll_eq (fit : Fit made d) (f : Failure) :
    (d.failAll f).released = d.released ∧
      (∀ id : StreamId, (d.failAll f).opened[id]? = none) ∧
      (∀ (id : StreamId) (k : Nat), d.opened[id]? = some k → ∃ box, d.inboxes[k]? = some box ∧
        (d.failAll f).inboxes[k]? = some { box with unread := box.unread ++ [.error f] }) ∧
      ∀ k : Nat, (∀ id : StreamId, d.opened[id]? ≠ some k) →
        (d.failAll f).inboxes[k]? = d.inboxes[k]? := by
  -- All open streams are among those that are failed.
  have hkeys : ∀ (id : StreamId) (k : Nat), d.opened[id]? = some k → id ∈ d.opened.keys := fun id k hk =>
    Std.ExtTreeMap.mem_keys.2 (Std.ExtTreeMap.mem_iff_isSome_getElem?.2 (by rw [hk]; rfl))
  refine ⟨fit.released_failEach f _, fun id => ?_,
    fun id k hk => fit.failed_failEach f (hkeys id k hk) hk,
    fun k hk => fit.inboxes_failEach f fun id _ => hk id⟩
  rw [Demux.failAll, fit.opened_failEach]
  cases ho : d.opened[id]? with
  | none => exact ite_self _
  | some k => rw [if_pos (hkeys id k ho)]

end Failing

end Demux

end StreamRpc
