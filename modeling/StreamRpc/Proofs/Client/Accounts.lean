import StreamRpc.Proofs.Client.Registry

/-! # Every stream is closed once

A stream is open from the time its handle is made until the handle is dropped, the end of the stream
is told, or all streams fail, whichever comes first.  Only in the first of these cases it is put with
the streams to be closed, so none is put there twice, and what is taken from there is what was put
there, in order.

* `Demux.Account`              what the events of a run say about the handles after it
* `Demux.Run.account`          and that it holds
* `Demux.Run.observe_open`     what happens on an open stream goes to its handle
* `Demux.Run.observe_shut`     what happens on another closes what it introduces
* `Demux.streams_close_once`   all of it together
-/

namespace StreamRpc

namespace Demux

open HandleTrace (made_append queued_append drained_append openFor_concat)

/-- What the events of a run say about the handles after it. -/
structure Account (tr : HandleTrace) (d : Demux) : Prop where
  fit : Fit tr.made d
  fed : ∀ h, tr.OpenFor h ↔ d.opened[h.id]? = some h.key
  held : ∀ h, Given tr.made h → (d.held h = true ↔ ∀ q, .dropped h q ∉ tr)
  given : ∀ h q, .dropped h q ∈ tr → Given tr.made h
  queue : tr.drained ++ d.released = tr.queued
  once : tr.queued.Nodup
  right : ∀ pre x post, tr = pre ++ x :: post → x.Right pre

/-- The empty demultiplexer has the empty account. -/
private theorem account_empty : Account [] {} where
  fit := fit_empty
  fed h := by simp [HandleTrace.OpenFor]
  held h given := by simp [Given, HandleTrace.made] at given
  given := by simp
  queue := rfl
  once := List.nodup_nil
  right := by simp

/-- An introduction adds one handle to those made. -/
private theorem made_introduce (tr : HandleTrace) (d : Demux) (id : StreamId) :
    HandleTrace.made (tr ++ [.introduced (d.introduce id).1]) = tr.made ++ [id] := by
  simp [HandleEvent.stream?, Demux.introduce]

/-- A drop makes no handle. -/
private theorem made_dropped (tr : HandleTrace) (h : Handle) (queued : Bool) :
    HandleTrace.made (tr ++ [.dropped h queued]) = tr.made := by
  simp [HandleEvent.stream?]

namespace Account

variable {tr : HandleTrace} {d d' : Demux}

/-- A stream is open if its handle is. -/
private theorem isOpen_iff (account : Account tr d) (id : StreamId) :
    d.isOpen id = true ↔ tr.Open id := by
  rw [Demux.isOpen_iff]
  constructor
  · rintro ⟨k, hk⟩
    exact ⟨⟨k, id⟩, rfl, (account.fed ⟨k, id⟩).2 hk⟩
  · rintro ⟨h, rfl, hopen⟩
    exact ⟨h.key, (account.fed h).1 hopen⟩

/-- The account's events stay right when the next one is. -/
private theorem right_concat {x : HandleEvent} (account : Account tr d) (hx : x.Right tr) :
    ∀ pre y post, tr ++ [x] = pre ++ y :: post → y.Right pre := by
  intro pre y post heq
  rcases split_concat heq with ⟨rfl, rfl, -⟩ | ⟨init, -, htr⟩
  · exact hx
  · exact account.right pre y init htr

/-- An event that says nothing of handles that were made or dropped. -/
private theorem quiet {x : HandleEvent} (account : Account tr d) (hs : x.stream? = none)
    (hq : x.queued? = none) (hd : ∀ h q, x ≠ .dropped h q) (hx : x.Right tr)
    (fit : Fit tr.made d') (held : ∀ h, d'.held h = d.held h)
    (queue : x.batch ++ d'.released = d.released)
    (fed : ∀ h, d'.opened[h.id]? = some h.key ↔ d.opened[h.id]? = some h.key ∧ ¬x.Ends h) :
    Account (tr ++ [x]) d' where
  fit := by
    simpa [hs] using fit
  fed h := by
    rw [openFor_concat, fed, account.fed]
    -- No handle was made, so those that are open were open before.
    refine or_iff_right ?_
    rintro rfl
    cases hs
  held h given := by
    have given' : Given tr.made h := by simpa [hs] using given
    rw [held, account.held h given']
    refine forall_congr' fun q => not_congr ?_
    rw [List.mem_append, List.mem_singleton]
    exact (or_iff_left (hd h q).symm).symm
  -- The event itself is no drop, so every drop was told of before.
  given h q hdropped := by
    rcases List.mem_append.1 hdropped with hdropped | hdropped
    · rw [made_append]
      exact (account.given h q hdropped).mono _
    · exact absurd (List.mem_singleton.1 hdropped).symm (hd h q)
  queue := by simp [hq, queue, account.queue]
  once := by simpa [hq] using account.once
  right := account.right_concat hx

/-- A handle is made for a stream that is new. -/
private theorem introduce (account : Account tr d) {id : StreamId} (fresh : id ∉ tr.made) :
    Account (tr ++ [.introduced (d.introduce id).1]) (d.introduce id).2 := by
  have hmade := made_introduce tr d id
  have hcount := account.fit.count
  have hlast : ∀ {h q}, .dropped h q ∈ tr ++ [.introduced (d.introduce id).1] ↔
      .dropped h q ∈ tr := by
    simp
  refine ⟨?_, fun h => ?_, fun h given => ?_, fun h q hdropped => ?_, ?_, ?_, ?_⟩
  · rw [hmade]
    exact account.fit.introduce id
  · rw [openFor_concat, account.fed, opened_introduce, HandleEvent.introduced.injEq]
    refine or_congr_right (and_congr_right fun hopen => ?_)
    -- The stream is new, so it was not open for any handle.
    have hne : h.id ≠ id := by
      rintro rfl
      exact fresh (List.mem_of_getElem? (account.fit.opened _ _ hopen))
    exact iff_of_true (by simp [HandleEvent.Ends]) hne
  · rw [hmade] at given
    simp only [hlast, held_introduce]
    constructor
    · rintro (hkey | hheld) q hdropped
      · -- The key of the new handle is beyond those of the handles that were made before.
        have := (List.getElem?_eq_some_iff.1 (account.given h q hdropped)).1
        omega
      · obtain ⟨box, hbox⟩ := (d.held_iff h).1 hheld
        have hlt := account.fit.keys h.key box hbox
        rw [Given, List.getElem?_append_left hlt] at given
        exact (account.held h given).1 hheld q hdropped
    -- Conversely, a handle that is not the new one was judged by the account before.
    · intro hnot
      refine or_iff_not_imp_left.2 fun hkey => ?_
      have hlt : h.key < tr.made.length := by
        have := (List.getElem?_eq_some_iff.1 given).1
        rw [List.length_append, List.length_singleton] at this
        omega
      rw [Given, List.getElem?_append_left hlt] at given
      exact (account.held h given).2 hnot
  · rw [made_append]
    exact (account.given h q (hlast.1 hdropped)).mono _
  · have hreleased : (d.introduce id).2.released = d.released := rfl
    simpa [HandleEvent.batch, HandleEvent.queued?, hreleased] using account.queue
  · simpa [HandleEvent.queued?] using account.once
  · exact account.right_concat trivial

/-- A handle that is there is open if its stream is. -/
theorem isOpen_iff_openFor (account : Account tr d) (nodup : tr.made.Nodup) {h : Handle}
    (given : Given tr.made h) : d.isOpen h.id = true ↔ tr.OpenFor h := by
  rw [account.fed]
  exact ⟨account.fit.opened_of_given nodup given, fun ho => (Demux.isOpen_iff ..).2 ⟨_, ho⟩⟩

/-- As long as a handle is there, its stream has not been put with those to be closed. -/
private theorem not_queued (account : Account tr d) (nodup : tr.made.Nodup) {h : Handle}
    (given : Given tr.made h) (held : d.held h = true) : h.id ∉ tr.queued := by
  intro hid
  obtain ⟨x, hx, heq⟩ := List.mem_filterMap.1 hid
  cases x with
  | dropped g q =>
    cases q with
    | false => cases heq
    | true =>
      -- Only one handle has this id, so it is the one that was dropped.
      obtain rfl := (account.given g true hx).eq_of_id nodup given (Option.some.inj heq)
      exact (account.held g given).1 held true hx
  | _ => cases heq

/-- A handle that is there is dropped. -/
private theorem dropOne (account : Account tr d) (nodup : tr.made.Nodup) {h : Handle}
    (given : Given tr.made h) (held : d.held h = true) :
    Account (tr ++ [.dropped h (d.isOpen h.id)]) (d.dropOne h) := by
  have hmade := made_dropped tr h (d.isOpen h.id)
  refine ⟨?_, fun g => ?_, fun g hg => ?_, fun g q hdropped => ?_, ?_, ?_, ?_⟩
  · rw [hmade]
    exact account.fit.dropOne given
  · rw [openFor_concat, account.fed, opened_dropOne]
    refine (or_iff_right (by simp)).trans (and_congr_right fun hopen => not_congr ?_)
    -- An open stream belongs to one handle, so the stream stays open if another one is dropped.
    have hgiven := account.fit.opened _ _ hopen
    exact ⟨fun heq : h = g => heq ▸ rfl, fun hid => given.eq_of_id nodup hgiven hid.symm⟩
  · rw [hmade] at hg
    rw [held_dropOne, account.held g hg]
    constructor
    · rintro ⟨hnot, hkey⟩ q hdropped
      rcases List.mem_append.1 hdropped with hdropped | hdropped
      · exact hnot q hdropped
      · obtain ⟨rfl, -⟩ := HandleEvent.dropped.injEq .. ▸ List.mem_singleton.1 hdropped
        exact hkey rfl
    -- No drop of this handle is told, so it is not the one just dropped, and has another key.
    · intro hnot
      refine ⟨fun q hdropped => hnot q (List.mem_append_left _ hdropped), fun hkey => ?_⟩
      obtain rfl := hg.eq_of_key given hkey
      exact hnot _ (List.mem_append_right _ (List.mem_singleton_self _))
  · rw [hmade]
    rcases List.mem_append.1 hdropped with hdropped | hdropped
    · exact account.given g q hdropped
    · obtain ⟨rfl, -⟩ := HandleEvent.dropped.injEq .. ▸ List.mem_singleton.1 hdropped
      exact given
  · rw [queued_append, drained_append, ← account.queue, released_dropOne]
    cases ho : d.isOpen h.id <;>
      simp [HandleEvent.batch, HandleEvent.queued?]
  · rw [queued_append]
    cases ho : d.isOpen h.id with
    | false => simpa [HandleEvent.queued?] using account.once
    | true =>
      -- A handle that is held has not been dropped, so its id is not in the queue.
      have hnew := account.not_queued nodup given held
      refine List.nodup_append.2 ⟨account.once, List.nodup_singleton h.id, ?_⟩
      rintro a ha b hb rfl
      exact hnew (List.mem_singleton.1 hb ▸ ha)
  · exact account.right_concat (account.isOpen_iff_openFor nodup given)

/-- A handle gets what happens on its stream. -/
private theorem hear (account : Account tr d) {id : StreamId} {key : Nat}
    (opened : d.opened[id]? = some key) (event : Notification WireValue) {box box' : Inbox}
    (hbox : d.inboxes[key]? = some box) (held : ∀ h ∈ box'.held, Given tr.made h) :
    Account (tr ++ [.told id event true])
      { d with
        opened := if event.terminal then d.opened.erase id else d.opened
        inboxes := d.inboxes.insert key box' } := by
  refine account.quiet rfl rfl (by simp) ?_ ?_ (fun h => ?_) rfl (fun h => ?_)
  -- It was accepted, and the stream is open.
  · exact iff_of_true rfl ((account.isOpen_iff id).1 ((Demux.isOpen_iff ..).2 ⟨key, opened⟩))
  · cases event.terminal with
    | false => exact account.fit.fill hbox held
    | true => exact (account.fit.shut id).fill hbox held
  · exact held_fill hbox rfl h
  · show (if event.terminal then d.opened.erase id else d.opened)[h.id]? = some h.key ↔
      d.opened[h.id]? = some h.key ∧ ¬(id = h.id ∧ event.terminal = true)
    cases event.terminal with
    | false => simp
    | true =>
      simp only [if_true, Std.ExtTreeMap.getElem?_erase, Std.LawfulEqCmp.compare_eq_iff_eq, and_true]
      by_cases hid : id = h.id <;> simp [hid]

/-- Something is told of a stream that is not open. -/
private theorem miss (account : Account tr d) {id : StreamId} (shut : d.opened[id]? = none)
    (event : Notification WireValue) : Account (tr ++ [.told id event false]) d := by
  -- The stream is not open, so this observation neither ends it nor could be heard.
  refine account.quiet rfl rfl (by simp) ?_ account.fit (fun _ => rfl) rfl fun h => ?_
  · refine iff_of_false (by simp) fun hopen => ?_
    obtain ⟨k, hk⟩ := (Demux.isOpen_iff ..).1 ((account.isOpen_iff id).2 hopen)
    rw [shut] at hk
    cases hk
  · refine (and_iff_left_of_imp ?_).symm
    rintro ho ⟨rfl, -⟩
    rw [shut] at ho
    cases ho

/-- All streams fail. -/
private theorem failAll (account : Account tr d) (f : Failure) :
    Account (tr ++ [.failed]) (d.failAll f) := by
  obtain ⟨hreleased, hopened, hhit, hmiss⟩ := account.fit.failAll_eq f
  refine account.quiet rfl rfl (by simp) trivial (account.fit.failAll f) (fun h => ?_) hreleased
    fun h => ?_
  -- An open stream keeps its inbox, which only fails; other inboxes are the same.
  · refine Bool.eq_iff_iff.2 ?_
    rw [held_iff, held_iff]
    by_cases hk : ∃ id : StreamId, d.opened[id]? = some h.key
    · obtain ⟨id, hid⟩ := hk
      obtain ⟨box, hbox, hbox'⟩ := hhit id h.key hid
      rw [hbox, hbox']
      simp
    · rw [hmiss h.key fun id hid => hk ⟨id, hid⟩]
  -- No stream is open any more, and the event ends them all.
  · rw [hopened]
    simp [HandleEvent.Ends]

/-- The streams to be closed are taken. -/
private theorem drain (account : Account tr d) :
    Account (tr ++ [.drained d.takeReleased.1]) d.takeReleased.2 :=
  account.quiet rfl rfl (by simp) trivial account.fit.takeReleased (fun _ => rfl)
    (List.append_nil _) fun h => by simp [takeReleased, HandleEvent.Ends]

/-- Reading a handle changes nothing that is told here. -/
private theorem read (account : Account tr d) (h : Handle) : Account tr (d.read h).2 := by
  obtain ⟨hopened, hreleased⟩ := d.read_opens h
  -- Reading changes what is in an inbox, and never whether there is one.
  have hheld : ∀ g, (d.read h).2.held g = d.held g := by
    intro g
    obtain ⟨r, d', heq, reads⟩ := d.reads h
    rw [heq]
    cases reads with
    | ended | nothing => rfl
    | item found => exact held_fill found rfl g
    | last found => exact held_fill found rfl g
  exact ⟨account.fit.read h, fun g => by rw [hopened]; exact account.fed g,
    fun g hg => by rw [hheld]; exact account.held g hg, account.given,
    by rw [hreleased]; exact account.queue, account.once, account.right⟩

/-! ## Operations -/

/-- Handles are made for streams that are new. -/
private theorem introduceAll (account : Account tr d) {ids : List StreamId}
    (nodup : (tr.made ++ ids).Nodup) :
    Account (tr ++ (d.introduceAll ids).1.map .introduced) (d.introduceAll ids).2 := by
  induction ids generalizing tr d with
  | nil => simpa [Demux.introduceAll] using account
  | cons id ids ih =>
    have hfresh : id ∉ tr.made := fun hid =>
      (List.nodup_append.1 nodup).2.2 id hid id List.mem_cons_self rfl
    have first := account.introduce hfresh
    -- After the first handle the others are as new as they were.
    have rest := ih first (by rw [made_introduce]; simpa using nodup)
    rw [List.append_assoc] at rest
    exact rest

/-- Handles are dropped in turn. -/
private theorem drops (account : Account tr d) (nodup : tr.made.Nodup) {hs : List Handle}
    {es : HandleTrace} (given : ∀ h ∈ hs, Given tr.made h) (drops : Drops d hs es d') :
    Account (tr ++ es) d' := by
  -- Induction on the dropping; what the handle held is given too, so the rest can be dropped.
  induction drops generalizing tr with
  | nil d => rwa [List.append_nil]
  | again absent rest ih =>
    exact ih account nodup fun g hg => given g (List.mem_cons_of_mem _ hg)
  | @one d d' h hs es box found rest ih =>
    have hgiven := given h List.mem_cons_self
    have first := account.dropOne nodup hgiven ((d.held_iff h).2 ⟨box, found⟩)
    have rest := ih first (by rwa [made_dropped]) (by
      rw [made_dropped]
      exact account.fit.given_held found given)
    rw [List.append_assoc] at rest
    exact rest

end Account

/-- Introducing a list of ids adds a handle for each. -/
theorem made_introduceAll (tr : HandleTrace) (d : Demux) (ids : List StreamId) :
    HandleTrace.made (tr ++ (d.introduceAll ids).1.map .introduced) = tr.made ++ ids := by
  simp [ids_introduceAll]

/-- A step keeps the account. -/
private theorem Step.account {tr es : HandleTrace} {d d' : Demux} (account : Account tr d)
    (next : Step tr d es d') (nodup : (HandleTrace.made (tr ++ es)).Nodup) :
    Account (tr ++ es) d' := by
  cases next with
  | attach v =>
    obtain ⟨hslots, hd, -⟩ := d.attach_eq v
    rw [hslots] at nodup ⊢
    rw [made_introduceAll] at nodup
    rw [hd]
    exact account.introduceAll nodup
  | @hear id event accepted =>
    obtain ⟨-, hhandles, -⟩ := d.attachEvent_eq event
    rw [hhandles, ← List.append_assoc] at nodup ⊢
    rw [made_append, made_introduceAll] at nodup
    -- Handles for what is introduced are made before it is known who gets them.
    have introduced := account.introduceAll (List.nodup_append.1 nodup).1
    obtain ⟨key, ho⟩ := opened_of_accepted accepted
    obtain ⟨n, box, -, hn, hbox, heq⟩ := account.fit.observe_of_open event ho
    rw [heq]
    refine introduced.hear ho event hbox fun h hh => ?_
    rw [Inbox.held, List.flatMap_append, List.flatMap_singleton, List.mem_append, hn] at hh
    rcases hh with hh | hh
    · exact introduced.fit.unread key box hbox h hh
    · rw [made_introduceAll]
      exact (account.fit.introduceAll event.ids).2 h hh
  | @miss id event es rejected drops =>
    obtain ⟨-, hhandles, hd⟩ := d.attachEvent_eq event
    rw [hd, hhandles] at drops
    rw [hhandles, ← List.append_assoc] at nodup ⊢
    rw [made_append, made_introduceAll] at nodup
    have introduced := account.introduceAll (List.nodup_append.1 nodup).1
    -- Nobody takes the observation, so the handles that were made for it are dropped.
    have missed := introduced.miss (account.fit.shut_of_rejected rejected) event
    have hmade : HandleTrace.made ((tr ++ (d.introduceAll event.ids).1.map .introduced) ++
        [.told id event false]) = tr.made ++ event.ids := by
      simp [ids_introduceAll, HandleEvent.stream?]
    have dropped := missed.drops (by rw [hmade]; exact (List.nodup_append.1 nodup).1) (by
      rw [hmade]
      exact (account.fit.introduceAll event.ids).2) drops
    rwa [List.append_assoc] at dropped
  -- Reading moves notifications inside one inbox and tells of no event.
  | read given =>
    rw [List.append_nil]
    exact account.read _
  | drop given drops =>
    rw [made_append] at nodup
    exact account.drops (List.nodup_append.1 nodup).1 given drops
  | failAll f => exact account.failAll f
  | drain => exact account.drain

/-! ## Runs -/

section

variable {tr : HandleTrace} {d : Demux} (run : Run tr d) (nodup : tr.made.Nodup)

include run nodup

/-- Every run keeps the account. -/
theorem Run.account : Account tr d := by
  induction run with
  | refl => exact account_empty
  | step run next ih =>
    have nodup' := nodup
    rw [made_append] at nodup'
    exact next.account (ih (List.nodup_append.1 nodup').1) nodup

/-- What happens on a stream that is open, or is introduced just then, goes to the end of what its
    handle has not read, and nowhere else. -/
theorem Run.observe_open {id : StreamId} {event : Notification WireValue}
    (h : tr.Open id ∨ id ∈ event.ids) :
    (d.observe id event).1 = true ∧
      (d.observe id event).2.released = d.released ∧
      ∃ g n, g.id = id ∧
        (tr.OpenFor g ∨ id ∈ event.ids ∧ Given (tr.made ++ event.ids) g) ∧ n.onWire = event ∧
        n.handles = (d.introduceAll event.ids).1 ∧
        ∀ other, (d.observe id event).2.unreadOf other =
          if other.key = g.key then d.unreadOf other ++ [n] else d.unreadOf other := by
  have account := run.account nodup
  obtain ⟨hreleased, hopens⟩ := d.introduceAll_opens event.ids
  have hopen : (d.introduceAll event.ids).2.isOpen id = true :=
    (hopens id).2 (h.imp_left (account.isOpen_iff id).2)
  obtain ⟨key, ho⟩ := (Demux.isOpen_iff ..).1 hopen
  obtain ⟨n, hwire, hn, accepted, released, unread⟩ := account.fit.unreadOf_observe event ho
  refine ⟨accepted, released.trans hreleased, ⟨key, id⟩, n, rfl, ?_, hwire, hn, unread⟩
  -- The handle may be one that was made just now.
  by_cases hid : id ∈ event.ids
  · exact .inr ⟨hid, (account.fit.introduceAll event.ids).1.opened id key ho⟩
  · rw [(d.introduceAll_eq event.ids).2.2.2 id hid] at ho
    exact .inl ((account.fed ⟨key, id⟩).2 ho)

/-- What happens on another stream goes nowhere, and the streams that it introduces are closed. -/
theorem Run.observe_shut {id : StreamId} {event : Notification WireValue}
    (fresh : (tr.made ++ event.ids).Nodup) (h : ¬(tr.Open id ∨ id ∈ event.ids)) :
    (d.observe id event).1 = false ∧
      (d.observe id event).2.released = d.released ++ event.ids ∧
      (∀ other, (d.observe id event).2.isOpen other = d.isOpen other) ∧
      ∀ other, (d.observe id event).2.unreadOf other = d.unreadOf other := by
  have account := run.account nodup
  have hopens := (d.introduceAll_opens event.ids).2
  have hclosed : (d.introduceAll event.ids).2.opened[id]? = none := by
    refine Option.eq_none_iff_forall_ne_some.2 fun key ho => h ?_
    exact ((hopens id).1 ((Demux.isOpen_iff ..).2 ⟨key, ho⟩)).imp_left (account.isOpen_iff id).1
  rw [observe_of_shut hclosed]
  have hnodup := List.nodup_append.1 fresh
  refine ⟨rfl, d.released_dropAll_introduceAll hnodup.2.1,
    d.isOpen_dropAll_introduceAll hnodup.2.1 fun other hin => ?_,
    account.fit.unreadOf_dropAll_introduceAll event.ids⟩
  -- The streams that it introduces are new, so none of them was open before.
  refine Bool.eq_false_iff.2 fun ho => ?_
  obtain ⟨k, hk⟩ := (Demux.isOpen_iff ..).1 ho
  have hmade := List.mem_of_getElem? (account.fit.opened other k hk)
  exact hnodup.2.2 other hmade other hin rfl

end

/-- However handles are made, told of, read, dropped and failed, if every stream gets one handle:
    the open streams are those whose handle was made, was not dropped, and has not come to its end;
    what happens on a stream goes to the handle for which it is open, or to the handle that it makes
    for that stream itself, and if there is neither, the streams that it introduces are closed at
    once; a stream is put with those to be closed when its handle is dropped while it is open, and
    never again; a handle is dropped with those that it is unread in; and the streams that were taken
    to be closed are the first of those put there. -/
theorem streams_close_once {tr : HandleTrace} {d : Demux} (run : Run tr d)
    (nodup : tr.made.Nodup) :
    (∀ id, d.isOpen id = true ↔ tr.Open id) ∧
    (∀ id event, (tr.made ++ event.ids).Nodup →
      ((d.observe id event).1 = true ↔ tr.Open id ∨ id ∈ event.ids) ∧
      ((d.observe id event).1 = true → ∃ g n, g.id = id ∧
        (tr.OpenFor g ∨ id ∈ event.ids ∧ Given (tr.made ++ event.ids) g) ∧
        n.onWire = event ∧ ∀ other, (d.observe id event).2.unreadOf other =
          if other.key = g.key then d.unreadOf other ++ [n] else d.unreadOf other) ∧
      ((d.observe id event).1 = false →
        (d.observe id event).2.released = d.released ++ event.ids ∧
          ∀ other, (d.observe id event).2.unreadOf other = d.unreadOf other)) ∧
    (tr.queued.Nodup ∧ ∀ (pre : HandleTrace) h q post, tr = pre ++ .dropped h q :: post →
      (q = true ↔ pre.OpenFor h)) ∧
    (∀ hs es d', (∀ h ∈ hs, Given tr.made h) → Drops d hs es d' → ∀ h, Given tr.made h →
      ((∃ q, .dropped h q ∈ es) ↔ (∀ q, .dropped h q ∉ tr) ∧ Reaches d hs h)) ∧
    tr.drained ++ d.released = tr.queued := by
  have account := run.account nodup
  refine ⟨account.isOpen_iff, fun id event fresh => ?_, ⟨account.once, fun pre h q post htr => ?_⟩,
    fun hs es d' given drops h hh => ?_, account.queue⟩
  -- What happens on a stream is accepted or not, and the stream is open or not, at the same time.
  · by_cases hopen : tr.Open id ∨ id ∈ event.ids
    · obtain ⟨haccepted, -, g, n, hid, hg, hwire, -, hunread⟩ := run.observe_open nodup hopen
      exact ⟨iff_of_true haccepted hopen, fun _ => ⟨g, n, hid, hg, hwire, hunread⟩,
        fun hrejected => by rw [haccepted] at hrejected; cases hrejected⟩
    · obtain ⟨hrejected, hreleased, -, hunread⟩ := run.observe_shut nodup fresh hopen
      have hnot : ¬(d.observe id event).1 = true := by simp [hrejected]
      exact ⟨iff_of_false hnot hopen, fun haccepted => absurd haccepted hnot,
        fun _ => ⟨hreleased, hunread⟩⟩
  -- Whether dropping a handle asks for its stream to be closed.
  · exact account.right pre _ post htr
  -- Which handles are dropped with others.
  · rw [drops.dropped_iff account.fit given hh, account.held h hh]

/-- A notification that introduces the stream that it tells of goes to the handle that is made for
    it, although the stream was not open before. -/
theorem own_stream_accepted : ¬∀ (tr : HandleTrace) (d : Demux), Run tr d → tr.made.Nodup →
    ∀ id event, (tr.made ++ event.ids).Nodup →
      ((d.observe id event).1 = true ↔ d.isOpen id = true) := by
  intro h
  have hiff := h [] {} .refl List.nodup_nil ⟨5⟩ (.next (.stream ⟨5⟩))
    (by simp [HandleTrace.made, Notification.ids, Value.slots])
  have haccepted : (Demux.observe {} ⟨5⟩ (.next (.stream ⟨5⟩))).1 = true := by decide +kernel
  have hshut : Demux.isOpen {} ⟨5⟩ = false := by decide +kernel
  rw [hiff.1 haccepted] at hshut
  cases hshut

/-! Two streams are introduced, and one of them hands over a third, which nobody reads.  Dropping
the handle of that one closes both. -/

/-- A drop makes no handle and drains nothing. -/
theorem Drops.quiet {d d' : Demux} {hs : List Handle} {es : HandleTrace}
    (drops : Drops d hs es d') : es.made = [] ∧ es.drained = [] := by
  induction drops with
  | nil d => exact ⟨rfl, rfl⟩
  | again _ _ ih => exact ih
  | one _ _ ih => exact ih

namespace Unread

/-- Two streams have been introduced. -/
def two : Demux :=
  (Demux.attach {} (.list [.stream ⟨0⟩, .stream ⟨1⟩])).2

/-- The first has handed over a third. -/
def three : Demux :=
  (two.observe ⟨0⟩ (.next (.stream ⟨2⟩))).2

/-- The observation is accepted, and the drop queues both ids and leaves the other stream. -/
private theorem dropped_with_nested : (two.observe ⟨0⟩ (.next (.stream ⟨2⟩))).1 = true ∧
    (three.dropAll [⟨0, ⟨0⟩⟩]).released = [⟨0⟩, ⟨2⟩] ∧
      (three.dropAll [⟨0, ⟨0⟩⟩]).isOpen ⟨1⟩ = true := by decide +kernel

end Unread

/-- An id dropped with its handle's unread value is queued, and so is the id nested in that value.
-/
theorem streams_close_once_unread : ∃ tr d, Run tr d ∧ tr.made = [⟨0⟩, ⟨1⟩, ⟨2⟩] ∧
    tr.queued = [⟨0⟩, ⟨2⟩] ∧ tr.Open ⟨1⟩ := by
  obtain ⟨heard, released, opened⟩ := Unread.dropped_with_nested
  -- The run up to the drop; what it leaves is checked by evaluation.
  obtain ⟨tr, made, drained, told⟩ : ∃ tr, HandleTrace.made tr = [⟨0⟩, ⟨1⟩, ⟨2⟩] ∧
      tr.drained = [] ∧ Run tr Unread.three :=
    ⟨_, rfl, rfl, (Run.refl.step (.attach {} (.list [.stream ⟨0⟩, .stream ⟨1⟩]))).step (.hear heard)⟩
  obtain ⟨es, drops⟩ := Unread.three.drops [⟨0, ⟨0⟩⟩]
  obtain ⟨hmade, hdrained⟩ := drops.quiet
  -- The last step is the drop, whatever is told of it.
  have run := told.step (.drop (fun h hh => by
    obtain rfl := List.mem_singleton.1 hh
    rw [Given, made]
    rfl) drops)
  have made' : HandleTrace.made (tr ++ es) = [⟨0⟩, ⟨1⟩, ⟨2⟩] := by
    rw [made_append, made, hmade, List.append_nil]
  obtain ⟨open_iff, -, -, -, queue⟩ := streams_close_once run (by rw [made']; decide)
  rw [drained_append, drained, hdrained, List.nil_append, List.nil_append, released] at queue
  exact ⟨_, _, run, made', queue.symm, (open_iff ⟨1⟩).1 opened⟩

end Demux

end StreamRpc
