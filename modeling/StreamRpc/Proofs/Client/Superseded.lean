import Mathlib.Data.List.NodupEquivFin
import StreamRpc.Proofs.Client.Holdings

/-! # Handles of one stream

A server may introduce a stream that is open, or whose earlier handle is still there.  Then there
are several handles of one stream, of which the last that was made is the one that the stream is
open for.  Closing goes by the stream and not by the handle: dropping any of them closes the stream,
for whichever it was open.  The handles themselves stay apart, and so does what they have not read.

Here nothing is assumed of which streams are introduced.

* `HandleTrace.Registered`         a stream is open for this handle, as far as can be told
* `Demux.Run.follows`              and it is
* `Demux.drop_closes_by_stream`    what dropping handles closes, and what it leaves
-/

namespace StreamRpc

namespace HandleEvent

/-- Whether a stream is not open any more for the handle that it was open for before. -/
def Clears (id : StreamId) : HandleEvent → Prop
  | introduced h => h.id = id
  | told other event _ => other = id ∧ event.terminal = true
  | dropped h _ => h.id = id
  | failed => True
  | drained _ => False

/-- The handle that was dropped. -/
def dropped? : HandleEvent → Option Handle
  | dropped h _ => some h
  | _ => none

end HandleEvent

namespace HandleTrace

/-- The last handle of its stream, if nothing has closed the stream since. -/
def Registered (tr : HandleTrace) (h : Handle) : Prop :=
  ∃ pre since, tr = pre ++ .introduced h :: since ∧ ∀ x ∈ since, ¬x.Clears h.id

/-- The handles that were dropped, in order. -/
def dropped (tr : HandleTrace) : List Handle :=
  tr.filterMap HandleEvent.dropped?

/-- The streams of the handles that were dropped. -/
def closed (tr : HandleTrace) : List StreamId :=
  tr.dropped.map (·.id)

/-- A handle was dropped when the trace has its drop. -/
@[simp] theorem mem_dropped {tr : HandleTrace} {h : Handle} :
    h ∈ tr.dropped ↔ ∃ q, .dropped h q ∈ tr := by
  constructor
  · intro hh
    obtain ⟨x, hx, heq⟩ := List.mem_filterMap.1 hh
    -- Only a drop drops a handle.
    cases x with
    | dropped g q =>
      obtain rfl := Option.some.inj heq
      exact ⟨q, hx⟩
    | _ => cases heq
  · rintro ⟨q, hq⟩
    exact List.mem_filterMap.2 ⟨_, hq, rfl⟩

/-- The first event's queued id is the first. -/
private theorem queued_cons (x : HandleEvent) (tr : HandleTrace) :
    queued (x :: tr) = x.queued?.toList ++ tr.queued := by
  rw [← List.singleton_append, queued_append, queued_singleton]

/-- A stream is open for a handle if the handle was just made, or it was before and what happened
    did not close the stream. -/
private theorem registered_concat {tr : HandleTrace} {x : HandleEvent} {h : Handle} :
    Registered (tr ++ [x]) h ↔ x = .introduced h ∨ tr.Registered h ∧ ¬x.Clears h.id :=
  since_concat

/-- A handle stays registered while nothing clears its id. -/
private theorem Registered.append {tr more : HandleTrace} {h : Handle}
    (registered : tr.Registered h)
    (stays : ∀ x ∈ more, ¬x.Clears h.id) : Registered (tr ++ more) h := by
  obtain ⟨pre, since, rfl, hno⟩ := registered
  refine ⟨pre, since ++ more, by simp, fun x hx => ?_⟩
  rcases List.mem_append.1 hx with hx | hx
  · exact hno x hx
  · exact stays x hx

/-- Without a new handle, a stream stays closed. -/
private theorem registered_of_append {tr more : HandleTrace} {h : Handle}
    (registered : Registered (tr ++ more) h) (unmade : ∀ x ∈ more, x.stream? ≠ some h.id) :
    tr.Registered h := by
  induction more using List.reverseRecOn with
  | nil => rwa [List.append_nil] at registered
  | append_singleton more x ih =>
    rw [← List.append_assoc, registered_concat] at registered
    rcases registered with rfl | ⟨registered, -⟩
    · exact absurd rfl (unmade (.introduced h) (by simp))
    · exact ih registered fun y hy => unmade y (List.mem_append_left _ hy)

end HandleTrace

namespace Demux

open HandleTrace (made_append made_introduced queued_cons registered_concat)

variable {tr es : HandleTrace} {d d' : Demux} {hs : List Handle}

/-! ## What dropping does, whatever the streams are -/

/-- Dropping closes the streams of the handles that are dropped, and leaves the others. -/
private theorem Drops.opened (drops : Drops d hs es d') (id : StreamId) (k : Nat) :
    d'.opened[id]? = some k ↔ d.opened[id]? = some k ∧ id ∉ es.closed := by
  induction drops with
  | nil d => simp [HandleTrace.closed, HandleTrace.dropped]
  | again absent rest ih => exact ih
  | @one d d' h hs es box found rest ih =>
    rw [ih, opened_dropOne, and_assoc]
    simp [HandleTrace.closed, HandleTrace.dropped, HandleEvent.dropped?]

/-- The streams that were open are put with those to be closed. -/
theorem Drops.released (drops : Drops d hs es d') : d'.released = d.released ++ es.queued := by
  induction drops with
  | nil d => simp [HandleTrace.queued]
  | again absent rest ih => exact ih
  | @one d d' h hs es box found rest ih =>
    rw [ih, released_dropOne, queued_cons]
    cases d.isOpen h.id with
    | false => rfl
    | true => exact List.append_assoc ..

/-- Each of them is put there once. -/
private theorem Drops.queued (drops : Drops d hs es d') :
    es.queued.Nodup ∧ ∀ id, id ∈ es.queued ↔ d.isOpen id = true ∧ id ∈ es.closed := by
  induction drops with
  | nil d => simp [HandleTrace.queued, HandleTrace.closed, HandleTrace.dropped]
  | again absent rest ih => exact ih
  | @one d d' h hs es box found rest ih =>
    obtain ⟨once, mem⟩ := ih
    have closed : HandleTrace.closed (.dropped h (d.isOpen h.id) :: es) = h.id :: es.closed := rfl
    -- The stream of the first handle is closed when the others are dropped.
    have hnot : h.id ∉ es.queued := by
      rw [mem, isOpen_dropOne]
      simp
    rw [closed]
    -- The id of the first handle is queued if its stream is open, whoever that is open for.
    cases hopen : d.isOpen h.id with
    | false =>
      refine ⟨once, fun id => (mem id).trans ?_⟩
      rw [isOpen_dropOne]
      by_cases hid : id = h.id
      · simp [hid, hopen]
      · simp [hid]
    | true =>
      refine ⟨List.nodup_cons.2 ⟨hnot, once⟩, fun id => ?_⟩
      show id ∈ h.id :: es.queued ↔ _
      rw [List.mem_cons, mem, isOpen_dropOne]
      by_cases hid : id = h.id
      · simp [hid, hopen]
      · simp [hid]

/-- Other handles keep what they have not read. -/
private theorem Drops.inboxes (drops : Drops d hs es d') {k : Nat}
    (other : ∀ h ∈ es.dropped, h.key ≠ k) :
    d'.inboxes[k]? = d.inboxes[k]? := by
  induction drops with
  | nil d => rfl
  | again absent rest ih => exact ih other
  | @one d d' h hs es box found rest ih =>
    have first : h.key ≠ k := other h List.mem_cons_self
    rw [ih fun g hg => other g (List.mem_cons_of_mem _ hg), inboxes_dropOne, if_neg first.symm]

/-! ## Which handle a stream is open for -/

/-- A stream is open for the handle that the trace says. -/
def Follows (tr : HandleTrace) (d : Demux) : Prop :=
  ∀ h : Handle, tr.Registered h ↔ d.opened[h.id]? = some h.key

/-- The empty demultiplexer follows the empty trace. -/
private theorem follows_empty : Follows [] {} := by
  intro h
  simp [HandleTrace.Registered]

/-- An event that makes no handle. -/
private theorem Follows.concat {x : HandleEvent} (follows : Follows tr d) (makes : x.stream? = none)
    (opened : ∀ h : Handle, d'.opened[h.id]? = some h.key ↔
      d.opened[h.id]? = some h.key ∧ ¬x.Clears h.id) : Follows (tr ++ [x]) d' := by
  intro h
  rw [registered_concat, opened, follows h]
  refine or_iff_right ?_
  rintro rfl
  cases makes

/-- An introduction registers its handle. -/
private theorem Follows.introduce (follows : Follows tr d) (id : StreamId) :
    Follows (tr ++ [.introduced (d.introduce id).1]) (d.introduce id).2 := by
  intro h
  rw [registered_concat, opened_introduce, follows h, HandleEvent.introduced.injEq]
  have clears : HandleEvent.Clears h.id (.introduced (d.introduce id).1) ↔ id = h.id := Iff.rfl
  rw [clears, eq_comm (a := id)]

/-- Introductions register their handles. -/
private theorem Follows.introduceAll (follows : Follows tr d) (ids : List StreamId) :
    Follows (tr ++ (d.introduceAll ids).1.map .introduced) (d.introduceAll ids).2 := by
  induction ids generalizing tr d with
  | nil => simpa [Demux.introduceAll] using follows
  | cons id ids ih =>
    have rest := ih (follows.introduce id)
    rw [List.append_assoc] at rest
    exact rest

/-- A drop clears the ids of the handles dropped. -/
private theorem Follows.drops (follows : Follows tr d) (drops : Drops d hs es d') :
    Follows (tr ++ es) d' := by
  induction drops generalizing tr with
  | nil d => rwa [List.append_nil]
  | again absent rest ih => exact ih follows
  | @one d d' h hs es box found rest ih =>
    have first : Follows (tr ++ [.dropped h (d.isOpen h.id)]) (d.dropOne h) := by
      refine follows.concat rfl fun g => ?_
      -- Each handle dropped clears its own stream, whoever the stream is registered for.
      rw [opened_dropOne]
      exact and_congr_right fun _ => not_congr eq_comm
    have rest := ih first
    rw [List.append_assoc] at rest
    exact rest

/-- What is told of a stream closes it if it is the end. -/
private theorem Follows.told (follows : Follows tr d) {id : StreamId}
    {event : Notification WireValue}
    {accepted : Bool}
    (opened : d'.opened = if event.terminal then d.opened.erase id else d.opened) :
    Follows (tr ++ [.told id event accepted]) d' := by
  refine follows.concat rfl fun h => ?_
  have clears : HandleEvent.Clears h.id (.told id event accepted) ↔
      id = h.id ∧ event.terminal = true := Iff.rfl
  rw [opened, clears]
  cases event.terminal with
  | false => simp
  | true =>
    rw [if_pos rfl, getElem?_erase_opened]
    -- An end clears its own stream, whichever handle it belongs to.
    by_cases hid : h.id = id
    · simp [hid]
    · simp [hid, Ne.symm hid]

/-- What is told of a stream that is not open closes nothing. -/
private theorem Follows.missed (follows : Follows tr d) {id : StreamId}
    (event : Notification WireValue)
    (shut : d.opened[id]? = none) : Follows (tr ++ [.told id event false]) d := by
  refine follows.concat rfl fun h => (and_iff_left_of_imp ?_).symm
  rintro hopen ⟨rfl, -⟩
  rw [shut] at hopen
  cases hopen

/-- A step keeps the inboxes in line with the handles made. -/
private theorem Step.fit (fit : Fit tr.made d) (next : Step tr d es d') :
    Fit (HandleTrace.made (tr ++ es)) d' := by
  rw [made_append]
  cases next with
  | attach v =>
    obtain ⟨hslots, hd, -⟩ := d.attach_eq v
    rw [hslots, hd, made_introduced, ids_introduceAll]
    exact (fit.introduceAll v.slots).1
  -- Observed and missed alike, the handles in the event are made.
  | @hear id event accepted =>
    rw [made_told d event rfl]
    exact fit.observe id event
  | @miss id event es rejected drops =>
    have quiet : HandleTrace.made (.told id event false :: es) = [] := drops.quiet.1
    rw [made_told d event quiet]
    exact fit.observe id event
  -- Nothing is introduced by what is left, so the list stays as it is.
  | read given => simpa [HandleTrace.made] using fit.read _
  | drop given drops =>
    rw [drops.quiet.1, List.append_nil]
    exact (fit.of_dropAll given).1
  | failAll f =>
    rw [show HandleTrace.made [.failed] = [] from rfl, List.append_nil]
    exact fit.failAll f
  | drain =>
    rw [show HandleTrace.made [.drained d.takeReleased.1] = [] from rfl, List.append_nil]
    exact fit.takeReleased

/-- A step keeps the registrations in line with the trace. -/
private theorem Step.follows (fit : Fit tr.made d) (follows : Follows tr d)
    (next : Step tr d es d') :
    Follows (tr ++ es) d' := by
  cases next with
  | attach v =>
    obtain ⟨hslots, hd, -⟩ := d.attach_eq v
    rw [hslots, hd]
    exact follows.introduceAll v.slots
  | @hear id event accepted =>
    have introduced := follows.introduceAll event.ids
    rw [(d.attachEvent_eq event).2.1, ← List.append_assoc]
    obtain ⟨key, ho⟩ := opened_of_accepted accepted
    obtain ⟨n, box, -, -, -, heq⟩ := fit.observe_of_open event ho
    -- The stream was open when its handles had been made, and it is told to its handle.
    exact introduced.told (by rw [heq])
  -- An observation nobody takes has made its handles first, and they are dropped after it.
  | @miss id event es rejected drops =>
    have introduced := follows.introduceAll event.ids
    obtain ⟨-, hhandles, hd⟩ := d.attachEvent_eq event
    rw [hd, hhandles] at drops
    rw [hhandles, ← List.append_assoc, ← List.singleton_append, ← List.append_assoc]
    exact (introduced.missed event (fit.shut_of_rejected rejected)).drops drops
  | @read h given =>
    rw [List.append_nil]
    intro g
    rw [(d.read_opens h).1]
    exact follows g
  | drop given drops => exact follows.drops drops
  | failAll f =>
    refine follows.concat rfl fun h => ?_
    rw [(fit.failAll_eq f).2.1]
    simp [HandleEvent.Clears]
  | drain => exact follows.concat rfl fun h => by simp [takeReleased, HandleEvent.Clears]

/-- In every run, handles belong to their streams, and streams are open for the handles that the
    trace says. -/
theorem Run.follows (run : Run tr d) : Fit tr.made d ∧ Follows tr d := by
  induction run with
  | refl => exact ⟨fit_empty, follows_empty⟩
  | step run next ih => exact ⟨next.fit ih.1, next.follows ih.1 ih.2⟩

/-! ## What is heard later -/

/-- A handle gets what happens on its stream as long as the stream is open for it. -/
private theorem Run.heard (run : Run tr d) {h : Handle} (registered : tr.Registered h)
    {event : Notification WireValue} (plain : h.id ∉ event.ids) :
    (d.observe h.id event).1 = true ∧ ∃ n, n.onWire = event ∧
      (d.observe h.id event).2.unreadOf h = d.unreadOf h ++ [n] := by
  obtain ⟨fit, follows⟩ := run.follows
  have ho : (d.introduceAll event.ids).2.opened[h.id]? = some h.key := by
    rw [(d.introduceAll_eq event.ids).2.2.2 h.id plain]
    exact (follows h).1 registered
  obtain ⟨n, hwire, -, accepted, -, unread⟩ := fit.unreadOf_observe event ho
  exact ⟨accepted, n, hwire, by rw [unread, if_pos rfl]⟩

/-- Nobody gets what happens on a stream that is open for no handle. -/
private theorem Run.unheard (run : Run tr d) {id : StreamId} (closed : ∀ h : Handle, h.id = id →
    ¬tr.Registered h) {event : Notification WireValue} (plain : id ∉ event.ids) :
    (d.observe id event).1 = false := by
  obtain ⟨-, follows⟩ := run.follows
  rw [observe_of_shut]
  rw [(d.introduceAll_eq event.ids).2.2.2 id plain]
  refine Option.eq_none_iff_forall_ne_some.2 fun k hk => ?_
  exact closed ⟨k, id⟩ rfl ((follows ⟨k, id⟩).2 hk)

/-- A stream that was introduced once has one handle. -/
private theorem Given.eq_of_once {made : List StreamId} {g h : Handle} (hg : Given made g)
    (hh : Given made h) (once : made.count h.id = 1) (id : g.id = h.id) : g = h := by
  refine hg.eq_of_key hh ?_
  by_contra hne
  obtain ⟨gbound, hgid⟩ := List.getElem?_eq_some_iff.1 hg
  obtain ⟨hbound, hhid⟩ := List.getElem?_eq_some_iff.1 hh
  -- Two handles of one id would have it twice among the ids made.
  have twice : List.Duplicate h.id made := by
    rw [List.duplicate_iff_exists_distinct_get]
    rcases Nat.lt_or_gt_of_ne hne with hlt | hlt
    · exact ⟨⟨g.key, gbound⟩, ⟨h.key, hbound⟩, hlt, (hgid.trans id).symm, hhid.symm⟩
    · exact ⟨⟨h.key, hbound⟩, ⟨g.key, gbound⟩, hlt, hhid.symm, (hgid.trans id).symm⟩
  have := List.duplicate_iff_two_le_count.1 twice
  omega

/-! ## All together -/

/-- However often streams are introduced: dropping handles drops those that are reached from them
    and are still there, and closes the streams of these, for whichever handle a stream was open.
    Each stream that was open is put once with those to be closed.  Other streams stay open for
    their handles, and other handles keep what they have not read.  If a stream was introduced once,
    what is closed was open for the handle that is dropped.

    Later, a stream that was not closed goes on to its handle, until something else closes it or it
    is introduced again; and nobody gets what happens on a stream that was closed, until it is. -/
theorem drop_closes_by_stream (run : Run tr d) (given : ∀ h ∈ hs, Given tr.made h)
    (drops : Drops d hs es d') :
    (∀ h, Given tr.made h → (h ∈ es.dropped ↔ d.held h = true ∧ Reaches d hs h)) ∧
    (∀ h, (d.opened[h.id]? = some h.key ↔ tr.Registered h) ∧
      (d'.opened[h.id]? = some h.key ↔ tr.Registered h ∧ h.id ∉ es.closed)) ∧
    (d'.released = d.released ++ es.queued ∧ es.queued.Nodup ∧
      ∀ id, id ∈ es.queued ↔ d.isOpen id = true ∧ id ∈ es.closed) ∧
    (∀ k, (∀ h ∈ es.dropped, h.key ≠ k) → d'.inboxes[k]? = d.inboxes[k]?) ∧
    (∀ g h, tr.Registered g → Given tr.made h → tr.made.count h.id = 1 → g.id = h.id → g = h) ∧
    ∀ later d'', Run (tr ++ es ++ later) d'' → ∀ h, tr.Registered h →
      ∀ event, h.id ∉ Notification.ids event →
        (h.id ∉ es.closed → (∀ x ∈ later, ¬x.Clears h.id) →
          (d''.observe h.id event).1 = true ∧ ∃ n, n.onWire = event ∧
            (d''.observe h.id event).2.unreadOf h = d''.unreadOf h ++ [n]) ∧
        (h.id ∈ es.closed → (∀ x ∈ later, x.stream? ≠ some h.id) →
          (d''.observe h.id event).1 = false) := by
  obtain ⟨fit, follows⟩ := run.follows
  -- What is registered after the drops is read off the trace, like what was before.
  have left : Follows (tr ++ es) d' := follows.drops drops
  have opened : ∀ h : Handle, d'.opened[h.id]? = some h.key ↔ tr.Registered h ∧ h.id ∉ es.closed :=
    fun h => (drops.opened h.id h.key).trans (and_congr_left fun _ => (follows h).symm)
  refine ⟨fun h hh => HandleTrace.mem_dropped.trans (drops.dropped_iff fit given hh),
    fun h => ⟨(follows h).symm, opened h⟩, ⟨drops.released, drops.queued⟩,
    fun k other => drops.inboxes other, fun g h registered hh once id => ?_,
    fun later d'' run' h registered event plain => ⟨fun kept stays => ?_, fun gone unmade => ?_⟩⟩
  · have hg : Given tr.made g := fit.opened _ _ ((follows g).1 registered)
    exact hg.eq_of_once hh once id
  -- Later observations see the stream as it was left: open and fed to the handle, or closed.
  · apply run'.heard _ plain
    exact ((left h).2 ((opened h).2 ⟨registered, kept⟩)).append stays
  · apply run'.unheard _ plain
    intro g hg still
    have before := HandleTrace.registered_of_append still (by rwa [hg])
    exact ((opened g).1 ((left g).1 before)).2 (hg ▸ gone)

namespace Twice

/-- The first handle of stream 5, … -/
def older : Handle := ⟨0, ⟨5⟩⟩
/-- … the second, … -/
def newer : Handle := ⟨1, ⟨5⟩⟩
/-- … and the handle of another stream. -/
def other : Handle := ⟨2, ⟨6⟩⟩

/-- Stream 5 has been introduced twice. -/
def both : Demux :=
  (Demux.attach {} (.list [.stream ⟨5⟩, .stream ⟨5⟩, .stream ⟨6⟩])).2

def trace : HandleTrace :=
  [.introduced older, .introduced newer, .introduced other]

/-- The two handles of one id come from a run. -/
private theorem run : Run trace both :=
  Run.refl.step (.attach {} (.list [.stream ⟨5⟩, .stream ⟨5⟩, .stream ⟨6⟩]))

/-- The older handle was made. -/
private theorem given : ∀ h ∈ [older], Given trace.made h := by
  intro h hh
  obtain rfl := List.mem_singleton.1 hh
  rfl

/-- Dropping the older handle closes the stream that is open for the newer one. -/
private theorem older_takes_newer : both.opened[newer.id]? = some newer.key ∧
    both.opened[other.id]? = some other.key ∧ both.held older = true ∧
    (both.drop older).opened[newer.id]? = none ∧ (both.drop older).released = [⟨5⟩] := by
  decide +kernel

end Twice

open Twice in
/-- The older handle closes the stream for the newer one, and leaves the other stream. -/
theorem drop_closes_by_stream_twice : ∃ es, Drops both [older] es (both.drop older) ∧
    trace.Registered newer ∧ newer.id ∈ es.closed ∧ es.queued = [⟨5⟩] ∧
      (both.drop older).opened[other.id]? = some other.key := by
  obtain ⟨es, drops⟩ := both.drops [older]
  obtain ⟨dropped, opened, ⟨released, -, queued⟩, -⟩ := drop_closes_by_stream run given drops
  obtain ⟨open5, open6, held, -, five⟩ := older_takes_newer
  have queue : es.queued = [⟨5⟩] := released.symm.trans five
  have closed : newer.id ∈ es.closed := ((queued ⟨5⟩).1 (by simp [queue])).2
  refine ⟨es, drops, (opened newer).1.1 open5, closed, queue, (opened other).2.2 ⟨?_, ?_⟩⟩
  · exact (opened other).1.1 open6
  -- The other stream was not queued, so it was not closed.
  · intro gone
    have := (queued other.id).2 ⟨(both.isOpen_iff other.id).2 ⟨_, open6⟩, gone⟩
    rw [queue] at this
    exact absurd this (by decide)

open Twice in
/-- It is not so that a handle closes a stream only if the stream is open for it. -/
theorem older_handle_closes : ¬∀ (tr : HandleTrace) (d : Demux) (g h : Handle), Run tr d →
    Given tr.made h → d.held h = true → tr.Registered g → g ≠ h →
      (d.drop h).opened[g.id]? = some g.key ∧ g.id ∉ (d.drop h).released := by
  intro only
  obtain ⟨open5, -, held, -, released⟩ := older_takes_newer
  have registered : trace.Registered newer := (run.follows.2 newer).2 open5
  have kept := (only trace both newer older run (given older List.mem_cons_self) held registered
    (by decide)).2
  rw [released] at kept
  exact kept List.mem_cons_self

end Demux

end StreamRpc
