import StreamRpc.Proofs.Client.Effects
import StreamRpc.Proofs.Lists

/-! # Runs of the handles of a session

What happens to handles is told in events: that one was made for a stream, that one was dropped and
whether its stream was put with those to be closed, that something was told of a stream and whether
a handle got it, that all streams failed, and that the streams to be closed were taken.

Dropping handles goes through what they have not read, and through the handles in it.

* `Demux.Drops`       handles are dropped in turn, with what can be told of it
* `Demux.Reaches`     the handles that are dropped with others
* `Demux.Run`         any operations in any order
-/

namespace StreamRpc

/-- What happens to the handles of a session. -/
inductive HandleEvent where
  | introduced (h : Handle)
  /-- Something was told of a stream, and a handle got it or not. -/
  | told (id : StreamId) (event : Notification WireValue) (accepted : Bool)
  /-- A handle was dropped, and its stream was put with those to be closed or not. -/
  | dropped (h : Handle) (queued : Bool)
  | failed
  /-- The streams to be closed were taken. -/
  | drained (ids : List StreamId)

/-- What a run can tell, the oldest first. -/
abbrev HandleTrace := List HandleEvent

namespace HandleEvent

/-- The stream that a handle was made for. -/
def stream? : HandleEvent → Option StreamId
  | introduced h => some h.id
  | _ => none

/-- The stream that was put with those to be closed. -/
def queued? : HandleEvent → Option StreamId
  | dropped h true => some h.id
  | _ => none

/-- The streams to be closed that were taken. -/
def batch : HandleEvent → List StreamId
  | drained ids => ids
  | _ => []

/-- Whether nothing comes for a handle after this. -/
def Ends (h : Handle) : HandleEvent → Prop
  | told id event _ => id = h.id ∧ event.terminal = true
  | dropped g _ => g = h
  | failed => True
  | _ => False

end HandleEvent

namespace HandleTrace

/-- The streams that handles were made for, in order. -/
def made (tr : HandleTrace) : List StreamId :=
  tr.filterMap HandleEvent.stream?

/-- The streams that were put with those to be closed, in order. -/
def queued (tr : HandleTrace) : List StreamId :=
  tr.filterMap HandleEvent.queued?

/-- The streams to be closed that were taken, in order. -/
def drained (tr : HandleTrace) : List StreamId :=
  tr.flatMap HandleEvent.batch

/-- A handle was made, and nothing has ended what comes for it. -/
def OpenFor (tr : HandleTrace) (h : Handle) : Prop :=
  ∃ pre since, tr = pre ++ .introduced h :: since ∧ ∀ x ∈ since, ¬x.Ends h

/-- A stream has a handle for which something may still come. -/
def Open (tr : HandleTrace) (id : StreamId) : Prop :=
  ∃ h : Handle, h.id = id ∧ tr.OpenFor h

/-- Handles made are read off a trace piece by piece. -/
@[simp] theorem made_append (tr tr' : HandleTrace) : made (tr ++ tr') = made tr ++ made tr' :=
  List.filterMap_append

/-- Ids queued are read off a trace piece by piece. -/
@[simp] theorem queued_append (tr tr' : HandleTrace) :
    queued (tr ++ tr') = queued tr ++ queued tr' :=
  List.filterMap_append

/-- Ids drained are read off a trace piece by piece. -/
@[simp] theorem drained_append (tr tr' : HandleTrace) :
    drained (tr ++ tr') = drained tr ++ drained tr' :=
  List.flatMap_append

/-- The handle one event makes. -/
@[simp] theorem made_singleton (x : HandleEvent) : made [x] = x.stream?.toList := by
  cases h : x.stream? <;> simp [made, h]

/-- The id one event queues. -/
@[simp] theorem queued_singleton (x : HandleEvent) : queued [x] = x.queued?.toList := by
  cases h : x.queued? <;> simp [queued, h]

/-- The batch one event drains. -/
@[simp] theorem drained_singleton (x : HandleEvent) : drained [x] = x.batch := by
  simp [drained]

/-- Introductions make the handles they name. -/
@[simp] theorem made_introduced (hs : List Handle) :
    made (hs.map .introduced) = hs.map (·.id) := by
  simp [made, List.filterMap_map, Function.comp_def, HandleEvent.stream?]

/-- A handle is open if it was just made, or it was open and what happened did not end it. -/
theorem openFor_concat {tr : HandleTrace} {x : HandleEvent} {h : Handle} :
    OpenFor (tr ++ [x]) h ↔ x = .introduced h ∨ tr.OpenFor h ∧ ¬x.Ends h :=
  since_concat

end HandleTrace

/-- What an event says about what was told before it. -/
def HandleEvent.Right (before : HandleTrace) : HandleEvent → Prop
  | dropped h queued => queued = true ↔ before.OpenFor h
  | told id _ accepted => accepted = true ↔ before.Open id
  | _ => True

namespace Demux

open HandleTrace (made_append)

/-! ## Dropping -/

/-- Handles are dropped in turn: this is told of it, and this is left. -/
inductive Drops : Demux → List Handle → HandleTrace → Demux → Prop where
  | nil (d : Demux) : Drops d [] [] d
  /-- The handle was dropped before. -/
  | again {d d' : Demux} {h : Handle} {hs : List Handle} {es : HandleTrace}
      (absent : d.inboxes[h.key]? = none) (rest : Drops d hs es d') : Drops d (h :: hs) es d'
  /-- What the handle has not read is dropped next. -/
  | one {d d' : Demux} {h : Handle} {hs : List Handle} {es : HandleTrace} {box : Inbox}
      (found : d.inboxes[h.key]? = some box) (rest : Drops (d.dropOne h) (box.held ++ hs) es d') :
      Drops d (h :: hs) (.dropped h (d.isOpen h.id) :: es) d'

/-- Handles can always be dropped. -/
theorem drops (d : Demux) (hs : List Handle) : ∃ es, Drops d hs es (d.dropAll hs) := by
  induction d, hs using dropAll_induct with
  | nil d => exact ⟨[], by rw [dropAll]; exact .nil d⟩
  | absent d g hs hg ih =>
    rw [dropAll_of_absent hg]
    exact ih.imp fun _ rest => .again hg rest
  | found d g hs box hg ih =>
    rw [dropAll_of_found hg]
    obtain ⟨es, rest⟩ := ih
    exact ⟨_, .one hg rest⟩

/-- A handle is dropped with others if it is one of them or was not read by one that is. -/
inductive Reaches (d : Demux) (hs : List Handle) : Handle → Prop where
  | here {h : Handle} (hh : h ∈ hs) : Reaches d hs h
  | unread {g h : Handle} {box : Inbox} (reaches : Reaches d hs g)
      (found : d.inboxes[g.key]? = some box) (hh : h ∈ box.held) : Reaches d hs h

/-- What is reached when one handle is dropped is reached from it or through what it left. -/
private theorem Reaches.of_dropOne {d : Demux} {g h : Handle} {hs : List Handle} {box : Inbox}
    (found : d.inboxes[g.key]? = some box)
    (reaches : Reaches (d.dropOne g) (box.held ++ hs) h) : Reaches d (g :: hs) h := by
  induction reaches with
  | here hh =>
    rcases List.mem_append.1 hh with hh | hh
    · exact .unread (.here List.mem_cons_self) found hh
    · exact .here (List.mem_cons_of_mem _ hh)
  | unread _ hbox hh ih =>
    -- The inbox of the dropped handle is gone; every other way is still there.
    rw [inboxes_dropOne] at hbox
    split at hbox
    · cases hbox
    · exact .unread ih hbox hh

/-- Past a dropped handle the walk goes on through its inbox. -/
private theorem Reaches.dropOne {d : Demux} {g h : Handle} {hs : List Handle} {box : Inbox}
    (found : d.inboxes[g.key]? = some box) (reaches : Reaches d (g :: hs) h)
    (other : h.key ≠ g.key) : Reaches (d.dropOne g) (box.held ++ hs) h := by
  induction reaches with
  | here hh =>
    refine .here (List.mem_append_right _ ((List.mem_cons.1 hh).resolve_left ?_))
    rintro rfl
    exact other rfl
  | @unread p h box' _ hbox hh ih =>
    -- What the first handle left is dropped next; the others still have what they had.
    by_cases hp : p.key = g.key
    · rw [hp, found] at hbox
      obtain rfl := Option.some.inj hbox
      exact .here (List.mem_append_left _ hh)
    · refine .unread (ih hp) ?_ hh
      rw [inboxes_dropOne, if_neg hp, hbox]

/-- A handle without an inbox leads nowhere. -/
private theorem Reaches.of_absent {d : Demux} {g h : Handle} {hs : List Handle}
    (absent : d.inboxes[g.key]? = none) (reaches : Reaches d (g :: hs) h)
    (held : d.held h = true) : Reaches d hs h := by
  induction reaches with
  | here hh =>
    refine .here ((List.mem_cons.1 hh).resolve_left ?_)
    -- A handle without an inbox leads nowhere, and it is not held itself.
    rintro rfl
    obtain ⟨box, hbox⟩ := (d.held_iff _).1 held
    rw [absent] at hbox
    cases hbox
  | unread _ hbox hh ih => exact .unread (ih ((d.held_iff _).2 ⟨_, hbox⟩)) hbox hh

/-- More handles to start from reach no fewer. -/
theorem Reaches.mono {d : Demux} {h : Handle} {hs hs' : List Handle} (sub : ∀ g ∈ hs, g ∈ hs')
    (reaches : Reaches d hs h) : Reaches d hs' h := by
  induction reaches with
  | here hh => exact .here (sub _ hh)
  | unread _ hbox hh ih => exact .unread ih hbox hh

/-- Nothing is reached from nowhere. -/
private theorem not_reaches_nil (d : Demux) (h : Handle) : ¬Reaches d [] h := by
  intro reaches
  induction reaches with
  | here hh => cases hh
  | unread _ _ _ ih => exact ih

/-- A handle is known by its key. -/
theorem Given.eq_of_key {made : List StreamId} {g h : Handle} (hg : Given made g)
    (hh : Given made h) (key : g.key = h.key) : g = h := by
  have hid : some g.id = some h.id := by rw [← hg, ← hh, key]
  cases g
  cases h
  simp_all

/-- If every stream gets one handle, a handle is known by its stream. -/
theorem Given.eq_of_id {made : List StreamId} (once : made.Nodup) {g h : Handle}
    (hg : Given made g) (hh : Given made h) (id : g.id = h.id) : g = h := by
  have hlt := (List.getElem?_eq_some_iff.1 hg).1
  exact hg.eq_of_key hh ((List.getElem?_inj hlt once).1 (by rw [hg, hh, id]))

/-- Dropping handles drops just those that are reached and have not been dropped before. -/
theorem Drops.dropped_iff {made : List StreamId} {d d' : Demux} {hs : List Handle}
    {es : HandleTrace} (fit : Fit made d) (given : ∀ h ∈ hs, Given made h)
    (drops : Drops d hs es d') {h : Handle} (hh : Given made h) :
    (∃ q, .dropped h q ∈ es) ↔ d.held h = true ∧ Reaches d hs h := by
  induction drops with
  | nil d => exact ⟨by simp, fun ⟨_, reaches⟩ => absurd reaches (not_reaches_nil d h)⟩
  | @again d d' g hs es absent rest ih =>
    rw [ih fit fun g hg => given g (List.mem_cons_of_mem _ hg)]
    exact and_congr_right fun held =>
      ⟨.mono fun _ => List.mem_cons_of_mem g, fun reaches => reaches.of_absent absent held⟩
  | @one d d' g hs es box found rest ih =>
    have hgiven := given g List.mem_cons_self
    have ih := ih (fit.dropOne hgiven) (fit.given_held found given)
    -- A handle is dropped first, or later and then it is another one.
    constructor
    · rintro ⟨q, hq⟩
      rcases List.mem_cons.1 hq with heq | hq
      · obtain ⟨rfl, -⟩ := HandleEvent.dropped.injEq .. ▸ heq
        exact ⟨(d.held_iff h).2 ⟨box, found⟩, .here List.mem_cons_self⟩
      · obtain ⟨held, reaches⟩ := ih.1 ⟨q, hq⟩
        exact ⟨((d.held_dropOne g h).1 held).1, reaches.of_dropOne found⟩
    · rintro ⟨held, reaches⟩
      -- The handle is the first one, or it is still there and reached when that one is gone.
      by_cases hkey : h.key = g.key
      · obtain rfl := hh.eq_of_key hgiven hkey
        exact ⟨_, List.mem_cons_self⟩
      · obtain ⟨q, hq⟩ := ih.2 ⟨(d.held_dropOne g h).2 ⟨held, hkey⟩, reaches.dropOne found hkey⟩
        exact ⟨q, List.mem_cons_of_mem _ hq⟩

/-! ## Runs -/

/-- One operation on the handles of a session after what has been told so far.  Only handles that
    were made can be read and dropped. -/
inductive Step (tr : HandleTrace) : Demux → HandleTrace → Demux → Prop where
  | attach (d : Demux) (v : WireValue) :
      Step tr d ((d.attach v).1.slots.map .introduced) (d.attach v).2
  /-- A handle gets what happens on a stream. -/
  | hear {d : Demux} {id : StreamId} {event : Notification WireValue}
      (accepted : (d.observe id event).1 = true) :
      Step tr d
        ((d.attachEvent event).1.handles.map .introduced ++ [.told id event true])
        (d.observe id event).2
  /-- No handle gets it, and the handles in it are dropped. -/
  | miss {d : Demux} {id : StreamId} {event : Notification WireValue} {es : HandleTrace}
      (rejected : (d.observe id event).1 = false)
      (drops : Drops (d.attachEvent event).2 (d.attachEvent event).1.handles es
        (d.observe id event).2) :
      Step tr d
        ((d.attachEvent event).1.handles.map .introduced ++ .told id event false :: es)
        (d.observe id event).2
  | read (d : Demux) {h : Handle} (given : Given tr.made h) : Step tr d [] (d.read h).2
  | drop {d : Demux} {hs : List Handle} {es : HandleTrace} (given : ∀ h ∈ hs, Given tr.made h)
      (drops : Drops d hs es (d.dropAll hs)) : Step tr d es (d.dropAll hs)
  | failAll (d : Demux) (f : Failure) : Step tr d [.failed] (d.failAll f)
  | drain (d : Demux) : Step tr d [.drained d.takeReleased.1] d.takeReleased.2

/-- Operations in turn, with all that can be told of them. -/
inductive Run : HandleTrace → Demux → Prop where
  | refl : Run [] {}
  | step {tr es : HandleTrace} {d d' : Demux} (run : Run tr d) (next : Step tr d es d') :
      Run (tr ++ es) d'

end Demux

end StreamRpc
