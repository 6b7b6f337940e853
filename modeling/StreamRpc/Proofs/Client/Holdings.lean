import StreamRpc.Proofs.Client.Accounts
import StreamRpc.Proofs.Stream.Ownership

/-! # Handles form a forest

A handle that has not been dropped is in one place: the application has it in its hands, or it is in
what another handle has not read.  A new handle goes to the application with a value, or into an inbox
with a notification; reading moves handles from an inbox into the hands of the application; and
dropping a handle takes it away and leaves what it has not read to be dropped.  A handle whose first
notification introduces its own stream is in its own inbox, where nothing reaches it.

* `Demux.Forest`              these handles are in the hands of the application, and no handle is in two
                              places
* `Demux.Forest.dropOne`      dropping a handle
* `Demux.Forest.introduceAll` making handles
* `Demux.Holding`             runs of an application that reads and drops what it has
* `Demux.Holding.forest`      handles form a forest after each of them
-/

namespace StreamRpc

/-- The handles in what was read. -/
def Reading.handles : Reading → List Handle
  | notification n => n.handles
  | _ => []

namespace Demux

open HandleTrace (made_append made_introduced)

/-- How often there is a handle in what the handles have not read. -/
def holds (d : Demux) (h : Handle) : Nat :=
  weight (fun box => box.held.count h) d.inboxes

/-- These handles are in the hands of the application.  No handle is in two places, and all that are
    somewhere were made and have their inboxes. -/
structure Forest (made : List StreamId) (hands : List Handle) (d : Demux) : Prop where
  given : ∀ h, 0 < hands.count h + d.holds h → Given made h
  held : ∀ h, 0 < hands.count h + d.holds h → d.held h = true
  once : ∀ h, hands.count h + d.holds h ≤ 1

/-- Without handles there is nothing to hold. -/
private theorem forest_empty : Forest [] [] {} where
  given _ hpos := absurd hpos (Nat.lt_irrefl 0)
  held _ hpos := absurd hpos (Nat.lt_irrefl 0)
  once _ := Nat.zero_le 1

/-- What a handle has not read is part of what all have not read. -/
private theorem holds_eq {d : Demux} {k : Nat} {box : Inbox} (found : d.inboxes[k]? = some box)
    (h : Handle) :
    d.holds h = box.held.count h + weight (fun box => box.held.count h) (d.inboxes.erase k) :=
  weight_erase _ found

/-- Filling an inbox changes what is held by what it holds. -/
private theorem holds_fill {d d' : Demux} {k : Nat} {box box' : Inbox}
    (found : d.inboxes[k]? = some box)
    (filled : d'.inboxes = d.inboxes.insert k box') (h : Handle) :
    d'.holds h + box.held.count h = d.holds h + box'.held.count h := by
  rw [holds_eq found, holds, filled, weight_insert]
  omega

/-- Dropping a handle takes what its inbox holds from what is held. -/
private theorem holds_dropOne {d : Demux} {g : Handle} {box : Inbox}
    (found : d.inboxes[g.key]? = some box)
    (h : Handle) : d.holds h = box.held.count h + (d.dropOne g).holds h :=
  holds_eq found h

/-- What comes for a handle is put after what it has not read. -/
private theorem count_held_concat (box : Inbox) (n : Notification ClientValue) (h : Handle) :
    ({ box with unread := box.unread ++ [n] } : Inbox).held.count h =
      box.held.count h + n.handles.count h := by
  simp [Inbox.held]

namespace Forest

variable {made : List StreamId} {hands hands' : List Handle} {d d' : Demux}

/-- A handle in the caller's hands was made. -/
theorem given_of_mem (forest : Forest made hands d) {h : Handle} (hh : h ∈ hands) :
    Given made h :=
  forest.given h (by have := List.count_pos_iff.2 hh; omega)

/-- A handle in the caller's hands has an inbox. -/
theorem held_of_mem (forest : Forest made hands d) {h : Handle} (hh : h ∈ hands) :
    d.held h = true :=
  forest.held h (by have := List.count_pos_iff.2 hh; omega)

/-- Handles are moved or given up. -/
private theorem less (forest : Forest made hands d) (held : ∀ h, d'.held h = d.held h)
    (less : ∀ h, hands'.count h + d'.holds h ≤ hands.count h + d.holds h) :
    Forest made hands' d' where
  -- With fewer holders everything that was true of a held handle stays true.
  given h hpos := forest.given h (by have := less h; omega)
  held h hpos := by
    rw [held]
    exact forest.held h (by have := less h; omega)
  once h := by
    have := less h
    have := forest.once h
    omega

/-- The order in the caller's hands does not matter. -/
theorem perm (forest : Forest made hands d) (perm : hands.Perm hands') : Forest made hands' d :=
  forest.less (fun _ => rfl) fun h =>
    Nat.le_of_eq (congrArg (· + d.holds h) (perm.count_eq h).symm)

/-- Nothing but the inboxes counts. -/
private theorem congr (forest : Forest made hands d) (same : d'.inboxes = d.inboxes) :
    Forest made hands d' := by
  have hheld : ∀ h, d'.held h = d.held h := fun h => by rw [Demux.held, same, Demux.held]
  have hholds : ∀ h, d'.holds h = d.holds h := fun h => by rw [Demux.holds, same, Demux.holds]
  exact forest.less hheld fun h => Nat.le_of_eq (congrArg (hands.count h + ·) (hholds h))

/-! ## Dropping -/

/-- A handle is dropped, and what it has not read is to be dropped next. -/
theorem dropOne {g : Handle} {hs : List Handle} {box : Inbox} (forest : Forest made (g :: hs) d)
    (found : d.inboxes[g.key]? = some box) :
    Forest made (box.held ++ hs) (d.dropOne g) := by
  have hcount : ∀ h, (box.held ++ hs).count h + (d.dropOne g).holds h + (if h = g then 1 else 0) =
      (g :: hs).count h + d.holds h := by
    intro h
    rw [holds_dropOne found, List.count_append, List.count_cons]
    simp only [beq_iff_eq, eq_comm (a := g)]
    omega
  refine ⟨fun h hpos => ?_, fun h hpos => ?_, fun h => ?_⟩
  · exact forest.given h (by have := hcount h; omega)
  · refine (held_dropOne d g h).2 ⟨forest.held h (by have := hcount h; omega), fun hkey => ?_⟩
    -- Another handle has another key, and this one was in one place only.
    have hgiven := forest.given h (by have := hcount h; omega)
    obtain rfl := hgiven.eq_of_key (forest.given_of_mem List.mem_cons_self) hkey
    have honce := forest.once h
    rw [← hcount, if_pos rfl] at honce
    omega
  · have := forest.once h
    have := hcount h
    omega

/-- Handles are dropped with all that they have not read. -/
private theorem dropAll {hs : List Handle} (forest : Forest made (hs ++ hands) d) :
    Forest made hands (d.dropAll hs) := by
  -- The handles taken out of a dropped inbox come first in the rest of the work.
  induction d, hs using dropAll_induct with
  | nil d =>
    rw [Demux.dropAll]
    exact forest
  | absent d g hs absent ih =>
    obtain ⟨box, found⟩ := (d.held_iff g).1 (forest.held_of_mem List.mem_cons_self)
    rw [absent] at found
    cases found
  | found d g hs box found ih =>
    rw [dropAll_of_found found]
    refine ih ?_
    rw [List.append_assoc]
    exact forest.dropOne found

/-! ## Making handles -/

/-- A new handle goes to the application. -/
private theorem introduce (forest : Forest made hands d) (fit : Fit made d) (id : StreamId) :
    Forest (made ++ [id]) ((d.introduce id).1 :: hands) (d.introduce id).2 := by
  -- The next key is beyond all that have been given out, so the new handle was nowhere before.
  have hnone : d.inboxes[d.nextKey]? = none := by
    refine Option.eq_none_iff_forall_ne_some.2 fun box hbox => ?_
    have := fit.keys _ box hbox
    have := fit.count
    omega
  have hholds : ∀ h, (d.introduce id).2.holds h = d.holds h := by
    intro h
    show weight _ (d.inboxes.insert d.nextKey {}) = _
    rw [weight_insert, erase_of_none hnone]
    exact Nat.zero_add _
  have hnew : hands.count (d.introduce id).1 + d.holds (d.introduce id).1 = 0 := by
    refine Nat.eq_zero_of_not_pos fun hpos => ?_
    obtain ⟨box, hbox⟩ := (d.held_iff _).1 (forest.held _ hpos)
    exact absurd (hnone.symm.trans hbox) nofun
  -- Any other handle has as many holders as before.
  have hold : ∀ h, h ≠ (d.introduce id).1 →
      ((d.introduce id).1 :: hands).count h + (d.introduce id).2.holds h =
        hands.count h + d.holds h := by
    intro h hne
    rw [hholds, List.count_cons_of_ne hne.symm]
  refine ⟨fun h hpos => ?_, fun h hpos => ?_, fun h => ?_⟩
  · by_cases hh : h = (d.introduce id).1
    · subst hh
      show (made ++ [id])[d.nextKey]? = some id
      rw [fit.count, List.getElem?_concat_length]
    · exact (forest.given h (by rwa [hold h hh] at hpos)).mono [id]
  · rw [held_introduce]
    by_cases hh : h = (d.introduce id).1
    · exact .inl (congrArg Handle.key hh)
    · exact .inr (forest.held h (by rwa [hold h hh] at hpos))
  · by_cases hh : h = (d.introduce id).1
    · subst hh
      rw [hholds, List.count_cons_self]
      omega
    · rw [hold h hh]
      exact forest.once h

/-- New handles go to the application. -/
theorem introduceAll (forest : Forest made hands d) (fit : Fit made d) (ids : List StreamId) :
    Forest (made ++ ids) (hands ++ (d.introduceAll ids).1) (d.introduceAll ids).2 := by
  induction ids generalizing made hands d with
  | nil => simpa [Demux.introduceAll] using forest
  | cons id ids ih =>
    have rest := ih (forest.introduce fit id) (fit.introduce id)
    rw [List.append_assoc] at rest
    exact rest.perm List.perm_middle.symm

/-! ## What comes for handles -/

/-- Handles are moved between the application and an inbox. -/
private theorem fill {k : Nat} {box box' : Inbox} (forest : Forest made hands d)
    (found : d.inboxes[k]? = some box) (filled : d'.inboxes = d.inboxes.insert k box')
    (moved : ∀ h, hands'.count h + box'.held.count h ≤ hands.count h + box.held.count h) :
    Forest made hands' d' := by
  refine forest.less (held_fill found filled) fun h => ?_
  have := holds_fill found filled h
  have := moved h
  omega

/-- Handles that come with a notification go into an inbox, or they are dropped. -/
private theorem deliver {n : Notification ClientValue} {k : Nat}
    (forest : Forest made (hands ++ n.handles) d) : Forest made hands (d.deliver k n).2 := by
  unfold Demux.deliver
  split
  · next box found =>
    refine forest.fill found rfl fun h => ?_
    rw [count_held_concat, List.count_append]
    omega
  · exact (forest.perm List.perm_append_comm).dropAll

/-- Something is told of a stream. -/
private theorem observe (forest : Forest made hands d) (fit : Fit made d) (id : StreamId)
    (event : Notification WireValue) :
    Forest (made ++ event.ids) hands (d.observe id event).2 := by
  have introduced := forest.introduceAll fit event.ids
  obtain ⟨b, d', heq, observes⟩ := d.observes id event
  rw [heq]
  -- The new handles are in nobody's hands at first, and then in the inbox or dropped.
  cases observes with
  | shut => exact (introduced.perm List.perm_append_comm).dropAll
  | opened ho wire handles =>
    rw [← handles] at introduced
    exact deliver (introduced.congr rfl)

/-- A stream fails. -/
private theorem failOne (forest : Forest made hands d) (f : Failure) (id : StreamId) :
    Forest made hands (d.failOne f id) := by
  unfold Demux.failOne
  split
  · exact forest
  · -- There are no handles in a failure.
    refine deliver ?_
    rw [show (Notification.error f : Notification ClientValue).handles = [] from rfl,
      List.append_nil]
    exact forest.congr rfl

/-- All streams fail. -/
private theorem failAll (forest : Forest made hands d) (f : Failure) :
    Forest made hands (d.failAll f) := by
  unfold Demux.failAll
  generalize d.opened.keys = ids
  induction ids generalizing d with
  | nil => exact forest
  | cons id ids ih =>
    rw [Demux.failEach_cons]
    exact ih (forest.failOne f id)

/-- What is read goes to the application. -/
private theorem read (forest : Forest made hands d) (h : Handle) :
    Forest made (hands ++ (d.read h).1.handles) (d.read h).2 := by
  have hnothing : Forest made (hands ++ []) d := by rwa [List.append_nil]
  obtain ⟨r, d', heq, reads⟩ := d.reads h
  rw [heq]
  cases reads with
  | ended | nothing => exact hnothing
  | @item box n unread found _ waiting =>
    -- The handles in the item were in the inbox, and now the application has them.
    refine forest.fill found rfl fun g => ?_
    have hrest : ({ unread, done := n.terminal } : Inbox).held =
        unread.flatMap Notification.handles := rfl
    rw [hrest, Inbox.held, waiting, List.flatMap_cons, List.count_append, List.count_append,
      Reading.handles]
    omega
  | last found =>
    refine hnothing.fill found rfl fun g => ?_
    exact Nat.add_le_add_left (Nat.zero_le _) _

end Forest

/-! ## Runs -/

/-- One operation, after what has been told so far, where these handles are in the hands of the
    application: it can read and drop them and no others. -/
inductive Act (tr : HandleTrace) (hands : List Handle) (d : Demux) :
    HandleTrace → List Handle → Demux → Prop where
  /-- The application gets a value. -/
  | attach (v : WireValue) :
      Act tr hands d ((d.attach v).1.slots.map .introduced) (hands ++ (d.attach v).1.slots)
        (d.attach v).2
  | hear {id : StreamId} {event : Notification WireValue}
      (accepted : (d.observe id event).1 = true) :
      Act tr hands d ((d.attachEvent event).1.handles.map .introduced ++ [.told id event true])
        hands (d.observe id event).2
  | miss {id : StreamId} {event : Notification WireValue} {es : HandleTrace}
      (rejected : (d.observe id event).1 = false)
      (drops : Drops (d.attachEvent event).2 (d.attachEvent event).1.handles es
        (d.observe id event).2) :
      Act tr hands d
        ((d.attachEvent event).1.handles.map .introduced ++ .told id event false :: es)
        hands (d.observe id event).2
  /-- The application gets what it reads. -/
  | read {h : Handle} (hh : h ∈ hands) :
      Act tr hands d [] (hands ++ (d.read h).1.handles) (d.read h).2
  /-- The application drops a handle, or a value with some handles in it. -/
  | drop {hs rest : List Handle} {es : HandleTrace} (owned : hands.Perm (hs ++ rest))
      (drops : Drops d hs es (d.dropAll hs)) : Act tr hands d es rest (d.dropAll hs)
  | failAll (f : Failure) : Act tr hands d [.failed] hands (d.failAll f)
  | drain : Act tr hands d [.drained d.takeReleased.1] hands d.takeReleased.2

/-- Operations in turn, with all that can be told of them and the handles that are in the hands of
    the application after them. -/
inductive Holding : HandleTrace → List Handle → Demux → Prop where
  | refl : Holding [] [] {}
  | step {tr es : HandleTrace} {hands hands' : List Handle} {d d' : Demux}
      (run : Holding tr hands d) (act : Act tr hands d es hands' d') :
      Holding (tr ++ es) hands' d'

section

variable {tr es : HandleTrace} {hands hands' : List Handle} {d d' : Demux}

/-- Each act is a step of the demultiplexer. -/
private theorem Act.step (act : Act tr hands d es hands' d') (forest : Forest tr.made hands d) :
    Step tr d es d' := by
  -- An act is a step by somebody who holds what it uses.
  cases act with
  | attach v => exact .attach d v
  | hear accepted => exact .hear accepted
  | miss rejected drops => exact .miss rejected drops
  | read hh => exact .read d (forest.given_of_mem hh)
  | drop owned drops =>
    exact .drop (fun h hh => (forest.perm owned).given_of_mem (List.mem_append_left _ hh)) drops
  | failAll f => exact .failAll d f
  | drain => exact .drain d

/-- What is told of a stream introduces the streams in it. -/
theorem made_told (d : Demux) (event : Notification WireValue) {es : HandleTrace}
    (quiet : es.made = []) :
    HandleTrace.made ((d.attachEvent event).1.handles.map .introduced ++ es) = event.ids := by
  obtain ⟨-, hhandles, -⟩ := d.attachEvent_eq event
  rw [made_append, quiet, List.append_nil, hhandles, made_introduced, ids_introduceAll]

/-- Each act keeps every handle in one place. -/
private theorem Act.forest (act : Act tr hands d es hands' d') (forest : Forest tr.made hands d)
    (fit : Fit tr.made d) : Forest (HandleTrace.made (tr ++ es)) hands' d' := by
  cases act with
  | attach v =>
    obtain ⟨hslots, hd, -⟩ := d.attach_eq v
    rw [hslots, hd, made_introduceAll]
    exact forest.introduceAll fit v.slots
  -- An observation attaches its handles and routes them, or drops them again.
  | @hear id event accepted =>
    rw [made_append, made_told d event rfl]
    exact forest.observe fit id event
  | @miss id event es rejected drops =>
    have quiet : HandleTrace.made (.told id event false :: es) = [] := drops.quiet.1
    rw [made_append, made_told d event quiet]
    exact forest.observe fit id event
  | read hh =>
    rw [List.append_nil]
    exact forest.read _
  -- The handles dropped were in somebody's hands, and the rest of the hands stays.
  | drop owned drops =>
    rw [made_append, drops.quiet.1, List.append_nil]
    exact (forest.perm owned).dropAll
  | failAll f =>
    rw [made_append, show HandleTrace.made [.failed] = [] from rfl, List.append_nil]
    exact forest.failAll f
  | drain =>
    rw [made_append, show HandleTrace.made [.drained d.takeReleased.1] = [] from rfl,
      List.append_nil]
    exact forest.congr rfl

/-- An application that reads and drops what it has goes on like any other, and its handles form a
    forest. -/
theorem Holding.forest (run : Holding tr hands d) (nodup : tr.made.Nodup) :
    Run tr d ∧ Forest tr.made hands d := by
  induction run with
  | refl => exact ⟨.refl, forest_empty⟩
  | step run act ih =>
    have nodup' := nodup
    rw [made_append] at nodup'
    obtain ⟨before, forest⟩ := ih (List.nodup_append.1 nodup').1
    exact ⟨before.step (act.step forest),
      act.forest forest (before.account (List.nodup_append.1 nodup').1).fit⟩

end

end Demux

end StreamRpc
