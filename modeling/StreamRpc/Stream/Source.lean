import Std.Data.ExtTreeMap
import StreamRpc.Message
import StreamRpc.Stream.Weight

/-! # Sources

A source is what a method puts into a slot of its answer: it yields the items of a stream, one
each time it is asked.  Sources live in one table, and values refer to them, so that a value whose
slots hold sources is plain data.  Dropping a source takes it out of the table, with all the
sources in items that it still held.

A channel is a source that is fed by hand, through publishers.  It ends with the first failure or
completion that any of its publishers pushed, or when there are no publishers any more.

* `Sources.dropAll_not_live`   a dropped source is not in the table any more
-/

namespace StreamRpc

/-- Refers to a source. -/
structure SourceRef where
  key : Nat
  deriving DecidableEq, Repr, Inhabited

/-- A value as methods produce it. -/
abbrev ServerValue := Value SourceRef

/-- One item of a source. -/
structure Emission where
  /-- A failure ends the stream. -/
  outcome : Except Failure ServerValue
  /-- A stream that is retired at the moment this item is asked for. -/
  retires : Option StreamId := none
  deriving Inhabited

/-- The sources in a notification. -/
def Notification.sources : Notification ServerValue → List SourceRef
  | next v => v.slots
  | _ => []

/-- The sources in an item. -/
def Emission.sources (e : Emission) : List SourceRef :=
  match e.outcome with
  | .ok v => v.slots
  | .error _ => []

/-- What a source will yield. -/
inductive Source where
  /-- These items. -/
  | listed (items : List Emission)
  /-- The numbers from `next` on, below `stop`. -/
  | counting (next stop : UInt64)
  /-- What publishers have pushed, and whether it has ended. -/
  | channel (buffer : List (Notification ServerValue)) (ended : Bool)
  deriving Inhabited

/-- The sources in items that a source still holds. -/
def Source.held : Source → List SourceRef
  | listed items => items.flatMap Emission.sources
  | counting _ _ => []
  | channel buffer _ => buffer.flatMap Notification.sources

/-- Refers to a publisher. -/
structure PublisherId where
  index : Nat
  deriving DecidableEq, Repr, Inhabited

/-- All sources that have not been dropped, and the publishers. -/
structure Sources where
  table : Std.ExtTreeMap Nat Source := ∅
  /-- The key of the next source. -/
  nextKey : Nat := 0
  /-- The channel of every publisher so far, in order; none for one that is gone. -/
  publishers : List (Option SourceRef) := []

/-- What asking a source comes to. -/
inductive Poll where
  | item (e : Emission)
  /-- There are no more items. -/
  | ended
  /-- Nothing now. -/
  | pending

namespace Sources

/-- Whether a source has not been dropped. -/
def live (s : Sources) (r : SourceRef) : Bool :=
  s.table.contains r.key

/-- Adds a source. -/
def insert (s : Sources) (source : Source) : SourceRef × Sources :=
  (⟨s.nextKey⟩, { s with table := s.table.insert s.nextKey source, nextKey := s.nextKey + 1 })

/-- Replaces a source. -/
def set (s : Sources) (r : SourceRef) (source : Source) : Sources :=
  { s with table := s.table.insert r.key source }

/-- Drops sources, and then the sources they held. -/
def dropAll (s : Sources) : List SourceRef → Sources
  | [] => s
  | r :: rs =>
    match _found : s.table[r.key]? with
    | none => s.dropAll rs
    | some source => { s with table := s.table.erase r.key }.dropAll (source.held ++ rs)
termination_by rs => weight (fun source => source.held.length + 1) s.table + rs.length
decreasing_by
  · simp
  · rw [weight_erase _ _found, List.length_append, List.length_cons]
    omega

/-- A source that is no longer in the table is skipped. -/
theorem dropAll_of_absent {s : Sources} {r : SourceRef} (absent : s.table[r.key]? = none)
    (rs : List SourceRef) : s.dropAll (r :: rs) = s.dropAll rs := by
  rw [dropAll]
  split
  · rfl
  · next found => rw [absent] at found; cases found

/-- Dropping a source in the table puts the sources its items hold on top of the stack. -/
theorem dropAll_of_found {s : Sources} {r : SourceRef} {source : Source}
    (found : s.table[r.key]? = some source) (rs : List SourceRef) :
    s.dropAll (r :: rs) =
      { s with table := s.table.erase r.key }.dropAll (source.held ++ rs) := by
  rw [dropAll]
  split
  · next absent => rw [found] at absent; cases absent
  · next source' found' =>
    obtain rfl := Option.some.inj (found.symm.trans found')
    rfl

/-- What is shown of dropping one source at a time, those that it holds after it, holds of dropping
    all of them. -/
theorem dropAll_induct {motive : Sources → List SourceRef → Prop} (nil : ∀ s, motive s [])
    (absent : ∀ s r rs, s.table[r.key]? = none → motive s rs → motive s (r :: rs))
    (found : ∀ s r rs source, s.table[r.key]? = some source →
      motive { s with table := s.table.erase r.key } (source.held ++ rs) → motive s (r :: rs))
    (s : Sources) (rs : List SourceRef) : motive s rs :=
  dropAll.induct motive nil absent found s rs

/-- Whether a channel has publishers. -/
def fed (s : Sources) (r : SourceRef) : Bool :=
  s.publishers.contains (some r)

/-- Asks a source for its next item. -/
def poll (s : Sources) (r : SourceRef) : Poll × Sources :=
  match s.table[r.key]? with
  | none => (.ended, s)
  | some (.listed []) => (.ended, s)
  | some (.listed (e :: items)) => (.item e, s.set r (.listed items))
  | some (.counting next stop) =>
    if next < stop then (.item { outcome := .ok (.u64 next) }, s.set r (.counting (next + 1) stop))
    else (.ended, s)
  | some (.channel _ true) => (.ended, s)
  | some (.channel (.next v :: buffer) false) =>
    (.item { outcome := .ok v }, s.set r (.channel buffer false))
  | some (.channel (.error f :: buffer) false) =>
    (.item { outcome := .error f }, s.set r (.channel buffer true))
  | some (.channel (.completed :: buffer) false) => (.ended, s.set r (.channel buffer true))
  | some (.channel [] false) =>
    if s.fed r then (.pending, s) else (.ended, s.set r (.channel [] true))

/-! ## Publishers -/

/-- Makes a channel and its first publisher. -/
def openChannel (s : Sources) : SourceRef × Sources :=
  let (r, s) := s.insert (.channel [] false)
  (r, { s with publishers := s.publishers ++ [some r] })

/-- The channel of a publisher that is there. -/
def channelOf? (s : Sources) (p : PublisherId) : Option SourceRef :=
  s.publishers[p.index]?.join

/-- Puts a notification into a channel, or drops it if nobody listens any more. -/
def push (s : Sources) (r : SourceRef) (n : Notification ServerValue) : Bool × Sources :=
  match s.table[r.key]? with
  | some (.channel buffer ended) => (true, s.set r (.channel (buffer ++ [n]) ended))
  | _ => (false, s.dropAll n.sources)

/-- Takes a publisher away. -/
def removePublisher (s : Sources) (p : PublisherId) : Sources :=
  { s with publishers := s.publishers.set p.index none }

/-- Pushes a value, and says whether somebody listens; nothing, if the publisher is gone. -/
def publish (s : Sources) (p : PublisherId) (v : ServerValue) : Option Bool × Sources :=
  match s.channelOf? p with
  | none => (none, s.dropAll v.slots)
  | some r =>
    let (heard, s) := s.push r (.next v)
    (some heard, s)

/-- Pushes a failure or the completion and takes the publisher away; says whether it was there. -/
def finish (s : Sources) (p : PublisherId) (n : Notification ServerValue) : Bool × Sources :=
  match s.channelOf? p with
  | none => (false, s)
  | some r => (true, (s.push r n).2.removePublisher p)

/-- Takes a publisher away; says whether it was there. -/
def dropPublisher (s : Sources) (p : PublisherId) : Bool × Sources :=
  ((s.channelOf? p).isSome, s.removePublisher p)

/-- One more publisher of the same channel.  It is gone if the first one is. -/
def clonePublisher (s : Sources) (p : PublisherId) : PublisherId × Sources :=
  (⟨s.publishers.length⟩, { s with publishers := s.publishers ++ [s.channelOf? p] })

/-- Whether nobody listens to a publisher any more; nothing, if the publisher is gone. -/
def unheard? (s : Sources) (p : PublisherId) : Option Bool :=
  (s.channelOf? p).map fun r => !s.live r

/-! ## Dropping -/

/-- Dropping makes no source live. -/
theorem live_of_live_dropAll (s : Sources) (rs : List SourceRef) (r : SourceRef)
    (h : (s.dropAll rs).live r = true) : s.live r = true := by
  induction s, rs using dropAll_induct with
  | nil s => simpa [dropAll] using h
  | absent s q rs hq ih => exact ih (dropAll_of_absent hq rs ▸ h)
  | found s q rs source hq ih =>
    have hone := ih (dropAll_of_found hq rs ▸ h)
    simp only [live, Std.ExtTreeMap.contains_erase, Bool.and_eq_true] at hone ⊢
    exact hone.2

/-- A dropped source is not in the table any more. -/
theorem dropAll_not_live (s : Sources) (rs : List SourceRef) (r : SourceRef) (hr : r ∈ rs) :
    (s.dropAll rs).live r = false := by
  induction s, rs using dropAll_induct with
  | nil s => simp at hr
  | absent s q rs hq ih =>
    rw [dropAll_of_absent hq]
    rcases List.mem_cons.1 hr with rfl | hr
    · refine Bool.eq_false_iff.2 fun hl => ?_
      have := live_of_live_dropAll s rs r hl
      simp [live, Std.ExtTreeMap.contains_eq_isSome_getElem?, hq] at this
    · exact ih hr
  | found s q rs source hq ih =>
    rw [dropAll_of_found hq]
    rcases List.mem_cons.1 hr with rfl | hr
    · -- It is gone before what it holds is dropped, and that makes nothing live.
      refine Bool.eq_false_iff.2 fun hl => ?_
      have := live_of_live_dropAll _ _ r hl
      simp [live] at this
    · exact ih (List.mem_append_right _ hr)

end Sources

end StreamRpc
