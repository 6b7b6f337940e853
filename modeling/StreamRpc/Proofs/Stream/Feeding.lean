import StreamRpc.Proofs.Lists
import StreamRpc.Stream.Blueprint

/-! # Feeding a channel

Whoever has sources makes them, asks them and drops them, and feeds the channels among them through
publishers, of which a channel may have many.  A `Deed` is one such thing.  What deeds mean to one
channel is its trace: what was pushed into it, what it answered, and which publishers came and went.

* `itemsOf`                      what a channel makes of what was pushed into it
* `ChannelTrace.answer`          what a channel is to answer next
* `Sources.perform`              what a deed does
* `Sources.spares_perform`       what does not concern a channel leaves it as it was
* `Sources.grows_perform`        what is gone does not come back
* `Sources.exists_deeds_build`   what a method describes is made by deeds
-/

namespace StreamRpc

/-! ## What a channel is to yield -/

/-- An item that is a value. -/
def Emission.plain (v : ServerValue) : Emission :=
  { outcome := .ok v }

/-- What notifications come to at the source of a channel: the values up to the first notification
    that ends the stream, and then the failure, if it is one. -/
def itemsOf : List (Notification ServerValue) → List Emission
  | [] => []
  | .next v :: ns => .plain v :: itemsOf ns
  | .error f :: _ => [{ outcome := .error f }]
  | .completed :: _ => []

/-- Whether the stream ends among these. -/
def hasTerminal (ns : List (Notification ServerValue)) : Bool :=
  ns.any (·.terminal)

/-- Values are the items they carry. -/
@[simp] theorem itemsOf_values (vs : List ServerValue) (ns : List (Notification ServerValue)) :
    itemsOf (vs.map .next ++ ns) = vs.map .plain ++ itemsOf ns := by
  induction vs with
  | nil => rfl
  | cons v vs ih => simp [itemsOf, ih]

/-- Values are not terminal. -/
@[simp] theorem hasTerminal_values (vs : List ServerValue) :
    hasTerminal (vs.map .next) = false := by
  simp [hasTerminal, Notification.terminal]

/-- There is a terminal in two lists in a row when there is in one of them. -/
@[simp] theorem hasTerminal_append (ns more : List (Notification ServerValue)) :
    hasTerminal (ns ++ more) = (hasTerminal ns || hasTerminal more) :=
  List.any_append

/-- Nothing counts after the stream has ended. -/
theorem itemsOf_append {ns : List (Notification ServerValue)} (ended : hasTerminal ns = true)
    (more : List (Notification ServerValue)) : itemsOf (ns ++ more) = itemsOf ns := by
  induction ns with
  | nil => simp [hasTerminal] at ended
  | cons n ns ih =>
    -- What comes after an end is not among the items.
    cases n with
    | next v =>
      have ended' : hasTerminal ns = true := by
        simpa [hasTerminal, Notification.terminal] using ended
      simp [itemsOf, ih ended']
    | error f => rfl
    | completed => rfl

/-! ## Traces -/

/-- What concerns a channel. -/
inductive ChannelEvent where
  /-- A publisher pushed this. -/
  | pushed (n : Notification ServerValue)
  /-- There is one publisher more. -/
  | joined
  /-- There is one publisher less. -/
  | left
  /-- The source was asked for its next item. -/
  | asked (answer : Poll)

namespace ChannelEvent

@[simp] def pushed? : ChannelEvent → Option (Notification ServerValue)
  | pushed n => some n
  | _ => none

@[simp] def yielded? : ChannelEvent → Option Emission
  | asked (.item e) => some e
  | _ => none

@[simp] def isJoined : ChannelEvent → Bool
  | joined => true
  | _ => false

@[simp] def isLeft : ChannelEvent → Bool
  | left => true
  | _ => false

end ChannelEvent

/-- What has concerned a channel since it was made with its first publisher, the oldest first. -/
abbrev ChannelTrace := List ChannelEvent

namespace ChannelTrace

/-- What all publishers together have pushed. -/
def pushed (tr : ChannelTrace) : List (Notification ServerValue) :=
  tr.filterMap ChannelEvent.pushed?

/-- The items that the source has yielded. -/
def yielded (tr : ChannelTrace) : List Emission :=
  tr.filterMap ChannelEvent.yielded?

/-- How many publishers there are. -/
def publishers (tr : ChannelTrace) : Nat :=
  1 + tr.countP ChannelEvent.isJoined - tr.countP ChannelEvent.isLeft

/-- Whether nothing that counts can be pushed any more. -/
def finished (tr : ChannelTrace) : Bool :=
  hasTerminal tr.pushed || tr.publishers == 0

/-- What the source is to answer next: the next item that was pushed, else whether it has ended. -/
def answer (tr : ChannelTrace) : Poll :=
  match (itemsOf tr.pushed)[tr.yielded.length]? with
  | some e => .item e
  | none => if tr.finished then .ended else .pending

/-- Every answer was the right one at its time. -/
def Right (tr : ChannelTrace) : Prop :=
  ∀ (pre : ChannelTrace) a post, tr = pre ++ .asked a :: post → a = pre.answer

/-- Once the source has ended, it always has. -/
def Lasting (tr : ChannelTrace) : Prop :=
  ∀ pre post, tr = pre ++ .asked .ended :: post → ∀ a, .asked a ∈ post → a = .ended

/-- One more event adds the notification it pushes. -/
@[simp] theorem pushed_concat (tr : ChannelTrace) (e : ChannelEvent) :
    pushed (tr ++ [e]) = tr.pushed ++ e.pushed?.toList := by
  rw [pushed, List.filterMap_append, List.filterMap_cons]
  cases e.pushed? <;> rfl

/-- One more event adds the item it yields. -/
@[simp] theorem yielded_concat (tr : ChannelTrace) (e : ChannelEvent) :
    yielded (tr ++ [e]) = tr.yielded ++ e.yielded?.toList := by
  rw [yielded, List.filterMap_append, List.filterMap_cons]
  cases e.yielded? <;> rfl

/-- A poll does not change the number of publishers. -/
@[simp] theorem publishers_asked (tr : ChannelTrace) (a : Poll) :
    publishers (tr ++ [.asked a]) = tr.publishers := by
  simp [publishers]

/-- A publisher that leaves is one fewer. -/
@[simp] theorem publishers_left (tr : ChannelTrace) :
    publishers (tr ++ [.left]) = tr.publishers - 1 := by
  simp [publishers, Nat.sub_add_eq]

/-- A poll does not finish a channel. -/
@[simp] theorem finished_asked (tr : ChannelTrace) (a : Poll) :
    finished (tr ++ [.asked a]) = tr.finished := by
  simp [finished]

/-- A channel is finished by a terminal or by the loss of its last publisher. -/
theorem finished_iff {tr : ChannelTrace} :
    tr.finished = true ↔ hasTerminal tr.pushed = true ∨ tr.publishers = 0 := by
  simp [finished]

variable {tr : ChannelTrace} {e : ChannelEvent}

/-- The answers stay right when the next answer is. -/
theorem Right.concat (right : tr.Right) (next : ∀ a, e = .asked a → a = tr.answer) :
    Right (tr ++ [e]) := by
  intro pre a post split
  rcases split_concat split with ⟨rfl, he, -⟩ | ⟨init, -, htr⟩
  · exact next a he
  · exact right pre a init htr

/-- The end stays the end when the next answer after it is the end again. -/
theorem Lasting.concat (lasting : tr.Lasting)
    (next : ∀ a, e = .asked a → .asked .ended ∈ tr → a = .ended) : Lasting (tr ++ [e]) := by
  intro pre post split a ha
  rcases split_concat split with ⟨-, -, rfl⟩ | ⟨init, rfl, rfl⟩
  · cases ha
  · rcases List.mem_append.1 ha with ha | ha
    · exact lasting pre init rfl a ha
    · exact next a (List.mem_singleton.1 ha).symm (by simp)

/-- An item is left, and it is the answer. -/
theorem answer_of_left {item : Emission} {rest : List Emission}
    (left : itemsOf tr.pushed = tr.yielded ++ item :: rest) : tr.answer = .item item := by
  simp [answer, left]

/-- No item is left. -/
theorem answer_of_yielded (all : itemsOf tr.pushed = tr.yielded) :
    tr.answer = if tr.finished then .ended else .pending := by
  simp [answer, all]

end ChannelTrace

namespace Sources

/-! ## Deeds -/

/-- Something that is done with sources and publishers. -/
inductive Deed where
  | insert (source : Source)
  | openChannel
  | poll (r : SourceRef)
  | publish (p : PublisherId) (v : ServerValue)
  | fail (p : PublisherId) (f : Failure)
  | complete (p : PublisherId)
  | dropPublisher (p : PublisherId)
  | clonePublisher (p : PublisherId)
  | drop (rs : List SourceRef)

/-- Does something. -/
def perform (s : Sources) : Deed → Sources
  | .insert source => (s.insert source).2
  | .openChannel => s.openChannel.2
  | .poll r => (s.poll r).2
  | .publish p v => (s.publish p v).2
  | .fail p f => (s.finish p (.error f)).2
  | .complete p => (s.finish p .completed).2
  | .dropPublisher p => (s.dropPublisher p).2
  | .clonePublisher p => (s.clonePublisher p).2
  | .drop rs => s.dropAll rs

/-- What a deed means to a channel. -/
def told (s : Sources) (r : SourceRef) : Deed → ChannelTrace
  | .poll q => if q = r then [.asked (s.poll r).1] else []
  | .publish p v => if s.channelOf? p = some r then [.pushed (.next v)] else []
  | .fail p f => if s.channelOf? p = some r then [.pushed (.error f), .left] else []
  | .complete p => if s.channelOf? p = some r then [.pushed .completed, .left] else []
  | .dropPublisher p => if s.channelOf? p = some r then [.left] else []
  | .clonePublisher p => if s.channelOf? p = some r then [.joined] else []
  | _ => []

/-- Does one thing after another. -/
def after (s : Sources) (ds : List Deed) : Sources :=
  ds.foldl perform s

/-- What all that means to a channel. -/
def traceOf (s : Sources) (r : SourceRef) : List Deed → ChannelTrace
  | [] => []
  | d :: ds => s.told r d ++ (s.perform d).traceOf r ds

/-- No deeds leave the sources as they are. -/
@[simp] theorem after_nil (s : Sources) : s.after [] = s := rfl

/-- Deeds are done one after the other, the first first. -/
@[simp] theorem after_cons (s : Sources) (d : Deed) (ds : List Deed) :
    s.after (d :: ds) = (s.perform d).after ds := rfl

/-- Two lists of deeds in a row act as the second on what the first leaves. -/
@[simp] theorem after_append (s : Sources) (ds more : List Deed) :
    s.after (ds ++ more) = (s.after ds).after more :=
  List.foldl_append

/-- The trace of two lists of deeds is that of the first and then that of the second. -/
@[simp] theorem traceOf_append (s : Sources) (r : SourceRef) (ds more : List Deed) :
    s.traceOf r (ds ++ more) = s.traceOf r ds ++ (s.after ds).traceOf r more := by
  induction ds generalizing s with
  | nil => rfl
  | cons d ds ih => simp [traceOf, ih]

/-! ## What operations leave as it was -/

/-- Setting a source changes the entry of its own key only. -/
theorem table_set (s : Sources) (q : SourceRef) (source : Source) (k : Nat) :
    (s.set q source).table[k]? = if q.key = k then some source else s.table[k]? := by
  show (s.table.insert _ _)[k]? = _
  rw [Std.ExtTreeMap.getElem?_insert]
  simp only [Std.compare_eq_iff_eq]

/-- A new source goes under the next key. -/
theorem table_insert (s : Sources) (source : Source) (k : Nat) :
    (s.insert source).2.table[k]? = if s.nextKey = k then some source else s.table[k]? := by
  show (s.table.insert _ _)[k]? = _
  rw [Std.ExtTreeMap.getElem?_insert]
  simp only [Std.compare_eq_iff_eq]

/-- A source is live while it is in the table. -/
private theorem live_iff {s : Sources} {r : SourceRef} :
    s.live r = true ↔ ∃ source, s.table[r.key]? = some source := by
  rw [live, Std.ExtTreeMap.contains_eq_isSome_getElem?, Option.isSome_iff_exists]

/-- Dropping sources takes some away, and changes nothing else. -/
private theorem dropAll_frame (s : Sources) (rs : List SourceRef) :
    (s.dropAll rs).nextKey = s.nextKey ∧ (s.dropAll rs).publishers = s.publishers ∧
      ∀ k : Nat, (s.dropAll rs).table[k]? = none ∨ (s.dropAll rs).table[k]? = s.table[k]? := by
  -- The sources a dropped one held are dropped next, so the induction is on the worklist.
  induction s, rs using dropAll_induct with
  | nil s => simp [dropAll]
  | absent s q rs hq ih =>
    rw [dropAll_of_absent hq]
    exact ih
  | found s q rs source hq ih =>
    rw [dropAll_of_found hq]
    obtain ⟨hkey, hpub, htable⟩ := ih
    refine ⟨hkey, hpub, fun k => ?_⟩
    rcases htable k with h | h
    · exact .inl h
    · rw [h, Std.ExtTreeMap.getElem?_erase]
      split
      · exact .inl rfl
      · exact .inr rfl

/-- What is done elsewhere leaves a channel as it was, as long as it is not dropped. -/
structure Spares (r : SourceRef) (s s' : Sources) : Prop where
  entry : s'.live r = true → s'.table[r.key]? = s.table[r.key]?
  publishers : s'.publishers.count (some r) = s.publishers.count (some r)

variable {s s' s'' : Sources} {r q : SourceRef} {p : PublisherId}

/-- Doing nothing spares every source. -/
theorem Spares.refl (r : SourceRef) (s : Sources) : Spares r s s :=
  ⟨fun _ => rfl, rfl⟩

/-- A cascade either removes a source or spares it. -/
private theorem spares_dropAll (r : SourceRef) (s : Sources) (rs : List SourceRef) :
    Spares r s (s.dropAll rs) := by
  obtain ⟨-, hpub, htable⟩ := s.dropAll_frame rs
  refine ⟨fun hlive => ?_, by rw [hpub]⟩
  obtain ⟨source, found⟩ := live_iff.1 hlive
  rcases htable r.key with h | h
  · rw [found] at h
    cases h
  · exact h

/-- Setting one source spares the others. -/
private theorem spares_set (apart : q ≠ r) (s : Sources) (source : Source) :
    Spares r s (s.set q source) := by
  refine ⟨fun _ => ?_, rfl⟩
  rw [table_set, if_neg fun h => apart (by cases q; cases r; simp_all)]

/-- Polling one source spares the others. -/
private theorem spares_poll (apart : q ≠ r) (s : Sources) : Spares r s (s.poll q).2 := by
  unfold poll
  repeat' split
  all_goals first | exact .refl r s | exact spares_set apart s _

/-- Pushing to one channel spares the other sources. -/
private theorem spares_push (apart : q ≠ r) (s : Sources) (n : Notification ServerValue) :
    Spares r s (s.push q n).2 := by
  unfold push
  split
  · exact spares_set apart s _
  · exact spares_dropAll r s _

/-- What is spared twice is spared. -/
theorem Spares.trans (first : Spares r s s') (second : Spares r s' s'') : Spares r s s'' := by
  refine ⟨fun hlive => ?_, second.publishers.trans first.publishers⟩
  have kept := second.entry hlive
  have hlive' : s'.live r = true := by
    rw [live_iff, ← kept]
    exact live_iff.1 hlive
  rw [kept, first.entry hlive']

/-! ## Publishers -/

/-- A publisher's channel is the one its entry names. -/
theorem channelOf?_eq_some : s.channelOf? p = some r ↔ s.publishers[p.index]? = some (some r) := by
  simp [channelOf?, Option.join_eq_some_iff]

/-- A channel is fed while some publisher names it. -/
theorem fed_iff : s.fed r = true ↔ 0 < s.publishers.count (some r) := by
  rw [fed, List.contains_iff_mem, List.count_pos_iff]

/-- The publisher that goes is not counted any more. -/
theorem count_removePublisher (s : Sources) (p : PublisherId) (r : SourceRef) :
    (s.removePublisher p).publishers.count (some r) + (if s.channelOf? p = some r then 1 else 0) =
      s.publishers.count (some r) := by
  show (s.publishers.set p.index none).count (some r) + _ = _
  simp only [channelOf?_eq_some]
  by_cases inside : p.index < s.publishers.length
  · rw [List.count_set inside, List.getElem?_eq_getElem inside]
    -- The place is emptied and not taken out, so the numbers of the others stay.
    by_cases here : s.publishers[p.index] = some r
    · have : 0 < s.publishers.count (some r) :=
        List.count_pos_iff.2 (here ▸ List.getElem_mem inside)
      simp only [here, BEq.rfl, ↓reduceIte, Option.none_beq_some, Bool.false_eq_true,
        Nat.add_zero]
      omega
    · simp [here]
  · rw [List.set_eq_of_length_le (by omega), List.getElem?_eq_none (by omega)]
    simp

/-- A push changes no publisher. -/
private theorem publishers_push (s : Sources) (q : SourceRef) (n : Notification ServerValue) :
    (s.push q n).2.publishers = s.publishers := by
  unfold push
  split
  · rfl
  · exact (s.dropAll_frame _).2.1

/-- A push changes no publisher's channel. -/
theorem channelOf?_push (s : Sources) (q : SourceRef) (n : Notification ServerValue)
    (p : PublisherId) : (s.push q n).2.channelOf? p = s.channelOf? p := by
  rw [channelOf?, publishers_push, channelOf?]

/-- Removing a publisher spares the sources that are not its channel. -/
private theorem spares_removePublisher (other : s.channelOf? p ≠ some r) :
    Spares r s (s.removePublisher p) := by
  have count := s.count_removePublisher p r
  rw [if_neg other] at count
  exact ⟨fun _ => rfl, count⟩

/-- A terminal spares the sources that are not the publisher's channel. -/
private theorem spares_finish (other : s.channelOf? p ≠ some r) (n : Notification ServerValue) :
    Spares r s (s.finish p n).2 := by
  unfold finish
  cases feeds : s.channelOf? p with
  | none => exact .refl r s
  | some q =>
    have apart : q ≠ r := fun h => other (h ▸ feeds)
    apply (spares_push apart s n).trans
    apply spares_removePublisher
    rwa [channelOf?_push]

/-- A new source spares the old ones. -/
private theorem spares_insert (known : r.key < s.nextKey) (source : Source) :
    Spares r s (s.insert source).2 := by
  refine ⟨fun _ => ?_, rfl⟩
  rw [table_insert, if_neg (by omega)]

/-- A new channel spares the old sources. -/
private theorem spares_openChannel (known : r.key < s.nextKey) : Spares r s s.openChannel.2 := by
  refine ⟨(spares_insert known (.channel [] false)).entry, ?_⟩
  have fresh : (⟨s.nextKey⟩ : SourceRef) ≠ r := fun h => by simp [← h] at known
  show (s.publishers ++ [some (⟨s.nextKey⟩ : SourceRef)]).count (some r) = _
  simp [fresh]

/-- Cloning a publisher spares the sources that are not its channel. -/
private theorem spares_clonePublisher (other : s.channelOf? p ≠ some r) :
    Spares r s (s.clonePublisher p).2 := by
  refine ⟨fun _ => rfl, ?_⟩
  show (s.publishers ++ [s.channelOf? p]).count (some r) = _
  simp [other]

/-- What does not concern a channel leaves it as it was. -/
theorem spares_perform (known : r.key < s.nextKey) {d : Deed} (quiet : s.told r d = []) :
    Spares r s (s.perform d) := by
  -- A deed that tells the source nothing is about another one, or about none.
  cases d with
  | insert source => exact spares_insert known source
  | openChannel => exact spares_openChannel known
  | poll q => exact spares_poll (fun h => by simp [told, h] at quiet) s
  | publish p v =>
    simp only [perform, publish]
    cases feeds : s.channelOf? p with
    | none => exact spares_dropAll r s v.slots
    | some q => exact spares_push (fun h => by simp [told, feeds, h] at quiet) s (.next v)
  | fail p f => exact spares_finish (fun h => by simp [told, h] at quiet) (.error f)
  | complete p => exact spares_finish (fun h => by simp [told, h] at quiet) .completed
  | dropPublisher p => exact spares_removePublisher fun h => by simp [told, h] at quiet
  | clonePublisher p => exact spares_clonePublisher fun h => by simp [told, h] at quiet
  | drop rs => exact spares_dropAll r s rs

/-! ## What no operation does -/

/-- Keys are only given out, what is gone does not come back, and a publisher that is new feeds a
    channel that is there or is new. -/
structure Grows (s s' : Sources) : Prop where
  nextKey : s.nextKey ≤ s'.nextKey
  live : ∀ r : SourceRef, r.key < s.nextKey → s'.live r = true → s.live r = true
  publishers : ∀ r : SourceRef, some r ∈ s'.publishers →
    some r ∈ s.publishers ∨ s.nextKey ≤ r.key ∧ r.key < s'.nextKey

/-- Nothing done brings nothing back. -/
theorem Grows.refl (s : Sources) : Grows s s :=
  ⟨Nat.le_refl _, fun _ _ h => h, fun _ => .inl⟩

/-- What brings nothing back twice brings nothing back. -/
theorem Grows.trans (first : Grows s s') (second : Grows s' s'') : Grows s s'' where
  nextKey := Nat.le_trans first.nextKey second.nextKey
  live r known kept :=
    first.live r known (second.live r (Nat.lt_of_lt_of_le known first.nextKey) kept)
  publishers r hr := by
    have := first.nextKey
    have := second.nextKey
    -- A publisher was there at first, or feeds a source made since.
    rcases second.publishers r hr with hr | ⟨old, new⟩
    · rcases first.publishers r hr with hr | ⟨old, new⟩
      · exact .inl hr
      · exact .inr ⟨old, by omega⟩
    · exact .inr ⟨by omega, new⟩

/-- A cascade brings nothing back. -/
private theorem grows_dropAll (s : Sources) (rs : List SourceRef) : Grows s (s.dropAll rs) := by
  obtain ⟨hkey, hpub, -⟩ := s.dropAll_frame rs
  exact ⟨Nat.le_of_eq hkey.symm, fun r _ => s.live_of_live_dropAll rs r,
    fun r hr => .inl (hpub ▸ hr)⟩

/-- Replacing a source brings nothing back. -/
private theorem grows_set {old : Source} (found : s.table[q.key]? = some old) (new : Source) :
    Grows s (s.set q new) := by
  refine ⟨Nat.le_refl _, fun r _ kept => ?_, fun _ => .inl⟩
  obtain ⟨source, hsource⟩ := live_iff.1 kept
  rw [table_set] at hsource
  split at hsource
  · next same => exact live_iff.2 ⟨old, same ▸ found⟩
  · exact live_iff.2 ⟨source, hsource⟩

/-- A poll brings nothing back. -/
private theorem grows_poll (s : Sources) (q : SourceRef) : Grows s (s.poll q).2 := by
  unfold poll
  repeat' split
  all_goals first | exact .refl s | exact grows_set ‹s.table[q.key]? = _› _

/-- A push brings nothing back. -/
private theorem grows_push (s : Sources) (q : SourceRef) (n : Notification ServerValue) :
    Grows s (s.push q n).2 := by
  unfold push
  split
  · next found => exact grows_set found _
  · exact s.grows_dropAll _

/-- Removing a publisher brings nothing back. -/
private theorem grows_removePublisher (s : Sources) (p : PublisherId) :
    Grows s (s.removePublisher p) := by
  refine ⟨Nat.le_refl _, fun _ _ kept => kept, fun r hr => .inl ?_⟩
  rcases List.mem_or_eq_of_mem_set hr with hr | hr
  · exact hr
  · cases hr

/-- A terminal brings nothing back. -/
private theorem grows_finish (s : Sources) (p : PublisherId) (n : Notification ServerValue) :
    Grows s (s.finish p n).2 := by
  unfold finish
  split
  · exact .refl s
  · exact (s.grows_push _ n).trans (grows_removePublisher _ p)

/-- A new source brings nothing back. -/
private theorem grows_insert (s : Sources) (source : Source) : Grows s (s.insert source).2 := by
  refine ⟨Nat.le_succ _, fun r known kept => ?_, fun _ => .inl⟩
  obtain ⟨old, found⟩ := live_iff.1 kept
  rw [table_insert, if_neg (by omega)] at found
  exact live_iff.2 ⟨old, found⟩

/-- A new channel brings nothing back, and its publisher feeds it. -/
private theorem grows_openChannel (s : Sources) : Grows s s.openChannel.2 := by
  obtain ⟨nextKey, live, -⟩ := s.grows_insert (.channel [] false)
  refine ⟨nextKey, live, fun r hr => ?_⟩
  rcases List.mem_append.1 hr with hr | hr
  · exact .inl hr
  · obtain rfl := Option.some.inj (List.mem_singleton.1 hr)
    exact .inr ⟨Nat.le_refl _, Nat.lt_succ_self _⟩

/-- Cloning a publisher brings nothing back, and the new one feeds the same channel. -/
private theorem grows_clonePublisher (s : Sources) (p : PublisherId) :
    Grows s (s.clonePublisher p).2 := by
  refine ⟨Nat.le_refl _, fun _ _ kept => kept, fun r hr => .inl ?_⟩
  rcases List.mem_append.1 hr with hr | hr
  · exact hr
  · exact List.mem_of_getElem? (channelOf?_eq_some.1 (List.mem_singleton.1 hr).symm)

/-- No deed brings anything back. -/
theorem grows_perform (s : Sources) (d : Deed) : Grows s (s.perform d) := by
  cases d with
  | insert source => exact s.grows_insert source
  | openChannel => exact s.grows_openChannel
  | poll q => exact s.grows_poll q
  | publish p v =>
    simp only [perform, publish]
    -- A value nobody can receive is dropped with its sources.
    split
    · exact s.grows_dropAll _
    · exact s.grows_push _ _
  | fail p f => exact s.grows_finish p _
  | complete p => exact s.grows_finish p _
  | dropPublisher p => exact s.grows_removePublisher p
  | clonePublisher p => exact s.grows_clonePublisher p
  | drop rs => exact s.grows_dropAll rs

/-- No run of deeds brings anything back. -/
theorem grows_after (s : Sources) (ds : List Deed) : Grows s (s.after ds) := by
  induction ds generalizing s with
  | nil => exact .refl s
  | cons d ds ih => exact (s.grows_perform d).trans (ih _)

/-! ## Making what a method describes -/

/-- Two runs of deeds in a row are one. -/
private theorem exists_after_trans {s s' s'' : Sources} (first : ∃ ds, s' = s.after ds)
    (second : ∃ ds, s'' = s'.after ds) : ∃ ds, s'' = s.after ds := by
  obtain ⟨ds, rfl⟩ := first
  obtain ⟨more, rfl⟩ := second
  exact ⟨ds ++ more, (s.after_append ds more).symm⟩

end Sources

namespace Blueprint

mutual

/-- Building a source is nothing but deeds. -/
private theorem exists_deeds_build :
    (b : Blueprint) → (s : Sources) → ∃ ds, (b.build s).2 = s.after ds
  | listed items, s => by
    rw [build]
    exact Sources.exists_after_trans (exists_deeds_buildItems items s) ⟨[.insert _], rfl⟩
  | counting stop, s => ⟨[.insert (.counting 0 stop)], by rw [build]; rfl⟩
  | channel, s => ⟨[.openChannel], by rw [build]; rfl⟩

/-- Building a list's emissions is nothing but deeds. -/
private theorem exists_deeds_buildItems :
    (items : List (Option StreamId × Except Failure (Value Blueprint))) → (s : Sources) →
      ∃ ds, (buildItems items s).2 = s.after ds
  | [], s => ⟨[], by rw [buildItems]; rfl⟩
  | (_, .error f) :: items, s => by
    rw [buildItems]
    exact exists_deeds_buildItems items s
  | (_, .ok v) :: items, s => by
    rw [buildItems]
    exact Sources.exists_after_trans (exists_deeds_buildValue v s) (exists_deeds_buildItems items _)

/-- Building a value is nothing but deeds. -/
private theorem exists_deeds_buildValue : (v : Value Blueprint) → (s : Sources) →
    ∃ ds, (buildValue v s).2 = s.after ds
  | .unit, s | .bool _, s | .u64 _, s | .s64 _, s | .f64 _, s | .str _, s | .bytes _, s
  | .absent, s => ⟨[], by rw [buildValue]; rfl⟩
  | .list items, s => by
    rw [buildValue]
    exact exists_deeds_buildValues items s
  | .record fields, s => by
    rw [buildValue]
    exact exists_deeds_buildFields fields s
  | .present v, s => by
    rw [buildValue]
    exact exists_deeds_buildValue v s
  | .variant _ v, s => by
    rw [buildValue]
    exact exists_deeds_buildValue v s
  | .stream b, s => by
    rw [buildValue]
    exact exists_deeds_build b s

/-- Building values is nothing but deeds. -/
private theorem exists_deeds_buildValues : (vs : List (Value Blueprint)) → (s : Sources) →
    ∃ ds, (buildValues vs s).2 = s.after ds
  | [], s => ⟨[], by rw [buildValues]; rfl⟩
  | v :: vs, s => by
    rw [buildValues]
    exact Sources.exists_after_trans (exists_deeds_buildValue v s) (exists_deeds_buildValues vs _)

/-- Building fields is nothing but deeds. -/
private theorem exists_deeds_buildFields :
    (fields : List (String × Value Blueprint)) → (s : Sources) →
    ∃ ds, (buildFields fields s).2 = s.after ds
  | [], s => ⟨[], by rw [buildFields]; rfl⟩
  | (_, v) :: fields, s => by
    rw [buildFields]
    exact Sources.exists_after_trans (exists_deeds_buildValue v s)
      (exists_deeds_buildFields fields _)

end

end Blueprint

/-- Making the sources of an answer is nothing but deeds. -/
theorem Sources.exists_deeds_build (s : Sources) (v : DraftValue) :
    ∃ ds, (s.build v).2 = s.after ds :=
  Blueprint.exists_deeds_buildValue v s

end StreamRpc
