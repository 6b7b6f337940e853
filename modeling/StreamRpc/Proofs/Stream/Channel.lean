import StreamRpc.Proofs.Stream.Feeding

/-! # How a channel ends

A channel ends in two ways, by a notification that ends the stream and by having no publishers left.
The trace of the channel decides which answer comes next, whatever the order was.

* `Sources.Carries.perform`      the table agrees with the trace after every deed
* `Sources.channel_ends_once`    every answer is the right one, and the end is for good
-/

namespace StreamRpc

namespace Sources

variable {s s' : Sources} {r : SourceRef} {p : PublisherId}

/-! ## The table and the trace agree -/

/-- What is in the table for a channel, after its trace. -/
inductive Entry (tr : ChannelTrace) : Source → Prop where
  /-- All that came out of the buffer were values. -/
  | going (vs : List ServerValue) {buffer : List (Notification ServerValue)}
      (pushed : tr.pushed = vs.map .next ++ buffer) (yielded : tr.yielded = vs.map .plain)
      (unended : .asked .ended ∉ tr) : Entry tr (.channel buffer false)
  /-- What is in the buffer does not count. -/
  | ended {buffer : List (Notification ServerValue)} (yielded : tr.yielded = itemsOf tr.pushed)
      (finished : tr.finished = true) : Entry tr (.channel buffer true)

/-- A channel is in the table and agrees with its trace, and so do its publishers; and the trace is
    as it should be. -/
structure Carries (tr : ChannelTrace) (r : SourceRef) (s : Sources) : Prop where
  known : r.key < s.nextKey
  entry : ∃ source, s.table[r.key]? = some source ∧ Entry tr source
  publishers : s.publishers.count (some r) + tr.countP ChannelEvent.isLeft =
    1 + tr.countP ChannelEvent.isJoined
  right : tr.Right
  lasting : tr.Lasting

variable {tr : ChannelTrace}

/-- The publishers the trace counts are those the sources hold for the channel. -/
private theorem Carries.count (h : Carries tr r s) :
    tr.publishers = s.publishers.count (some r) := by
  have := h.publishers
  simp only [ChannelTrace.publishers]
  omega

/-- What is done elsewhere keeps it so. -/
private theorem Carries.spared (h : Carries tr r s) (spares : Spares r s s') (grows : Grows s s')
    (kept : s'.live r = true) : Carries tr r s' where
  known := Nat.lt_of_lt_of_le h.known grows.nextKey
  entry := by
    rw [spares.entry kept]
    exact h.entry
  publishers := by
    rw [spares.publishers]
    exact h.publishers
  right := h.right
  lasting := h.lasting

/-- One more event, after which the table agrees again. -/
private theorem Carries.concat (h : Carries tr r s) {e : ChannelEvent} {source : Source}
    (nextKey : s'.nextKey = s.nextKey) (found : s'.table[r.key]? = some source)
    (entry : Entry (tr ++ [e]) source)
    (publishers : s'.publishers.count (some r) + (tr ++ [e]).countP ChannelEvent.isLeft =
      1 + (tr ++ [e]).countP ChannelEvent.isJoined)
    (next : ∀ a, e = .asked a → a = tr.answer ∧ (.asked .ended ∈ tr → a = .ended)) :
    Carries (tr ++ [e]) r s' where
  known := nextKey ▸ h.known
  entry := ⟨source, found, entry⟩
  publishers := publishers
  -- An answer has to be right when it is given; later events do not change that.
  right := h.right.concat fun a ha => (next a ha).1
  lasting := h.lasting.concat fun a ha => (next a ha).2

/-- The source was asked. -/
private theorem Carries.asked (h : Carries tr r s) {a : Poll} {source : Source}
    (polls : s.poll r = (a, s')) (same : s'.nextKey = s.nextKey ∧ s'.publishers = s.publishers)
    (found : s'.table[r.key]? = some source) (entry : Entry (tr ++ [.asked a]) source)
    (right : a = tr.answer) (lasting : .asked .ended ∈ tr → a = .ended) :
    Carries (tr ++ [.asked (s.poll r).1]) r (s.poll r).2 := by
  -- A poll is told of as what it answered; it moves no publisher.
  rw [polls]
  apply h.concat same.1 found entry
  · have := h.publishers
    rw [same.2]
    simpa using this
  · intro b hb
    obtain rfl := ChannelEvent.asked.inj hb
    exact ⟨right, lasting⟩

/-- A source that is set is found. -/
private theorem table_set_self (s : Sources) (r : SourceRef) (source : Source) :
    (s.set r source).table[r.key]? = some source := by
  simp [table_set]

/-- Nothing waits in the channel, which has not ended before. -/
private theorem Carries.poll_empty (h : Carries tr r s) {vs : List ServerValue}
    (found : s.table[r.key]? = some (.channel [] false)) (pushed : tr.pushed = vs.map .next ++ [])
    (yielded : tr.yielded = vs.map .plain) (unended : .asked .ended ∉ tr) :
    Carries (tr ++ [.asked (s.poll r).1]) r (s.poll r).2 := by
  have all : itemsOf tr.pushed = tr.yielded := by
    rw [pushed, yielded, itemsOf_values]
    simp [itemsOf]
  have unfinished : hasTerminal tr.pushed = false := by
    rw [pushed, List.append_nil, hasTerminal_values]
  have count := h.count
  -- With nothing to yield, the answer depends on whether anybody can still push something.
  by_cases fed : s.fed r = true
  · have fed' := fed_iff.1 fed
    have going : ¬tr.finished = true := by
      rw [ChannelTrace.finished_iff, unfinished]
      rintro (h | h)
      · cases h
      · omega
    have polls : s.poll r = (.pending, s) := by simp [Sources.poll, found, fed]
    apply h.asked polls ⟨rfl, rfl⟩ found
    · exact .going vs (by simpa using pushed) (by simpa using yielded) (by simpa using unended)
    · simp [ChannelTrace.answer_of_yielded all, going]
    · exact fun h => absurd h unended
  · have unfed := mt fed_iff.2 fed
    have finished : tr.finished = true := ChannelTrace.finished_iff.2 (.inr (by omega))
    -- The last publisher has left, so this poll is told of the end.
    have polls : s.poll r = (.ended, s.set r (.channel [] true)) := by
      simp [Sources.poll, found, fed]
    apply h.asked polls ⟨rfl, rfl⟩ (s.table_set_self r _)
    · exact .ended (by simp [all]) (by simpa using finished)
    · simp [ChannelTrace.answer_of_yielded all, finished]
    · exact fun _ => rfl

/-- Something waits in the channel, which has not ended before. -/
private theorem Carries.poll_waiting (h : Carries tr r s) {vs : List ServerValue}
    {n : Notification ServerValue} {buffer : List (Notification ServerValue)}
    (found : s.table[r.key]? = some (.channel (n :: buffer) false))
    (pushed : tr.pushed = vs.map .next ++ n :: buffer) (yielded : tr.yielded = vs.map .plain)
    (unended : .asked .ended ∉ tr) :
    Carries (tr ++ [.asked (s.poll r).1]) r (s.poll r).2 := by
  have items : itemsOf tr.pushed = tr.yielded ++ itemsOf (n :: buffer) := by
    rw [pushed, yielded, itemsOf_values]
  have finished (terminal : n.terminal = true) : tr.finished = true :=
    ChannelTrace.finished_iff.2 (.inl (by simp [pushed, hasTerminal, terminal]))
  -- What waits first is the next item that is due, or it ends the stream.
  cases n with
  | next v =>
    have polls : s.poll r = (.item (.plain v), s.set r (.channel buffer false)) := by
      simp [Sources.poll, found, Emission.plain]
    apply h.asked polls ⟨rfl, rfl⟩ (s.table_set_self r _)
    · exact .going (vs ++ [v]) (by simp [pushed]) (by simp [yielded]) (by simpa using unended)
    · exact (ChannelTrace.answer_of_left items).symm
    · exact fun h => absurd h unended
  | error f =>
    have polls : s.poll r = (.item { outcome := .error f }, s.set r (.channel buffer true)) := by
      simp [Sources.poll, found]
    apply h.asked polls ⟨rfl, rfl⟩ (s.table_set_self r _)
    · exact .ended (by simp [items, itemsOf]) (by simpa using finished rfl)
    · exact (ChannelTrace.answer_of_left items).symm
    · exact fun h => absurd h unended
  -- A completion is no item, so the end is the answer.
  | completed =>
    have all : itemsOf tr.pushed = tr.yielded := by simpa [itemsOf] using items
    have polls : s.poll r = (.ended, s.set r (.channel buffer true)) := by
      simp [Sources.poll, found]
    apply h.asked polls ⟨rfl, rfl⟩ (s.table_set_self r _)
    · exact .ended (by simp [all]) (by simpa using finished rfl)
    · simp [ChannelTrace.answer_of_yielded all, finished rfl]
    · exact fun _ => rfl

/-- Asking the source gives the answer that the trace says. -/
private theorem Carries.poll (h : Carries tr r s) :
    Carries (tr ++ [.asked (s.poll r).1]) r (s.poll r).2 := by
  obtain ⟨source, found, entry⟩ := h.entry
  -- What a poll does depends on whether the end has been yielded and on what is buffered.
  cases entry with
  | ended yielded finished =>
    have polls : s.poll r = (.ended, s) := by simp [Sources.poll, found]
    apply h.asked polls ⟨rfl, rfl⟩ found
    · exact .ended (by simpa using yielded) (by simpa using finished)
    · rw [ChannelTrace.answer_of_yielded yielded.symm, if_pos finished]
    · exact fun _ => rfl
  | @going vs buffer pushed yielded unended =>
    cases buffer with
    | nil => exact h.poll_empty found pushed yielded unended
    | cons n buffer => exact h.poll_waiting found pushed yielded unended

/-- A publisher pushed something, and somebody listens. -/
private theorem Carries.push (h : Carries tr r s) (fed : s.fed r = true)
    (n : Notification ServerValue) :
    (s.push r n).1 = true ∧ Carries (tr ++ [.pushed n]) r (s.push r n).2 := by
  obtain ⟨source, found, entry⟩ := h.entry
  have publishers : s.publishers.count (some r) +
      (tr ++ [ChannelEvent.pushed n]).countP ChannelEvent.isLeft =
        1 + (tr ++ [ChannelEvent.pushed n]).countP ChannelEvent.isJoined := by
    simpa using h.publishers
  cases entry with
  -- As long as the channel goes on, what is pushed waits at the end of the buffer.
  | @going vs buffer pushed yielded unended =>
    have pushes : s.push r n = (true, s.set r (.channel (buffer ++ [n]) false)) := by
      simp [Sources.push, found]
    have entry : Entry (tr ++ [.pushed n]) (.channel (buffer ++ [n]) false) :=
      .going vs (by simp [pushed]) (by simpa using yielded) (by simpa using unended)
    rw [pushes]
    exact ⟨rfl, h.concat rfl (s.table_set_self r _) entry publishers nofun⟩
  | @ended buffer yielded finished =>
    have pushes : s.push r n = (true, s.set r (.channel (buffer ++ [n]) true)) := by
      simp [Sources.push, found]
    -- there is a publisher, so the channel was ended by what was pushed
    have terminal : hasTerminal tr.pushed = true := by
      have := fed_iff.1 fed
      have := h.count
      rcases ChannelTrace.finished_iff.1 finished with terminal | unfed
      · exact terminal
      · omega
    have entry : Entry (tr ++ [.pushed n]) (.channel (buffer ++ [n]) true) :=
      .ended (by simpa [itemsOf_append terminal] using yielded)
        (by simp [ChannelTrace.finished, terminal])
    rw [pushes]
    exact ⟨rfl, h.concat rfl (s.table_set_self r _) entry publishers nofun⟩

/-- What neither pushes nor asks. -/
private theorem Entry.quiet {source : Source} (entry : Entry tr source) {e : ChannelEvent}
    (pushes : e.pushed? = none) (asks : ∀ a, e ≠ .asked a)
    (finished : tr.finished = true → ChannelTrace.finished (tr ++ [e]) = true) :
    Entry (tr ++ [e]) source := by
  have pushed_eq : ChannelTrace.pushed (tr ++ [e]) = tr.pushed := by
    rw [ChannelTrace.pushed_concat, pushes]
    exact List.append_nil _
  have yielded_eq : ChannelTrace.yielded (tr ++ [e]) = tr.yielded := by
    cases e with
    | asked a => exact absurd rfl (asks a)
    | _ => simp
  -- Nothing is pushed and nothing is asked, so the buffer is still the difference of the two.
  cases entry with
  | going vs pushed yielded unended =>
    exact .going vs (pushed_eq.trans pushed) (yielded_eq.trans yielded)
      (by simp [unended, (asks _).symm])
  | ended yielded finished' =>
    exact .ended (by rw [pushed_eq, yielded_eq, yielded]) (finished finished')

/-- A publisher is gone. -/
private theorem Carries.leave (h : Carries tr r s) (feeds : s.channelOf? p = some r) :
    Carries (tr ++ [.left]) r (s.removePublisher p) := by
  obtain ⟨source, found, entry⟩ := h.entry
  have count := s.count_removePublisher p r
  rw [if_pos feeds] at count
  have before := h.publishers
  refine h.concat rfl found (entry.quiet rfl nofun ?_) ?_ nofun
  · rw [ChannelTrace.finished_iff, ChannelTrace.finished_iff, ChannelTrace.publishers_left]
    -- With one publisher fewer the channel can only become finished.
    rintro (terminal | unfed)
    · exact .inl (by simp [terminal])
    · exact .inr (by omega)
  · have one : (tr ++ [ChannelEvent.left]).countP ChannelEvent.isLeft =
        tr.countP ChannelEvent.isLeft + 1 := by simp
    have none_joins : (tr ++ [ChannelEvent.left]).countP ChannelEvent.isJoined =
        tr.countP ChannelEvent.isJoined := by simp
    omega

/-- There is one publisher more. -/
private theorem Carries.join (h : Carries tr r s) (feeds : s.channelOf? p = some r) :
    Carries (tr ++ [.joined]) r (s.clonePublisher p).2 := by
  obtain ⟨source, found, entry⟩ := h.entry
  have before := h.publishers
  have present : 0 < s.publishers.count (some r) :=
    List.count_pos_iff.2 (List.mem_of_getElem? (channelOf?_eq_some.1 feeds))
  have count : (s.clonePublisher p).2.publishers.count (some r) =
      s.publishers.count (some r) + 1 := by
    show (s.publishers ++ [s.channelOf? p]).count (some r) = _
    simp [feeds]
  refine h.concat rfl found (entry.quiet rfl nofun ?_) ?_ nofun
  · rw [ChannelTrace.finished_iff, ChannelTrace.finished_iff]
    -- A publisher that joins is cloned from one that is there, so the channel had not run dry.
    rintro (terminal | unfed)
    · exact .inl (by simp [terminal])
    · have := h.count
      omega
  · have none_leaves : (tr ++ [ChannelEvent.joined]).countP ChannelEvent.isLeft =
        tr.countP ChannelEvent.isLeft := by simp
    have one : (tr ++ [ChannelEvent.joined]).countP ChannelEvent.isJoined =
        tr.countP ChannelEvent.isJoined + 1 := by simp
    omega

/-! ## What deeds do to a channel -/

/-- A channel with a publisher is fed. -/
private theorem fed_of_channelOf? (feeds : s.channelOf? p = some r) : s.fed r = true :=
  fed_iff.2 (List.count_pos_iff.2 (List.mem_of_getElem? (channelOf?_eq_some.1 feeds)))

/-- A publisher pushes its last notification. -/
private theorem Carries.finish (h : Carries tr r s) (feeds : s.channelOf? p = some r)
    (n : Notification ServerValue) :
    Carries (tr ++ [.pushed n, .left]) r (s.finish p n).2 := by
  have pushed := (h.push (fed_of_channelOf? feeds) n).2
  have left := pushed.leave (p := p) (by rwa [channelOf?_push])
  simp only [Sources.finish, feeds]
  simpa using left

/-- Every deed keeps it so, as long as the channel is not dropped. -/
theorem Carries.perform (h : Carries tr r s) (d : Deed) (kept : (s.perform d).live r = true) :
    Carries (tr ++ s.told r d) r (s.perform d) := by
  -- A deed of which the channel tells nothing does not touch it.
  by_cases quiet : s.told r d = []
  · rw [quiet, List.append_nil]
    exact h.spared (spares_perform h.known quiet) (s.grows_perform d) kept
  cases d with
  | insert source => exact absurd rfl quiet
  -- These never concern a channel that is already there.
  | openChannel => exact absurd rfl quiet
  | drop rs => exact absurd rfl quiet
  | poll q =>
    obtain ⟨rfl, -⟩ := ite_ne_right_iff.1 quiet
    rw [show s.told q (.poll q) = [.asked (s.poll q).1] from if_pos rfl]
    exact h.poll
  | publish p v =>
    obtain ⟨feeds, -⟩ := ite_ne_right_iff.1 quiet
    rw [show s.told r (.publish p v) = [.pushed (.next v)] from if_pos feeds]
    simp only [Sources.perform, publish, feeds]
    exact (h.push (fed_of_channelOf? feeds) (.next v)).2
  | fail p f =>
    obtain ⟨feeds, -⟩ := ite_ne_right_iff.1 quiet
    rw [show s.told r (.fail p f) = [.pushed (.error f), .left] from if_pos feeds]
    exact h.finish feeds (.error f)
  | complete p =>
    obtain ⟨feeds, -⟩ := ite_ne_right_iff.1 quiet
    rw [show s.told r (.complete p) = [.pushed .completed, .left] from if_pos feeds]
    exact h.finish feeds .completed
  | dropPublisher p =>
    obtain ⟨feeds, -⟩ := ite_ne_right_iff.1 quiet
    rw [show s.told r (.dropPublisher p) = [.left] from if_pos feeds]
    exact h.leave feeds
  | clonePublisher p =>
    obtain ⟨feeds, -⟩ := ite_ne_right_iff.1 quiet
    rw [show s.told r (.clonePublisher p) = [.joined] from if_pos feeds]
    exact h.join feeds

/-- Whatever is done keeps the table and the trace of a channel in agreement. -/
private theorem Carries.after (h : Carries tr r s) {ds : List Deed}
    (kept : (s.after ds).live r = true) :
    Carries (tr ++ s.traceOf r ds) r (s.after ds) := by
  -- A channel that is there at the end was there after every deed.
  induction ds generalizing s tr with
  | nil => simpa [traceOf] using h
  | cons d ds ih =>
    have known := Nat.lt_of_lt_of_le h.known (s.grows_perform d).nextKey
    have step := h.perform d ((grows_after _ ds).live r known kept)
    rw [traceOf, ← List.append_assoc]
    exact ih step kept

/-- Nothing has been pushed into a new channel, and it has one publisher. -/
private theorem carries_openChannel (grown : Grows {} s) :
    Carries [] s.openChannel.1 s.openChannel.2 where
  known := Nat.lt_succ_self _
  entry := by
    refine ⟨.channel [] false, (s.table_insert _ _).trans (if_pos rfl), ?_⟩
    exact .going [] rfl rfl List.not_mem_nil
  publishers := by
    -- A new channel has a key that no publisher names yet.
    have fresh : some s.openChannel.1 ∉ s.publishers := by
      intro h
      rcases grown.publishers _ h with h | ⟨-, new⟩
      · exact absurd h List.not_mem_nil
      · exact Nat.lt_irrefl _ new
    show (s.publishers ++ [some s.openChannel.1]).count (some s.openChannel.1) + 0 = 1 + 0
    simp [List.count_eq_zero.2 fresh]
  right pre a post split := by simp at split
  lasting pre post split := by simp at split

/-! ## Every answer and the end -/

/-- What was yielded is from the start of what there is to yield. -/
private theorem Carries.yielded (h : Carries tr r s) : tr.yielded <+: itemsOf tr.pushed := by
  obtain ⟨source, -, entry⟩ := h.entry
  cases entry with
  | going vs pushed yielded =>
    rw [pushed, yielded, itemsOf_values]
    exact List.prefix_append _ _
  | ended yielded => exact yielded ▸ List.prefix_refl _

/-- Asking again and again yields the items one by one. -/
private theorem Carries.yielded_polls (h : Carries tr r s) (k : Nat) :
    (tr ++ s.traceOf r (List.replicate k (.poll r))).yielded =
      (itemsOf tr.pushed).take (tr.yielded.length + k) := by
  -- On how often it is asked; the first answer is the next item, if there is one left.
  induction k generalizing s tr with
  | zero => simpa [traceOf] using (List.prefix_iff_eq_take.1 h.yielded)
  | succ k ih =>
    have asked := h.poll
    have next : (s.poll r).1 = tr.answer := asked.right tr _ [] rfl
    have step := ih asked
    rw [List.append_assoc] at step
    have told : s.told r (.poll r) = [.asked (s.poll r).1] := if_pos rfl
    rw [List.replicate_succ, traceOf, told, Sources.perform, step, ChannelTrace.pushed_concat,
      ChannelTrace.yielded_concat, next]
    simp only [ChannelEvent.pushed?, Option.toList_none, List.append_nil]
    cases left : (itemsOf tr.pushed)[tr.yielded.length]? with
    | some e =>
      have item : (ChannelEvent.asked tr.answer).yielded? = some e := by
        simp [ChannelTrace.answer, left]
      rw [item, Option.toList_some, List.length_append, List.length_singleton, Nat.add_assoc,
        Nat.add_comm 1 k]
    | none =>
      -- all items are out, and there is no other to take
      have all : (itemsOf tr.pushed).length ≤ tr.yielded.length := List.getElem?_eq_none_iff.1 left
      have nothing : (ChannelEvent.asked tr.answer).yielded? = none := by
        simp only [ChannelTrace.answer, left]
        split
        · rfl
        · rfl
      rw [nothing, Option.toList_none, List.append_nil, List.take_of_length_le (by omega),
        List.take_of_length_le (by omega)]

/-- A channel with one publisher or many, into which anything is pushed in any order, while it is
    asked now and then.  Every answer of the source is the next item that is due, else that it has
    ended, if the stream was ended by what was pushed or there are no publishers left, else that
    there is nothing now; and the end is for good.  What is due are the values up to the first
    notification that ends the stream, and its failure, and all of it comes out if it is asked for.
    What is pushed later is taken, and does not count. -/
theorem channel_ends_once {past : List Deed} {r : SourceRef} {s : Sources}
    (opened : (({} : Sources).after past).openChannel = (r, s)) (ds : List Deed)
    (kept : (s.after ds).live r = true) :
    (s.traceOf r ds).Right ∧ (s.traceOf r ds).Lasting ∧
      (s.traceOf r ds).yielded <+: itemsOf (s.traceOf r ds).pushed ∧
      (∀ k, (s.traceOf r (ds ++ List.replicate k (.poll r))).yielded =
        (itemsOf (s.traceOf r ds).pushed).take ((s.traceOf r ds).yielded.length + k)) ∧
      (∀ (vs : List ServerValue) n rest,
        (s.traceOf r ds).pushed = vs.map .next ++ n :: rest → n.terminal = true →
        (s.traceOf r ds).finished = true ∧
          itemsOf (s.traceOf r ds).pushed = vs.map .plain ++ itemsOf [n]) ∧
      (s.traceOf r ds).publishers = (s.after ds).publishers.count (some r) ∧
      ∀ p v, (s.after ds).channelOf? p = some r → ((s.after ds).publish p v).1 = some true := by
  have start : Carries [] r s := by
    have := carries_openChannel (grows_after {} past)
    rwa [opened] at this
  -- The channel is there all the time, so each deed keeps what its trace says.
  have h : Carries (s.traceOf r ds) r (s.after ds) := start.after kept
  refine ⟨h.right, h.lasting, h.yielded, fun k => ?_, fun vs n rest pushed terminal => ?_, h.count,
    fun p v feeds => ?_⟩
  · rw [traceOf_append]
    exact h.yielded_polls k
  -- Of what was pushed, nothing behind the first end comes out.
  · have ends : hasTerminal [n] = true := by simp [hasTerminal, terminal]
    have first : itemsOf (n :: rest) = itemsOf [n] := itemsOf_append ends rest
    rw [pushed, itemsOf_values, first]
    refine ⟨ChannelTrace.finished_iff.2 (.inl ?_), rfl⟩
    simp [pushed, hasTerminal, terminal]
  · simp only [publish, feeds]
    exact congrArg some (h.push (fed_of_channelOf? feeds) (.next v)).1

/-- Two publishers feed a channel.  One completes it, and what the other pushes after that does not
    come out. -/
theorem channel_ends_once_two_publishers :
    let ds : List Deed := [.clonePublisher ⟨0⟩, .publish ⟨0⟩ (.u64 1), .complete ⟨1⟩,
      .publish ⟨0⟩ (.u64 2), .poll ⟨0⟩, .poll ⟨0⟩]
    let s := (({} : Sources).after []).openChannel.2
    (s.after ds).live ⟨0⟩ = true ∧ (s.traceOf ⟨0⟩ ds).Right ∧
      (s.traceOf ⟨0⟩ ds).yielded = [.plain (.u64 1)] ∧
      (s.traceOf ⟨0⟩ ds).pushed = [.next (.u64 1), .completed, .next (.u64 2)] := by
  intro ds s
  -- One publisher completes the channel while the other goes on publishing.
  have kept : (s.after ds).live ⟨0⟩ = true := by decide +kernel
  have opened : (({} : Sources).after []).openChannel = (⟨0⟩, s) := rfl
  exact ⟨kept, (channel_ends_once opened ds kept).1, rfl, rfl⟩

end Sources

end StreamRpc
