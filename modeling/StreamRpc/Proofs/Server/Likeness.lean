import StreamRpc.Proofs.Server.Schedule

/-! # Queues that differ in what cannot be read

Two brokers are alike if they differ only in what cannot be read in one mailbox, whose reader passes
over it.  Whatever anybody else does with the queues comes to the same in both, and leaves them
alike.

* `Broker.Alike.perform`     all that is done with the queues
* `Transport.Alike.send`     sending, whatever faults lie in wait
* `Broker.Alike.cleansed`    without what cannot be read, alike brokers are equal
-/

namespace StreamRpc

open Wire (Bytes)

/-- Two mailboxes have the same reader and the same legible payloads, and the same others too unless
    the reader passes over those. -/
structure Mailbox.Alike (noisy : Prop) (m m' : Mailbox) : Prop where
  readership : m'.readership = m.readership
  live : m'.live = m.live
  readable : m'.waiting.filter legible = m.waiting.filter legible
  exact : ¬ noisy → m'.waiting = m.waiting

/-- A legible envelope that is next is the first legible payload. -/
private theorem front_of_legible {ws : List Bytes} {p : Envelope × List Bytes}
    (h : nextEnvelope? ws = some p) (read : p.1.legible = true) :
    ∃ bs, Envelope.ofBytes bs = .ok p.1 ∧ ws.filter legible = bs :: p.2.filter legible := by
  obtain ⟨-, bs, hbs, hfilter⟩ := filter_legible_of_nextEnvelope h
  have hlegible : legible bs = true := by simpa only [legible, hbs] using read
  exact ⟨bs, hbs, by rw [hfilter, List.filter_singleton, hlegible]; rfl⟩

/-- An illegible envelope that is next stands before all legible payloads. -/
theorem front_of_illegible {ws : List Bytes} {p : Envelope × List Bytes}
    (h : nextEnvelope? ws = some p) (unread : p.1.legible = false) :
    p.2.filter legible = ws.filter legible := by
  obtain ⟨-, bs, hbs, hfilter⟩ := filter_legible_of_nextEnvelope h
  have hlegible : legible bs = false := by simpa only [legible, hbs] using unread
  rw [hfilter, List.filter_singleton, hlegible]
  rfl

namespace Mailbox.Alike

variable {noisy : Prop} {m m' m'' : Mailbox}

/-- A mailbox is like itself. -/
theorem refl (m : Mailbox) : Alike noisy m m :=
  ⟨rfl, rfl, rfl, fun _ => rfl⟩

/-- Likeness of mailboxes goes both ways. -/
theorem symm (h : Alike noisy m m') : Alike noisy m' m :=
  ⟨h.readership.symm, h.live.symm, h.readable.symm, fun hn => (h.exact hn).symm⟩

/-- Likeness of mailboxes carries on. -/
theorem trans (h : Alike noisy m m') (h' : Alike noisy m' m'') : Alike noisy m m'' :=
  ⟨h'.readership.trans h.readership, h'.live.trans h.live, h'.readable.trans h.readable,
    fun hn => (h'.exact hn).trans (h.exact hn)⟩

/-- Mailboxes that are alike without noise are the same. -/
private theorem eq_of_exact (h : Alike noisy m m') (hn : ¬ noisy) : m' = m := by
  obtain ⟨waiting, readership, live⟩ := m
  obtain ⟨waiting', readership', live'⟩ := m'
  obtain rfl : readership' = readership := h.readership
  obtain rfl : live' = live := h.live
  obtain rfl : waiting' = waiting := h.exact hn
  rfl

/-- What comes in, comes in behind the rest. -/
private theorem append (h : Alike noisy m m') (ws : List Bytes) : Alike noisy
    { m with waiting := m.waiting ++ ws } { m' with waiting := m'.waiting ++ ws } where
  readership := h.readership
  live := h.live
  readable := by rw [List.filter_append, List.filter_append, h.readable]
  exact := fun hn => by rw [h.exact hn]

/-- Nothing changes if something is taken off the front that cannot be read. -/
theorem of_legible {ws : List Bytes} (hn : noisy)
    (h : ws.filter legible = m.waiting.filter legible) : Alike noisy m { m with waiting := ws } :=
  ⟨rfl, rfl, h, fun hnot => absurd hn hnot⟩

/-- Once their readers have passed over what they cannot read, they find the same. -/
private theorem next (h : Alike noisy m m')
    (passed : ∀ e rest, nextEnvelope? m.waiting = some (e, rest) → e.legible = true)
    (passed' : ∀ e rest, nextEnvelope? m'.waiting = some (e, rest) → e.legible = true) :
    (nextEnvelope? m.waiting = none ∧ nextEnvelope? m'.waiting = none) ∨
      ∃ e rest rest', nextEnvelope? m.waiting = some (e, rest) ∧
        nextEnvelope? m'.waiting = some (e, rest') ∧
          rest'.filter legible = rest.filter legible := by
  cases hn : nextEnvelope? m.waiting with
  | none =>
    cases hn' : nextEnvelope? m'.waiting with
    | none => exact .inl ⟨rfl, rfl⟩
    | some p' =>
      obtain ⟨bs', -, hfront'⟩ := front_of_legible hn' (passed' _ _ hn')
      have hlegible := h.readable
      -- Then only one side would have a legible payload.
      rw [filter_legible_of_none hn, hfront'] at hlegible
      cases hlegible
  | some p =>
    obtain ⟨bs, hbs, hfront⟩ := front_of_legible hn (passed _ _ hn)
    have hlegible := h.readable
    rw [hfront] at hlegible
    cases hn' : nextEnvelope? m'.waiting with
    | none =>
      rw [filter_legible_of_none hn'] at hlegible
      cases hlegible
    | some p' =>
      -- both are the first legible payload of the same list
      obtain ⟨bs', hbs', hfront'⟩ := front_of_legible hn' (passed' _ _ hn')
      rw [hfront'] at hlegible
      obtain ⟨rfl, hrest⟩ := List.cons.inj hlegible
      have he : p'.1 = p.1 := Except.ok.inj (hbs'.symm.trans hbs)
      exact .inr ⟨p.1, p.2, p'.2, rfl, he ▸ rfl, hrest⟩

end Mailbox.Alike

/-- Mailboxes that are alike, one by one; the reader of this one passes over what it cannot read. -/
def BoxesAlike (own : Option MailboxId) (ms ms' : Std.ExtTreeMap Nat Mailbox) : Prop :=
  ∀ k, Option.Rel (Mailbox.Alike (own = some ⟨k⟩)) ms[k]? ms'[k]?

namespace BoxesAlike

variable {own : Option MailboxId} {ms ms' ms'' : Std.ExtTreeMap Nat Mailbox}

/-- Mailboxes are like themselves. -/
theorem refl (ms : Std.ExtTreeMap Nat Mailbox) : BoxesAlike own ms ms := by
  intro k
  cases ms[k]? with
  | none => exact .none
  | some m => exact .some (.refl m)

/-- Likeness of all mailboxes goes both ways. -/
theorem symm (h : BoxesAlike own ms ms') : BoxesAlike own ms' ms := by
  intro k
  have hk := h k
  generalize ms[k]? = o at hk ⊢
  generalize ms'[k]? = o' at hk ⊢
  cases hk with
  | none => exact .none
  | some hm => exact .some hm.symm

/-- Likeness of all mailboxes carries on. -/
theorem trans (h : BoxesAlike own ms ms') (h' : BoxesAlike own ms' ms'') :
    BoxesAlike own ms ms'' := by
  intro k
  have hk := h k
  have hk' := h' k
  -- The mailboxes at one key are compared, so the maps are forgotten.
  generalize ms[k]? = o at hk ⊢
  generalize ms'[k]? = o' at hk hk'
  generalize ms''[k]? = o'' at hk' ⊢
  cases hk with
  | none =>
    cases hk'
    exact .none
  | some hm =>
    cases hk' with
    | some hm' => exact .some (hm.trans hm')

/-- What one of the two has under a number, and what the other has under it. -/
private theorem found (h : BoxesAlike own ms ms') {k : Nat} {m : Mailbox} (hm : ms[k]? = some m) :
    ∃ m', ms'[k]? = some m' ∧ m.Alike (own = some ⟨k⟩) m' := by
  have hk := h k
  rw [hm] at hk
  -- `Option.Rel` has no case of a mailbox on one side only.
  cases hk' : ms'[k]? with
  | none =>
    rw [hk'] at hk
    cases hk
  | some m' =>
    rw [hk'] at hk
    cases hk with
    | some hmm => exact ⟨m', rfl, hmm⟩

/-- A mailbox that one broker has not, the other has not either. -/
private theorem missing (h : BoxesAlike own ms ms') {k : Nat} (hm : ms[k]? = none) :
    ms'[k]? = none := by
  have hk := h k
  rw [hm] at hk
  cases hk' : ms'[k]? with
  | none => rfl
  | some m' =>
    rw [hk'] at hk
    cases hk

/-- Mailboxes stay alike when alike ones are put in the same place. -/
private theorem insert (h : BoxesAlike own ms ms') (k : Nat) {m m' : Mailbox}
    (hm : m.Alike (own = some ⟨k⟩) m') : BoxesAlike own (ms.insert k m) (ms'.insert k m') := by
  intro j
  simp only [Std.ExtTreeMap.getElem?_insert, Nat.compare_eq_eq]
  by_cases hj : k = j
  · subst hj
    rw [if_pos rfl, if_pos rfl]
    exact .some hm
  · rw [if_neg hj, if_neg hj]
    exact h j

/-- One mailbox is replaced by one that is alike. -/
theorem replace {k : Nat} {m m' : Mailbox} (hk : ms[k]? = some m)
    (hm : m.Alike (own = some ⟨k⟩) m') : BoxesAlike own ms (ms.insert k m') := by
  intro j
  simp only [Std.ExtTreeMap.getElem?_insert, Nat.compare_eq_eq]
  by_cases hj : k = j
  · subst hj
    rw [if_pos rfl, hk]
    exact .some hm
  · rw [if_neg hj]
    exact refl ms j

/-- If the mailbox that makes the difference is the same, all are. -/
private theorem exact {id : MailboxId} (h : BoxesAlike (some id) ms ms')
    (same : ms'[id.index]? = ms[id.index]?) : BoxesAlike none ms ms' := by
  intro k
  -- Only the exempted mailbox may differ, and that one is the same by assumption.
  by_cases hk : id.index = k
  · subst hk
    rw [same]
    exact refl ms _
  · have hne : some id ≠ some (⟨k⟩ : MailboxId) := fun heq =>
      hk (congrArg MailboxId.index (Option.some.inj heq))
    cases hm : ms[k]? with
    | none =>
      rw [h.missing hm]
      exact .none
    | some m =>
      obtain ⟨m', hm', hmm⟩ := h.found hm
      rw [hm', hmm.eq_of_exact hne]
      exact .some (.refl m)

end BoxesAlike

namespace Broker

/-- Two brokers differ only in what cannot be read in this mailbox, if it is any. -/
structure Alike (own : Option MailboxId) (b b' : Broker) : Prop where
  queues : b'.queues = b.queues
  boxes : BoxesAlike own b.mailboxes b'.mailboxes
  nextMailbox : b'.nextMailbox = b.nextMailbox
  watchers : b'.watchers = b.watchers
  nextWatcher : b'.nextWatcher = b.nextWatcher

/-- What was refused was refused for the same reason, and what was done leaves these alike. -/
inductive SameResult {α β : Type} (R : α → β → Prop) :
    Except TransportError α → Except TransportError β → Prop where
  | refused (e : TransportError) : SameResult R (.error e) (.error e)
  | done {a : α} {b : β} (h : R a b) : SameResult R (.ok a) (.ok b)

namespace Alike

variable {own : Option MailboxId} {b b' b'' : Broker}

/-- A broker is like itself. -/
theorem refl (b : Broker) : Alike own b b :=
  ⟨rfl, .refl _, rfl, rfl, rfl⟩

/-- Likeness of brokers goes both ways. -/
theorem symm (h : Alike own b b') : Alike own b' b :=
  ⟨h.queues.symm, h.boxes.symm, h.nextMailbox.symm, h.watchers.symm, h.nextWatcher.symm⟩

/-- Likeness of brokers carries on. -/
theorem trans (h : Alike own b b') (h' : Alike own b' b'') : Alike own b b'' :=
  ⟨h'.queues.trans h.queues, h.boxes.trans h'.boxes, h'.nextMailbox.trans h.nextMailbox,
    h'.watchers.trans h.watchers, h'.nextWatcher.trans h.nextWatcher⟩

/-- Only the mailboxes differ. -/
private theorem eq_with (h : Alike own b b') : b' = { b with mailboxes := b'.mailboxes } := by
  obtain ⟨queues, mailboxes, nextMailbox, watchers, nextWatcher⟩ := b
  obtain ⟨queues', mailboxes', nextMailbox', watchers', nextWatcher'⟩ := b'
  obtain rfl : queues' = queues := h.queues
  obtain rfl : nextMailbox' = nextMailbox := h.nextMailbox
  obtain rfl : watchers' = watchers := h.watchers
  obtain rfl : nextWatcher' = nextWatcher := h.nextWatcher
  rfl

/-- Brokers stay alike when alike mailboxes are put in the same place. -/
private theorem setMailbox (h : Alike own b b') (id : MailboxId) {m m' : Mailbox}
    (hm : m.Alike (own = some id) m') : Alike own (b.setMailbox id m) (b'.setMailbox id m') :=
  ⟨h.queues, h.boxes.insert id.index hm, h.nextMailbox, h.watchers, h.nextWatcher⟩

/-- Under a name there is the same life of a queue in both, or none. -/
private theorem mailbox (h : Alike own b b') (name : String) :
    (b.mailbox? name = none ∧ b'.mailbox? name = none) ∨
      ∃ id m m', b.mailbox? name = some (id, m) ∧ b'.mailbox? name = some (id, m') ∧
        m.Alike (own = some id) m' := by
  simp only [mailbox?, h.queues, Option.bind_eq_bind]
  -- The names lead to the same ids on both sides, so only the mailboxes are compared.
  cases hq : b.queues[name]? with
  | none => exact .inl ⟨rfl, rfl⟩
  | some id =>
    simp only [Option.bind_some]
    cases hm : b.mailboxes[id.index]? with
    | none =>
      rw [h.boxes.missing hm]
      exact .inl ⟨rfl, rfl⟩
    | some m =>
      obtain ⟨m', hm', hmm⟩ := h.boxes.found hm
      rw [hm']
      exact .inr ⟨id, m, m', rfl, rfl, hmm⟩

/-! ## What is done with the queues -/

/-- Brokers that are alike answer a creation alike. -/
private theorem create (h : Alike own b b') (name : String) :
    SameResult (Alike own) (b.create name) (b'.create name) := by
  unfold Broker.create
  rw [h.queues, h.nextMailbox]
  split
  · exact .refused _
  · exact .done ⟨rfl, h.boxes.insert _ (.refl _), rfl, h.watchers, h.nextWatcher⟩

/-- Brokers that are alike answer a deletion alike. -/
private theorem delete (h : Alike own b b') (name : String) :
    SameResult (Alike own) (b.delete name) (b'.delete name) := by
  unfold Broker.delete
  obtain ⟨hm, hm'⟩ | ⟨id, m, m', hm, hm', hmm⟩ := h.mailbox name
  · rw [hm, hm']
    exact .refused _
  · simp only [hm, hm', h.queues, h.watchers]
    have hdead : { m with live := false }.Alike (own = some id) { m' with live := false } :=
      ⟨hmm.readership, rfl, hmm.readable, hmm.exact⟩
    exact .done ⟨rfl, h.boxes.insert _ hdead, h.nextMailbox, rfl, h.nextWatcher⟩

/-- Brokers that are alike answer a payload alike. -/
theorem sendRaw (h : Alike own b b') (name : String) (bytes : Bytes) :
    SameResult (Alike own) (b.sendRaw name bytes) (b'.sendRaw name bytes) := by
  unfold Broker.sendRaw
  obtain ⟨hm, hm'⟩ | ⟨id, m, m', hm, hm', hmm⟩ := h.mailbox name
  · rw [hm, hm']
    exact .refused _
  · simp only [hm, hm', hmm.readership]
    -- Whether the queue takes bytes depends on its readership, which is the same on both sides.
    split
    · exact .refused _
    · have happend := hmm.append [bytes]
      rw [hmm.readership] at happend
      exact .done (h.setMailbox id happend)

/-- Brokers that are alike answer a message alike. -/
private theorem send (h : Alike own b b') (name : String) (e : Envelope) :
    SameResult (Alike own) (b.send name e) (b'.send name e) := by
  unfold Broker.send
  cases e.toBytes with
  | error err => exact .refused _
  | ok bytes => exact h.sendRaw name bytes

/-- Brokers that are alike answer a consumer alike. -/
private theorem consume (h : Alike own b b') (name : String) :
    SameResult (fun p p' => p'.1 = p.1 ∧ Alike own p.2 p'.2) (b.consume name) (b'.consume name) := by
  unfold Broker.consume
  obtain ⟨hm, hm'⟩ | ⟨id, m, m', hm, hm', hmm⟩ := h.mailbox name
  · rw [hm, hm']
    exact .refused _
  · simp only [hm, hm', hmm.readership]
    -- A queue has one reader at a time, on both sides alike.
    split
    · have hclaimed : { m with readership := .claimed }.Alike (own = some id)
          { m' with readership := .claimed } := ⟨rfl, hmm.live, hmm.readable, hmm.exact⟩
      exact .done ⟨rfl, h.setMailbox id hclaimed⟩
    · exact .refused _

/-- The reader of another mailbox finds the same. -/
private theorem receive (h : Alike own b b') {id : MailboxId} (other : own ≠ some id) :
    Alike own (b.receive id).2 (b'.receive id).2 := by
  unfold Broker.receive
  cases hm : b.mailboxes[id.index]? with
  | none =>
    rw [h.boxes.missing hm]
    exact h
  | some m =>
    obtain ⟨m', hm', hmm⟩ := h.boxes.found hm
    -- in any other mailbox there is no difference, not even in what cannot be read
    obtain rfl := hmm.eq_of_exact other
    simp only [hm']
    split <;> exact h.setMailbox id (.refl _)

/-- What stood in a mailbox is gone with its reader. -/
private theorem dropReader (h : Alike own b b') (id : MailboxId) :
    Alike own (b.dropReader id) (b'.dropReader id) := by
  unfold Broker.dropReader
  cases hm : b.mailboxes[id.index]? with
  | none =>
    rw [h.boxes.missing hm]
    exact h
  | some m =>
    obtain ⟨m', hm', hmm⟩ := h.boxes.found hm
    simp only [hm']
    exact h.setMailbox id ⟨rfl, hmm.live, rfl, fun _ => rfl⟩

/-- Without a reader two mailboxes that differed do not differ any more. -/
theorem dropOwn {id : MailboxId} (h : Alike (some id) b b') :
    Alike none (b.dropReader id) (b'.dropReader id) := by
  have hdrop := h.dropReader id
  refine ⟨hdrop.queues, hdrop.boxes.exact ?_, hdrop.nextMailbox, hdrop.watchers,
    hdrop.nextWatcher⟩
  unfold Broker.dropReader
  -- A mailbox without its reader is emptied, so nothing is left in it to be unlike.
  cases hm : b.mailboxes[id.index]? with
  | none =>
    have hm' := h.boxes.missing hm
    simp only [hm, hm']
  | some m =>
    obtain ⟨m', hm', hmm⟩ := h.boxes.found hm
    simp only [hm', Broker.setMailbox, Std.ExtTreeMap.getElem?_insert_self, hmm.live]

/-- Their reader finds the same, once it has passed over what it cannot read. -/
theorem receiveOwn {id : MailboxId} (h : Alike (some id) b b')
    (passed : ∀ m e rest, b.mailboxes[id.index]? = some m →
      nextEnvelope? m.waiting = some (e, rest) → e.legible = true)
    (passed' : ∀ m e rest, b'.mailboxes[id.index]? = some m →
      nextEnvelope? m.waiting = some (e, rest) → e.legible = true) :
    (b'.receive id).1 = (b.receive id).1 ∧ Alike (some id) (b.receive id).2 (b'.receive id).2 := by
  unfold Broker.receive
  cases hm : b.mailboxes[id.index]? with
  | none =>
    rw [h.boxes.missing hm]
    exact ⟨rfl, h⟩
  | some m =>
    obtain ⟨m', hm', hmm⟩ := h.boxes.found hm
    simp only [hm']
    -- Both find the same envelope, or none.
    obtain ⟨hn, hn'⟩ | ⟨e, rest, rest', hn, hn', hrest⟩ :=
      hmm.next (passed m · · hm) (passed' m' · · hm')
    · simp only [hn, hn', hmm.live]
      exact ⟨trivial, h.setMailbox id ⟨hmm.readership, rfl, rfl, fun _ => rfl⟩⟩
    · simp only [hn, hn']
      exact ⟨trivial, h.setMailbox id ⟨hmm.readership, hmm.live, hrest, fun hnot =>
        absurd rfl hnot⟩⟩

/-- Of brokers that are alike the same mailboxes are read. -/
private theorem isRead (h : Alike own b b') (id : MailboxId) : b'.isRead id = b.isRead id := by
  unfold Broker.isRead
  cases hm : b.mailboxes[id.index]? with
  | none => rw [h.boxes.missing hm]
  | some m =>
    obtain ⟨m', hm', hmm⟩ := h.boxes.found hm
    simp only [hm', Option.any_some, hmm.readership]

/-- Nobody who watches has to do with mailboxes. -/
theorem departure (h : Alike own b b') (id : WatcherId) :
    (b.departure? id = none ∧ b'.departure? id = none) ∨
      ∃ name c c', b.departure? id = some (name, c) ∧ b'.departure? id = some (name, c') ∧
        Alike own c c' := by
  unfold departure?
  rw [h.watchers]
  -- The watchers are equal, so both brokers hear the same departure or none.
  cases b.watchers[id.index]? with
  | none => exact .inl ⟨rfl, rfl⟩
  | some w =>
    cases hd : w.departures with
    | nil =>
      simp only [hd]
      exact .inl ⟨trivial, trivial⟩
    | cons name rest =>
      simp only [hd]
      exact .inr ⟨name, _, _, rfl, rfl, h.queues, h.boxes, h.nextMailbox, rfl, h.nextWatcher⟩

/-- Brokers stay alike when the same watcher is dropped. -/
private theorem dropWatcher (h : Alike own b b') (id : WatcherId) :
    Alike own (b.dropWatcher id) (b'.dropWatcher id) := by
  unfold Broker.dropWatcher
  rw [h.watchers]
  cases b.watchers[id.index]? with
  | none => exact h
  | some w => exact ⟨h.queues, h.boxes, h.nextMailbox, rfl, h.nextWatcher⟩

/-- In brokers that are alike the same watchers listen. -/
private theorem isWatching (h : Alike own b b') (id : WatcherId) :
    b'.isWatching id = b.isWatching id := by
  rw [Broker.isWatching, h.watchers, Broker.isWatching]

/-- Brokers stay alike when results that are alike are settled. -/
private theorem settle (h : Alike own b b') {r r' : Except TransportError Broker}
    (hr : SameResult (Alike own) r r') : Alike own (b.settle r).2 (b'.settle r').2 := by
  cases hr with
  | refused e => exact h
  | done hd => exact hd

/-- Whatever is done, but with the reader of the mailbox in which they differ, leaves them alike. -/
theorem perform (h : Alike own b b') {d : Deed} (other : ∀ id, own = some id → d.uses id = false) :
    Alike own (b.perform d).2 (b'.perform d).2 := by
  -- The two do the same and refuse the same, as they have the same queues, readers and watchers.
  cases d with
  | create name => exact h.settle (h.create name)
  | delete name => exact h.settle (h.delete name)
  | send name e => exact h.settle (h.send name e)
  | sendRaw name bytes => exact h.settle (h.sendRaw name bytes)
  | consume name =>
    have hc := h.consume name
    simp only [Broker.perform]
    generalize b.consume name = r at hc ⊢
    generalize b'.consume name = r' at hc ⊢
    cases hc with
    | refused e => exact h
    | done hd => exact hd.2
  -- The own mailbox is not touched by deeds of others, so this one is alike in full.
  | receive id =>
    have hne : own ≠ some id := fun hown => by simpa [Deed.uses] using other id hown
    simp only [Broker.perform, h.isRead]
    split
    · exact h.receive hne
    · exact h
  | dropReader id =>
    simp only [Broker.perform, h.isRead]
    split
    · exact h.dropReader id
    · exact h
  | watch pattern =>
    exact ⟨h.queues, h.boxes, h.nextMailbox, by simp only [Broker.perform, watch, h.watchers,
      h.nextWatcher], by simp only [Broker.perform, watch, h.nextWatcher]⟩
  | hear id =>
    simp only [Broker.perform, h.isWatching]
    split
    · obtain ⟨hd, hd'⟩ | ⟨name, c, c', hd, hd', hcc⟩ := h.departure id
      · rw [hd, hd']
        exact h
      · rw [hd, hd']
        exact hcc
    · exact h
  | dropWatcher id =>
    simp only [Broker.perform, h.isWatching]
    split
    · exact h.dropWatcher id
    · exact h

end Alike

/-! ## Without what cannot be read -/

/-- The queues without what cannot be read in this mailbox. -/
def cleansed (own : Option MailboxId) (b : Broker) : Broker :=
  { b with mailboxes := b.mailboxes.map fun k m =>
      if own = some ⟨k⟩ then { m with waiting := m.waiting.filter legible } else m }

/-- Without what cannot be read, alike brokers are equal. -/
theorem Alike.cleansed {own : Option MailboxId} {b b' : Broker} (h : Alike own b b') :
    b'.cleansed own = b.cleansed own := by
  rw [h.eq_with]
  refine congrArg (fun ms => { b with mailboxes := ms }) (Std.ExtTreeMap.ext_getElem? fun k => ?_)
  simp only [Std.ExtTreeMap.getElem?_map]
  cases hm : b.mailboxes[k]? with
  | none => rw [h.boxes.missing hm]
  | some m =>
    obtain ⟨m', hm', hmm⟩ := h.boxes.found hm
    rw [hm', Option.map_some, Option.map_some]
    -- The own mailbox is cleansed of what cannot be read; the others are equal as they are.
    by_cases hown : own = some ⟨k⟩
    · simp only [if_pos hown, hmm.readable, hmm.readership, hmm.live]
    · simp only [if_neg hown, hmm.eq_of_exact hown]

end Broker

/-! ## On the way to the queues -/

/-- Two ways to queues that are alike have the same faults. -/
structure Transport.Alike (own : Option MailboxId) (t t' : Transport) : Prop where
  faults : t'.faults = t.faults
  broker : t.broker.Alike own t'.broker

/-- Once the noisy mailbox is dropped, the transports are alike without noise. -/
theorem Transport.Alike.dropOwn {id : MailboxId} {t t' : Transport} (h : t.Alike (some id) t') :
    (t.dropReader id).Alike none (t'.dropReader id) :=
  ⟨h.faults, h.broker.dropOwn⟩

/-- Transports stay alike when the same watcher is dropped. -/
theorem Transport.Alike.dropWatcher {own : Option MailboxId} {t t' : Transport}
    (h : t.Alike own t') (w : WatcherId) : (t.dropWatcher w).Alike own (t'.dropWatcher w) :=
  ⟨h.faults, h.broker.dropWatcher w⟩

/-- Sending comes to the same. -/
theorem Transport.Alike.send {own : Option MailboxId} {t t' : Transport} (h : t.Alike own t')
    (name : String) (e : Envelope) :
    (t'.send name e).1 = (t.send name e).1 ∧ (t.send name e).2.Alike own (t'.send name e).2 := by
  unfold Transport.send Transport.call
  rw [h.faults]
  -- The faults are the same, so both are struck or neither is.
  cases Fault.strike .send name t.faults with
  | mk struck faults =>
    cases struck with
    | some err => exact ⟨rfl, rfl, h.broker⟩
    | none =>
      have hs := h.broker.send name e
      dsimp only
      generalize t.broker.send name e = r at hs ⊢
      generalize t'.broker.send name e = r' at hs ⊢
      cases hs with
      | refused err => exact ⟨rfl, rfl, h.broker⟩
      | done hd => exact ⟨rfl, rfl, hd⟩

end StreamRpc
