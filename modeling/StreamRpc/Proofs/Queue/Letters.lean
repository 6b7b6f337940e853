import StreamRpc.Proofs.Envelope
import StreamRpc.Queue.Transport

/-! # What waits in a mailbox

The envelopes that wait in a mailbox are those that were sent to it and not yet taken, in order.
Every operation on queues does what it does to one mailbox and leaves the others alone.

* `Broker.Sound`        what holds of the queues
* `Broker.letters`      the envelopes that wait in a mailbox
* `Transport.send_cases`, `Transport.receive_envelope`, `Transport.deleteQueue_cases`
                        what the operations do when there are no faults
-/

namespace StreamRpc

open Wire (Bytes)

/-- The envelopes that wait in a mailbox, oldest first. -/
def Mailbox.letters (m : Mailbox) : List Envelope :=
  m.waiting.filterMap fun bs => (Envelope.ofBytes bs).toOption

/-- The next envelope is the first legible one, and what it skips over is illegible. -/
theorem nextEnvelope?_eq (waiting : List Bytes) :
    match nextEnvelope? waiting with
    | some (e, rest) => waiting.filterMap (fun bs => (Envelope.ofBytes bs).toOption) =
        e :: rest.filterMap fun bs => (Envelope.ofBytes bs).toOption
    | none => waiting.filterMap (fun bs => (Envelope.ofBytes bs).toOption) = [] := by
  induction waiting with
  | nil => rfl
  | cons bs waiting ih =>
    unfold nextEnvelope?
    -- What cannot be read counts as no letter, so passing it by changes none.
    cases hbs : Envelope.ofBytes bs with
    | ok e => simp [hbs, Except.toOption]
    | error err =>
      have hcons : (bs :: waiting).filterMap (fun bs => (Envelope.ofBytes bs).toOption) =
          waiting.filterMap fun bs => (Envelope.ofBytes bs).toOption := by
        simp [hbs, Except.toOption]
      simp only [hcons]
      exact ih

namespace Broker

/-- The envelopes that wait in a mailbox, oldest first. -/
def letters (b : Broker) (id : MailboxId) : List Envelope :=
  (b.mailboxes[id.index]?).elim [] Mailbox.letters

/-- Somebody reads the queue of this name through this mailbox. -/
structure Reads (b : Broker) (name : String) (id : MailboxId) : Prop where
  queue : b.queues[name]? = some id
  mailbox : ∃ m, b.mailboxes[id.index]? = some m ∧ m.readership = .claimed ∧ m.live = true

/-- No two queues are in one life, and numbers from the next one on are not in use. -/
structure Sound (b : Broker) : Prop where
  apart : ∀ (name other : String) (id : MailboxId), b.queues[name]? = some id →
    b.queues[other]? = some id → name = other
  mailboxes : ∀ (k : Nat) (m : Mailbox), b.mailboxes[k]? = some m → k < b.nextMailbox
  queues : ∀ (name : String) (id : MailboxId), b.queues[name]? = some id →
    ∃ m, b.mailboxes[id.index]? = some m
  watchers : ∀ (k : Nat) (w : Watcher), b.watchers[k]? = some w → k < b.nextWatcher

/-- The empty broker is sound. -/
theorem sound_empty : Sound {} where
  apart name other id h := by simp at h
  mailboxes k m h := by simp at h
  queues name id h := by simp at h
  watchers k w h := by simp at h

/-- A queue's mailbox has been made. -/
theorem Sound.lt {b : Broker} (h : b.Sound) {name : String} {id : MailboxId}
    (hq : b.queues[name]? = some id) : id.index < b.nextMailbox := by
  obtain ⟨m, hm⟩ := h.queues name id hq
  exact h.mailboxes id.index m hm

/-- A mailbox is its index. -/
theorem index_inj {id other : MailboxId} (h : id.index = other.index) : id = other := by
  cases id
  cases other
  exact congrArg MailboxId.mk h

/-! ## One mailbox -/

/-- Setting a mailbox changes the entry at its own index only. -/
theorem mailboxes_set (b : Broker) (id : MailboxId) (m : Mailbox) (k : Nat) :
    (b.setMailbox id m).mailboxes[k]? = if id.index = k then some m else b.mailboxes[k]? := by
  show (b.mailboxes.insert id.index m)[k]? = _
  rw [Std.ExtTreeMap.getElem?_insert]
  simp only [Std.compare_eq_iff_eq]

/-- Setting a mailbox changes its own letters only. -/
theorem letters_set (b : Broker) (id other : MailboxId) (m : Mailbox) :
    (b.setMailbox id m).letters other = if id = other then m.letters else b.letters other := by
  unfold letters
  rw [mailboxes_set]
  by_cases h : id = other
  · subst h
    simp
  · have hi : ¬ id.index = other.index := fun hi => h (index_inj hi)
    simp [h, hi]

/-- Replacing a mailbox that exists keeps a broker sound. -/
theorem Sound.setMailbox {b : Broker} (h : b.Sound) {id : MailboxId} {m : Mailbox}
    (hm : b.mailboxes[id.index]? = some m) (m' : Mailbox) : (b.setMailbox id m').Sound where
  apart := h.apart
  -- The mailbox keeps its number and its queue, whatever is in it.
  mailboxes k x hx := by
    rw [mailboxes_set] at hx
    split at hx
    · next hk => exact hk ▸ h.mailboxes _ m hm
    · exact h.mailboxes k x hx
  queues name other hq := by
    obtain ⟨x, hx⟩ := h.queues name other hq
    rw [mailboxes_set]
    split
    · exact ⟨m', rfl⟩
    · exact ⟨x, hx⟩
  watchers := h.watchers

/-- Replacing a mailbox by one that is still claimed and live keeps it read. -/
theorem Reads.setMailbox {b : Broker} {name : String} {id other : MailboxId}
    (h : b.Reads name other) (m' : Mailbox)
    (hm : id = other → m'.readership = .claimed ∧ m'.live = true) :
    (b.setMailbox id m').Reads name other where
  queue := h.queue
  mailbox := by
    obtain ⟨m, hm₁, hm₂⟩ := h.mailbox
    rw [mailboxes_set]
    -- If it is the reader's own mailbox, it has to stay claimed and alive.
    by_cases hid : id = other
    · rw [if_pos (congrArg MailboxId.index hid)]
      exact ⟨m', rfl, hm hid⟩
    · rw [if_neg fun hi => hid (index_inj hi)]
      exact ⟨m, hm₁, hm₂⟩

/-- A queue's mailbox is the one at the index its name stands for. -/
theorem mailbox?_eq_some {b : Broker} {name : String} {id : MailboxId} {m : Mailbox} :
    b.mailbox? name = some (id, m) ↔
      b.queues[name]? = some id ∧ b.mailboxes[id.index]? = some m := by
  unfold mailbox?
  -- The name leads to a number, and the number to a mailbox.
  cases hq : b.queues[name]? with
  | none => simp
  | some i =>
    cases hm : b.mailboxes[i.index]? with
    | none =>
      simp only [Option.bind_eq_bind, Option.bind_some, hm, Option.bind_none, reduceCtorEq,
        Option.some.injEq, false_iff, not_and]
      rintro rfl h
      rw [hm] at h
      cases h
    | some m' =>
      simp only [Option.bind_eq_bind, Option.bind_some, hm, Option.pure_def, Option.some.injEq,
        Prod.mk.injEq]
      refine and_congr_right ?_
      rintro rfl
      rw [hm, Option.some.injEq]

/-! ## Leaving and deleting -/

/-- Dropping a reader changes nothing or replaces its mailbox. -/
theorem dropReader_cases (b : Broker) (id : MailboxId) :
    b.dropReader id = b ∨ ∃ m m', b.mailboxes[id.index]? = some m ∧
      b.dropReader id = b.setMailbox id m' := by
  unfold dropReader
  cases hm : b.mailboxes[id.index]? with
  | none => exact .inl rfl
  | some m => exact .inr ⟨m, _, rfl, rfl⟩

/-- The queues without the one of this name, which was in this mailbox. -/
def without (b : Broker) (name : String) (id : MailboxId) (m : Mailbox) : Broker :=
  { b with
    queues := b.queues.erase name
    mailboxes := b.mailboxes.insert id.index { m with live := false }
    watchers :=
      (b.watchers.filter fun _ w => Watcher.stays name w).map fun _ w => Watcher.tell name w }

/-- Deleting a queue removes its own name only. -/
theorem queues_without (b : Broker) (name other : String) (id : MailboxId) (m : Mailbox) :
    (b.without name id m).queues[other]? = if name = other then none else b.queues[other]? := by
  show (b.queues.erase name)[other]? = _
  rw [Std.ExtTreeMap.getElem?_erase]
  simp only [Std.LawfulEqCmp.compare_eq_iff_eq]

/-- A deletion tells every watcher that stays, and prunes the others. -/
theorem watchers_without (b : Broker) (name : String) (id : MailboxId) (m : Mailbox) (k : Nat) :
    (b.without name id m).watchers[k]? =
      ((b.watchers[k]?).filter (Watcher.stays name)).map (Watcher.tell name) := by
  show ((b.watchers.filter _).map _)[k]? = _
  rw [Std.ExtTreeMap.getElem?_map, Std.ExtTreeMap.getElem?_filter']

/-- Deleting a queue keeps the letters that were waiting in it. -/
theorem letters_without (b : Broker) {name : String} {id : MailboxId} {m : Mailbox}
    (hm : b.mailboxes[id.index]? = some m) (other : MailboxId) :
    (b.without name id m).letters other = b.letters other := by
  -- Deleting a queue leaves what is in its mailbox to the reader.
  have hset : (b.without name id m).letters other =
      (b.setMailbox id { m with live := false }).letters other := rfl
  rw [hset, letters_set]
  split
  · next h =>
    subst h
    simp [letters, hm, Mailbox.letters]
  · rfl

/-- Deleting a queue keeps a broker sound. -/
theorem Sound.without {b : Broker} (h : b.Sound) {name : String} {id : MailboxId} {m : Mailbox}
    (hm : b.mailboxes[id.index]? = some m) : (b.without name id m).Sound where
  apart n other i hn ho := by
    rw [queues_without] at hn ho
    split at hn
    · cases hn
    · split at ho
      · cases ho
      · exact h.apart n other i hn ho
  mailboxes := (h.setMailbox hm { m with live := false }).mailboxes
  queues n i hn := by
    rw [queues_without] at hn
    split at hn
    · cases hn
    · exact (h.setMailbox hm { m with live := false }).queues n i hn
  -- Watchers are told or pruned, and never made.
  watchers k w hw := by
    rw [watchers_without, Option.map_eq_some_iff] at hw
    obtain ⟨w', hw', -⟩ := hw
    exact h.watchers k w' (Option.filter_eq_some_iff.1 hw').1

/-- Deleting one queue leaves the readers of the others alone. -/
theorem Reads.without {b : Broker} (hs : b.Sound) {name other : String} {id i : MailboxId}
    {m : Mailbox} (h : b.Reads other i) (hq : b.queues[name]? = some id) (hne : name ≠ other) :
    (b.without name id m).Reads other i where
  queue := by
    rw [queues_without, if_neg hne]
    exact h.queue
  mailbox := by
    -- Two queues never share a mailbox.
    have hid : id ≠ i := by
      rintro rfl
      exact hne (hs.apart name other id hq h.queue)
    exact (h.setMailbox { m with live := false } fun he => absurd he hid).mailbox

/-! ## Joining -/

/-- The queues with one more, its reader and a watcher. -/
def joined (b : Broker) (name pattern : String) : Broker :=
  { queues := b.queues.insert name ⟨b.nextMailbox⟩
    mailboxes :=
      (b.mailboxes.insert b.nextMailbox {}).insert b.nextMailbox { readership := .claimed }
    nextMailbox := b.nextMailbox + 1
    watchers := b.watchers.insert b.nextWatcher { pattern }
    nextWatcher := b.nextWatcher + 1 }

/-- A client that joins adds the name of its own queue only. -/
theorem queues_joined (b : Broker) (name pattern other : String) :
    (b.joined name pattern).queues[other]? =
      if name = other then some ⟨b.nextMailbox⟩ else b.queues[other]? := by
  show (b.queues.insert _ _)[other]? = _
  rw [Std.ExtTreeMap.getElem?_insert]
  simp only [Std.LawfulEqCmp.compare_eq_iff_eq]

/-- A client that joins adds one claimed mailbox. -/
private theorem mailboxes_joined (b : Broker) (name pattern : String) (k : Nat) :
    (b.joined name pattern).mailboxes[k]? =
      if b.nextMailbox = k then some { readership := .claimed } else b.mailboxes[k]? := by
  show ((b.mailboxes.insert _ _).insert _ _)[k]? = _
  rw [Std.ExtTreeMap.getElem?_insert, Std.ExtTreeMap.getElem?_insert]
  simp only [Std.compare_eq_iff_eq]
  split <;> rfl

/-- A client that joins adds one watcher. -/
theorem watchers_joined (b : Broker) (name pattern : String) (k : Nat) :
    (b.joined name pattern).watchers[k]? =
      if b.nextWatcher = k then some { pattern } else b.watchers[k]? := by
  show (b.watchers.insert _ _)[k]? = _
  rw [Std.ExtTreeMap.getElem?_insert]
  simp only [Std.compare_eq_iff_eq]

/-- A mailbox that is still to come has no letters. -/
theorem Sound.letters_beyond {b : Broker} (hs : b.Sound) {id : MailboxId}
    (h : b.nextMailbox ≤ id.index) : b.letters id = [] := by
  unfold letters
  cases hm : b.mailboxes[id.index]? with
  | none => rfl
  | some m => exact absurd (hs.mailboxes _ m hm) (Nat.not_lt.2 h)

/-- A client that joins finds no letters and changes nobody else's. -/
theorem letters_joined {b : Broker} (hs : b.Sound) (name pattern : String) (id : MailboxId) :
    (b.joined name pattern).letters id = b.letters id := by
  unfold letters
  rw [mailboxes_joined]
  split
  · next h =>
    -- The new mailbox has a number that is not in use, and it is empty.
    cases hm : b.mailboxes[id.index]? with
    | none => rfl
    | some m =>
      have := hs.mailboxes id.index m hm
      omega
  · rfl

/-- A client that joins keeps a broker sound. -/
theorem Sound.joined {b : Broker} (h : b.Sound) (name pattern : String) :
    (b.joined name pattern).Sound where
  -- Mailboxes are numbered in order, so the new one is no queue's from before.
  apart n other i hn ho := by
    rw [queues_joined] at hn ho
    split at hn
    · split at ho
      · next h1 h2 => exact h1.symm.trans h2
      · have hlt := h.lt ho
        obtain rfl := Option.some.inj hn
        exact absurd hlt (Nat.lt_irrefl _)
    · split at ho
      · have hlt := h.lt hn
        obtain rfl := Option.some.inj ho
        exact absurd hlt (Nat.lt_irrefl _)
      · exact h.apart n other i hn ho
  mailboxes k m hm := by
    rw [mailboxes_joined] at hm
    show k < b.nextMailbox + 1
    split at hm
    · omega
    · have := h.mailboxes k m hm
      omega
  -- The new queue has the new mailbox, and the others had theirs.
  queues n i hn := by
    rw [queues_joined] at hn
    rw [mailboxes_joined]
    split
    · exact ⟨_, rfl⟩
    · next hne =>
      split at hn
      · obtain rfl := Option.some.inj hn
        exact absurd rfl hne
      · exact h.queues n i hn
  watchers k w hw := by
    rw [watchers_joined] at hw
    show k < b.nextWatcher + 1
    split at hw
    · omega
    · have := h.watchers k w hw
      omega

/-- A client that has joined reads its own queue. -/
theorem reads_joined (b : Broker) (name pattern : String) :
    (b.joined name pattern).Reads name ⟨b.nextMailbox⟩ where
  queue := by rw [queues_joined, if_pos rfl]
  mailbox := ⟨_, by rw [mailboxes_joined, if_pos rfl], rfl, rfl⟩

/-- Whoever reads another queue goes on reading it when a client joins. -/
theorem Reads.joined {b : Broker} (hs : b.Sound) {other : String} {i : MailboxId}
    (h : b.Reads other i) {name : String} (hne : name ≠ other) (pattern : String) :
    (b.joined name pattern).Reads other i where
  queue := by
    rw [queues_joined, if_neg hne]
    exact h.queue
  mailbox := by
    obtain ⟨m, hm, h'⟩ := h.mailbox
    refine ⟨m, ?_, h'⟩
    have := hs.mailboxes _ m hm
    -- An old mailbox has a lower number than the new one.
    rw [mailboxes_joined, if_neg (by omega), hm]

/-! ## Watchers -/

/-- A departure is taken from the front of the watcher's own list, and nothing else changes. -/
theorem departure?_eq {b b' : Broker} {id : WatcherId} {name : String}
    (h : b.departure? id = some (name, b')) :
    ∃ w rest, b.watchers[id.index]? = some w ∧ w.departures = name :: rest ∧
      b' = { b with watchers := b.watchers.insert id.index { w with departures := rest } } := by
  unfold departure? at h
  -- There must be such a watcher, and something for it to hear.
  split at h
  · cases h
  · next w hw =>
    split at h
    · cases h
    · next rest hd =>
      obtain ⟨rfl, rfl⟩ := Prod.mk.injEq .. ▸ Option.some.inj h
      exact ⟨w, rest, hw, hd, rfl⟩

/-- Only watchers differ, and only one that is there or none. -/
structure SameQueues (b b' : Broker) (id : WatcherId) : Prop where
  queues : b'.queues = b.queues
  mailboxes : b'.mailboxes = b.mailboxes
  nextMailbox : b'.nextMailbox = b.nextMailbox
  nextWatcher : b'.nextWatcher = b.nextWatcher
  others : ∀ k, k ≠ id.index → b'.watchers[k]? = b.watchers[k]?
  known : ∀ w, b'.watchers[id.index]? = some w → ∃ w', b.watchers[id.index]? = some w'

/-- Setting a watcher that exists leaves the queues as they are. -/
theorem sameQueues_set {b : Broker} {id : WatcherId} {w : Watcher}
    (hw : b.watchers[id.index]? = some w) (w' : Watcher) :
    SameQueues b { b with watchers := b.watchers.insert id.index w' } id where
  queues := rfl
  mailboxes := rfl
  nextMailbox := rfl
  nextWatcher := rfl
  -- Hearing touches the one watcher only.
  others k hk := by
    show (b.watchers.insert id.index w')[k]? = _
    rw [Std.ExtTreeMap.getElem?_insert, if_neg]
    rw [Std.compare_eq_iff_eq]
    exact Ne.symm hk
  known _ _ := ⟨w, hw⟩

/-- Taking a departure leaves the queues as they are. -/
theorem sameQueues_departure {b b' : Broker} {id : WatcherId} {name : String}
    (h : b.departure? id = some (name, b')) : SameQueues b b' id := by
  obtain ⟨w, rest, hw, -, rfl⟩ := departure?_eq h
  exact sameQueues_set hw _

/-- Dropping a watcher leaves the queues as they are. -/
theorem sameQueues_dropWatcher (b : Broker) (id : WatcherId) :
    SameQueues b (b.dropWatcher id) id := by
  unfold dropWatcher
  split
  · exact ⟨rfl, rfl, rfl, rfl, fun _ _ => rfl, fun w h => ⟨w, h⟩⟩
  · next w hw => exact sameQueues_set hw _

/-- A broker with the same queues is as sound. -/
theorem SameQueues.sound {b b' : Broker} {id : WatcherId} (h : SameQueues b b' id)
    (hs : b.Sound) : b'.Sound where
  apart := by
    rw [h.queues]
    exact hs.apart
  mailboxes := by
    rw [h.mailboxes, h.nextMailbox]
    exact hs.mailboxes
  queues := by
    rw [h.queues, h.mailboxes]
    exact hs.queues
  watchers k w hw := by
    rw [h.nextWatcher]
    -- Only this watcher can have changed, and it was there before.
    by_cases hk : k = id.index
    · subst hk
      obtain ⟨w', hw'⟩ := h.known w hw
      exact hs.watchers _ w' hw'
    · rw [h.others k hk] at hw
      exact hs.watchers k w hw

/-- A broker with the same queues holds the same letters. -/
theorem SameQueues.letters {b b' : Broker} {id : WatcherId} (h : SameQueues b b' id)
    (i : MailboxId) : b'.letters i = b.letters i := by
  unfold Broker.letters
  rw [h.mailboxes]

/-- On a broker with the same queues the same mailboxes are read. -/
theorem SameQueues.reads {b b' : Broker} {id : WatcherId} (h : SameQueues b b' id)
    {name : String} {i : MailboxId} (hr : b.Reads name i) : b'.Reads name i where
  queue := by
    rw [h.queues]
    exact hr.queue
  mailbox := by
    rw [h.mailboxes]
    exact hr.mailbox

end Broker

namespace Transport

/-- Without injected faults a call is the broker's own. -/
theorem call_eq {t : Transport} (h : t.faults = []) {α : Type} (op : Operation) (target : String)
    (run : Broker → Except TransportError (α × Broker)) :
    t.call op target run = match run t.broker with
      | .error e => (.error e, t)
      | .ok (a, broker) => (.ok a, { broker }) := by
  obtain ⟨b, faults⟩ := t
  simp only at h
  subst h
  rfl

/-! ## Operations -/

/-- Sending either changes nothing, or puts the envelope at the end of the mailbox of the queue. -/
theorem send_cases {t : Transport} (h : t.faults = []) (name : String) (e : Envelope) :
    (∃ err, t.send name e = (.error err, t)) ∨
      ∃ id m bytes, t.broker.queues[name]? = some id ∧ t.broker.mailboxes[id.index]? = some m ∧
        e.toBytes = .ok bytes ∧ t.send name e =
          (.ok (), { broker := t.broker.setMailbox id { m with waiting := m.waiting ++ [bytes] } }) := by
  unfold send
  rw [call_eq h]
  unfold Broker.send
  -- It fails for an envelope that cannot be flattened, a queue that is not there, or one left by
  -- its reader.
  cases hb : e.toBytes with
  | error err => exact .inl ⟨_, rfl⟩
  | ok bytes =>
    simp only [Broker.sendRaw]
    cases hm : t.broker.mailbox? name with
    | none => exact .inl ⟨_, rfl⟩
    | some p =>
      obtain ⟨id, m⟩ := p
      obtain ⟨h1, h2⟩ := Broker.mailbox?_eq_some.1 hm
      by_cases hr : m.readership = .abandoned
      · simp only [hr, if_true]
        exact .inl ⟨_, rfl⟩
      · simp only [hr, if_false]
        exact .inr ⟨id, m, bytes, h1, h2, rfl, rfl⟩

/-- A queue that is read takes every envelope that can be flattened. -/
theorem send_of_reads {t : Transport} (h : t.faults = []) {name : String} {id : MailboxId}
    (hr : t.broker.Reads name id) {e : Envelope} {bytes : Bytes} (hb : e.toBytes = .ok bytes) :
    (t.send name e).1 = .ok () := by
  obtain ⟨m, hm, hclaimed, -⟩ := hr.mailbox
  have hbox : t.broker.mailbox? name = some (id, m) := Broker.mailbox?_eq_some.2 ⟨hr.queue, hm⟩
  unfold send
  rw [call_eq h]
  simp [Broker.send, Broker.sendRaw, hb, hbox, hclaimed, Except.map]

/-- A letter that arrives is the last to be read. -/
theorem letters_deposit {m : Mailbox} {e : Envelope} {bytes : Bytes} (hb : e.toBytes = .ok bytes) :
    ({ m with waiting := m.waiting ++ [bytes] } : Mailbox).letters = m.letters ++ [e] := by
  simp [Mailbox.letters, Envelope.ofBytes_toBytes hb, Except.toOption]

/-- Receiving takes the first envelope that waits. -/
theorem receive_envelope {t t' : Transport} {id : MailboxId} {e : Envelope}
    (h : t.receive id = (.envelope e, t')) :
    ∃ m m', t.broker.mailboxes[id.index]? = some m ∧ m.letters = e :: m'.letters ∧
      m'.readership = m.readership ∧ m'.live = m.live ∧
      t' = { t with broker := t.broker.setMailbox id m' } := by
  unfold receive Broker.receive at h
  cases hm : t.broker.mailboxes[id.index]? with
  | none => simp [hm] at h
  | some m =>
    have hnext := nextEnvelope?_eq m.waiting
    simp only [hm] at h
    -- What cannot be read as an envelope is skipped, and then the queue may turn out empty.
    split at hnext
    · next e' rest hw =>
      simp only [hw, Prod.mk.injEq, Arrival.envelope.injEq] at h
      obtain ⟨rfl, rfl⟩ := h
      exact ⟨m, { m with waiting := rest }, rfl, hnext, rfl, rfl, rfl⟩
    · next hw =>
      simp only [hw] at h
      split at h <;> simp at h

/-- Receiving finds nothing only if nothing waits. -/
theorem receive_other {t t' : Transport} {id : MailboxId} {a : Arrival}
    (h : t.receive id = (a, t')) (ha : ∀ e, a ≠ .envelope e) :
    t.broker.letters id = [] ∧ (t' = t ∨ ∃ m m', t.broker.mailboxes[id.index]? = some m ∧
      m'.letters = [] ∧ m'.readership = m.readership ∧ m'.live = m.live ∧
      t' = { t with broker := t.broker.setMailbox id m' }) := by
  unfold receive Broker.receive at h
  cases hm : t.broker.mailboxes[id.index]? with
  | none =>
    simp only [hm, Prod.mk.injEq] at h
    exact ⟨by simp [Broker.letters, hm], .inl h.2.symm⟩
  | some m =>
    have hnext := nextEnvelope?_eq m.waiting
    simp only [hm] at h
    split at hnext
    · next e' rest hw =>
      simp only [hw, Prod.mk.injEq] at h
      exact absurd h.1.symm (ha e')
    -- Whatever was waiting there could not be read.
    · next hw =>
      simp only [hw, Prod.mk.injEq] at h
      refine ⟨by simp [Broker.letters, hm, Mailbox.letters, hnext], .inr ?_⟩
      exact ⟨m, { m with waiting := [] }, rfl, rfl, rfl, rfl, h.2.symm⟩

/-- Deleting a queue takes it out and tells the watchers, or changes nothing if there is none. -/
theorem deleteQueue_cases {t : Transport} (h : t.faults = []) (hs : t.broker.Sound)
    (name : String) :
    (t.broker.queues[name]? = none ∧ (t.deleteQueue name).2 = t) ∨
      ∃ id m, t.broker.queues[name]? = some id ∧ t.broker.mailboxes[id.index]? = some m ∧
        (t.deleteQueue name).2 = { broker := t.broker.without name id m } := by
  unfold deleteQueue
  rw [call_eq h]
  unfold Broker.delete
  cases hq : t.broker.queues[name]? with
  | none =>
    have hbox : t.broker.mailbox? name = none := by simp [Broker.mailbox?, hq]
    exact .inl ⟨rfl, by simp [hbox, Except.map]⟩
  | some id =>
    -- A queue always has a mailbox, so deleting fails only for one that is not there.
    obtain ⟨m, hm⟩ := hs.queues name id hq
    have hbox : t.broker.mailbox? name = some (id, m) := Broker.mailbox?_eq_some.2 ⟨hq, hm⟩
    exact .inr ⟨id, m, rfl, hm, by simp only [hbox, Except.map, Broker.without]⟩

/-- Making a queue, reading it and watching for departures. -/
theorem join_eq {t t₁ t₂ t₃ : Transport} (h : t.faults = []) {name pattern : String}
    {inbox : MailboxId} {departures : WatcherId} (h1 : t.createQueue name = (.ok (), t₁))
    (h2 : t₁.consume name = (.ok inbox, t₂))
    (h3 : t₂.watchDisconnects pattern = (.ok departures, t₃)) :
    t.broker.queues[name]? = none ∧ inbox = ⟨t.broker.nextMailbox⟩ ∧
      departures = ⟨t.broker.nextWatcher⟩ ∧ t₃ = { broker := t.broker.joined name pattern } := by
  unfold createQueue at h1
  rw [call_eq h] at h1
  unfold Broker.create at h1
  by_cases hq : t.broker.queues.contains name = true
  · simp [hq, Except.map] at h1
  · simp only [hq, Bool.false_eq_true, if_false, Except.map, Prod.mk.injEq, true_and] at h1
    -- The three calls are opened one after the other, each on what the one before has left.
    subst h1
    -- A queue could be made, so the name was free.
    have hnone : t.broker.queues[name]? = none := by
      rw [Std.ExtTreeMap.contains_eq_isSome_getElem?] at hq
      simpa using hq
    unfold consume at h2
    rw [call_eq rfl] at h2
    simp only [Broker.consume, Broker.mailbox?, Std.ExtTreeMap.getElem?_insert_self,
      Option.bind_eq_bind, Option.bind_some, Option.pure_def, if_true, Prod.mk.injEq,
      Except.ok.injEq] at h2
    obtain ⟨rfl, rfl⟩ := h2
    unfold watchDisconnects at h3
    rw [call_eq rfl] at h3
    simp only [Broker.watch, Prod.mk.injEq, Except.ok.injEq] at h3
    obtain ⟨rfl, rfl⟩ := h3
    exact ⟨hnone, rfl, rfl, rfl⟩

end Transport

end StreamRpc
