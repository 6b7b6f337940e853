import StreamRpc.Proofs.Lists
import StreamRpc.Proofs.Queue.Letters

/-! # Histories of the queues

Whoever has a broker makes and deletes queues, sends to them, reads them and watches for those that
are deleted.  A `Deed` is one such thing, and what came of it is its `Outcome`.  All that was done so
far, each with its outcome, is the history of the queues.

A reader or a watcher can be used by the one who got it, and only until it is dropped; other deeds
with it are void.

* `Broker.perform`            does something
* `Broker.performs`           all that a deed can come to
* `Broker.perform_refused`    what is refused changes nothing
-/

namespace StreamRpc

open Wire (Bytes)

namespace Broker

/-! ## Deeds -/

/-- Something that is done with the queues. -/
inductive Deed where
  | create (name : String)
  | delete (name : String)
  | send (name : String) (e : Envelope)
  | sendRaw (name : String) (bytes : Bytes)
  | consume (name : String)
  | receive (reader : MailboxId)
  | dropReader (reader : MailboxId)
  | watch (pattern : String)
  | hear (watcher : WatcherId)
  | dropWatcher (watcher : WatcherId)

/-- What comes of a deed. -/
inductive Outcome where
  | done
  | refused (e : TransportError)
  /-- This reads the queue. -/
  | reader (id : MailboxId)
  /-- This watches. -/
  | watcher (id : WatcherId)
  | received (a : Arrival)
  /-- The name of a queue that is gone, if there is news. -/
  | heard (name? : Option String)
  /-- There is no such reader or watcher. -/
  | void

/-- Somebody reads a mailbox. -/
def isRead (b : Broker) (id : MailboxId) : Bool :=
  b.mailboxes[id.index]?.any fun m => m.readership = .claimed

/-- Somebody watches. -/
def isWatching (b : Broker) (id : WatcherId) : Bool :=
  b.watchers[id.index]?.any (·.listening)

/-- What came of a deed that changes the queues or is refused. -/
def settle (b : Broker) : Except TransportError Broker → Outcome × Broker
  | .ok b' => (.done, b')
  | .error e => (.refused e, b)

/-- Does something. -/
def perform (b : Broker) : Deed → Outcome × Broker
  | .create name => b.settle (b.create name)
  | .delete name => b.settle (b.delete name)
  | .send name e => b.settle (b.send name e)
  | .sendRaw name bytes => b.settle (b.sendRaw name bytes)
  | .consume name =>
    match b.consume name with
    | .ok (id, b') => (.reader id, b')
    | .error e => (.refused e, b)
  | .receive id =>
    if b.isRead id then (.received (b.receive id).1, (b.receive id).2) else (.void, b)
  | .dropReader id => if b.isRead id then (.done, b.dropReader id) else (.void, b)
  | .watch pattern => (.watcher (b.watch pattern).1, (b.watch pattern).2)
  | .hear id =>
    if b.isWatching id then
      match b.departure? id with
      | some (name, b') => (.heard (some name), b')
      | none => (.heard none, b)
    else (.void, b)
  | .dropWatcher id => if b.isWatching id then (.done, b.dropWatcher id) else (.void, b)

/-! ## What a deed can come to -/

/-- The queues with one more, which nobody reads yet. -/
def added (b : Broker) (name : String) : Broker :=
  { b with
    queues := b.queues.insert name ⟨b.nextMailbox⟩
    mailboxes := b.mailboxes.insert b.nextMailbox {}
    nextMailbox := b.nextMailbox + 1 }

/-- The same with one watcher replaced. -/
def setWatcher (b : Broker) (id : WatcherId) (w : Watcher) : Broker :=
  { b with watchers := b.watchers.insert id.index w }

/-- All that a deed can come to, and what it leaves. -/
inductive Performs (b : Broker) : Deed → Outcome → Broker → Prop where
  | create {name : String} (free : b.queues[name]? = none) :
      Performs b (.create name) .done (b.added name)
  | delete {name : String} {id : MailboxId} {m : Mailbox} (found : b.queues[name]? = some id)
      (box : b.mailboxes[id.index]? = some m) :
      Performs b (.delete name) .done (b.without name id m)
  | send {name : String} {e : Envelope} {id : MailboxId} {m : Mailbox} {bytes : Bytes}
      (found : b.queues[name]? = some id) (box : b.mailboxes[id.index]? = some m)
      (read : m.readership ≠ .abandoned) (flat : e.toBytes = .ok bytes) :
      Performs b (.send name e) .done (b.setMailbox id { m with waiting := m.waiting ++ [bytes] })
  | sendRaw {name : String} {id : MailboxId} {m : Mailbox} {bytes : Bytes}
      (found : b.queues[name]? = some id) (box : b.mailboxes[id.index]? = some m)
      (read : m.readership ≠ .abandoned) :
      Performs b (.sendRaw name bytes) .done
        (b.setMailbox id { m with waiting := m.waiting ++ [bytes] })
  | consume {name : String} {id : MailboxId} {m : Mailbox} (found : b.queues[name]? = some id)
      (box : b.mailboxes[id.index]? = some m) (unclaimed : m.readership = .unclaimed) :
      Performs b (.consume name) (.reader id) (b.setMailbox id { m with readership := .claimed })
  | receive {id : MailboxId} {m : Mailbox} {e : Envelope} {rest : List Bytes}
      (box : b.mailboxes[id.index]? = some m) (claimed : m.readership = .claimed)
      (next : nextEnvelope? m.waiting = some (e, rest)) :
      Performs b (.receive id) (.received (.envelope e))
        (b.setMailbox id { m with waiting := rest })
  /-- What waits does not parse. -/
  | await {id : MailboxId} {m : Mailbox} (box : b.mailboxes[id.index]? = some m)
      (claimed : m.readership = .claimed) (none : nextEnvelope? m.waiting = none) :
      Performs b (.receive id) (.received (if m.live then .nothing else .ended))
        (b.setMailbox id { m with waiting := [] })
  | dropReader {id : MailboxId} {m : Mailbox} (box : b.mailboxes[id.index]? = some m)
      (claimed : m.readership = .claimed) :
      Performs b (.dropReader id) .done
        (b.setMailbox id { m with waiting := [], readership := .abandoned })
  | watch (pattern : String) :
      Performs b (.watch pattern) (.watcher ⟨b.nextWatcher⟩) (b.watch pattern).2
  | hear {id : WatcherId} {w : Watcher} {name : String} {rest : List String}
      (found : b.watchers[id.index]? = some w) (listening : w.listening = true)
      (news : w.departures = name :: rest) :
      Performs b (.hear id) (.heard (some name)) (b.setWatcher id { w with departures := rest })
  | hearNothing {id : WatcherId} {w : Watcher} (found : b.watchers[id.index]? = some w)
      (listening : w.listening = true) (news : w.departures = []) :
      Performs b (.hear id) (.heard none) b
  | dropWatcher {id : WatcherId} {w : Watcher} (found : b.watchers[id.index]? = some w)
      (listening : w.listening = true) :
      Performs b (.dropWatcher id) .done
        (b.setWatcher id { w with departures := [], listening := false })
  | refuse (d : Deed) (e : TransportError) : Performs b d (.refused e) b
  | void (d : Deed) : Performs b d .void b

/-- There is no mailbox under a name exactly when there is no queue. -/
theorem mailbox?_eq_none {b : Broker} (hs : b.Sound) {name : String} :
    b.mailbox? name = none ↔ b.queues[name]? = none := by
  cases hq : b.queues[name]? with
  | none => simp [mailbox?, hq]
  | some id =>
    obtain ⟨m, hm⟩ := hs.queues name id hq
    simp [mailbox?, hq, hm]

/-- A mailbox is read while a consumer has claimed it. -/
private theorem isRead_iff {b : Broker} {id : MailboxId} :
    b.isRead id = true ↔ ∃ m, b.mailboxes[id.index]? = some m ∧ m.readership = .claimed := by
  simp [isRead, Option.any_eq_true]

/-- A watcher is watching while its stream is held. -/
theorem isWatching_iff {b : Broker} {id : WatcherId} :
    b.isWatching id = true ↔ ∃ w, b.watchers[id.index]? = some w ∧ w.listening = true := by
  simp [isWatching, Option.any_eq_true]

/-- A send is one of the deeds, and the case in which the bytes arrive is left to be shown. -/
private theorem performs_sendRaw (b : Broker) (d : Deed) (name : String) (bytes : Bytes)
    (taken : ∀ {id m}, b.queues[name]? = some id → b.mailboxes[id.index]? = some m →
      m.readership ≠ .abandoned →
        Performs b d .done (b.setMailbox id { m with waiting := m.waiting ++ [bytes] })) :
    Performs b d (b.settle (b.sendRaw name bytes)).1 (b.settle (b.sendRaw name bytes)).2 := by
  unfold sendRaw
  cases hm : b.mailbox? name with
  | none => exact .refuse d _
  | some p =>
    obtain ⟨id, m⟩ := p
    obtain ⟨found, box⟩ := mailbox?_eq_some.1 hm
    -- A queue whose reader has left takes no more messages.
    by_cases left : m.readership = .abandoned
    · simp only [left, if_true]
      exact .refuse d _
    · simp only [left, if_false]
      exact taken found box left

/-- These are all the things that a deed can come to. -/
theorem performs (b : Broker) (d : Deed) : Performs b d (b.perform d).1 (b.perform d).2 := by
  cases d with
  | create name =>
    -- The queues know whether the name is free; the case split of the code is on the same fact.
    simp only [perform, create]
    split
    · exact .refuse _ _
    · next free =>
      rw [Std.ExtTreeMap.contains_eq_isSome_getElem?] at free
      exact .create (by simpa using free)
  | delete name =>
    simp only [perform, delete]
    cases hm : b.mailbox? name with
    | none => exact .refuse _ _
    | some p =>
      obtain ⟨found, box⟩ := mailbox?_eq_some.1 hm
      exact .delete found box
  | send name e =>
    simp only [perform, send]
    -- What cannot be put into bytes is refused before the queue is looked for.
    cases flat : e.toBytes with
    | error err => exact .refuse _ _
    | ok bytes =>
      exact performs_sendRaw b _ name bytes fun found box left => .send found box left flat
  | sendRaw name bytes => exact performs_sendRaw b _ name bytes .sendRaw
  | consume name =>
    simp only [perform, consume]
    cases hm : b.mailbox? name with
    | none => exact .refuse _ _
    | some p =>
      obtain ⟨id, m⟩ := p
      obtain ⟨found, box⟩ := mailbox?_eq_some.1 hm
      by_cases unclaimed : m.readership = .unclaimed
      · simp only [unclaimed, if_true]
        exact .consume found box unclaimed
      · simp only [unclaimed, if_false]
        exact .refuse _ _
  | receive id =>
    simp only [perform]
    split
    · next read =>
      obtain ⟨m, box, claimed⟩ := isRead_iff.1 read
      -- A reader that is there has a mailbox, and this is claimed, so what comes out depends on
      -- whether something legible waits in it.
      simp only [receive, box]
      cases next : nextEnvelope? m.waiting with
      | none => exact .await box claimed next
      | some p => exact .receive box claimed next
    · exact .void _
  | dropReader id =>
    simp only [perform]
    split
    · next read =>
      obtain ⟨m, box, claimed⟩ := isRead_iff.1 read
      simp only [Broker.dropReader, box]
      exact .dropReader box claimed
    · exact .void _
  | watch pattern => exact .watch pattern
  | hear id =>
    simp only [perform]
    split
    · next watching =>
      obtain ⟨w, found, listening⟩ := isWatching_iff.1 watching
      -- A watcher that hears nothing stays as it is.
      simp only [departure?, found]
      cases news : w.departures with
      | nil => exact .hearNothing found listening news
      | cons name rest => exact .hear found listening news
    · exact .void _
  | dropWatcher id =>
    simp only [perform]
    split
    · next watching =>
      obtain ⟨w, found, listening⟩ := isWatching_iff.1 watching
      simp only [Broker.dropWatcher, found]
      exact .dropWatcher found listening
    · exact .void _

/-- What is refused changes nothing. -/
theorem perform_refused {b : Broker} {d : Deed} {e : TransportError}
    (h : (b.perform d).1 = .refused e) : (b.perform d).2 = b := by
  have does := b.performs d
  rw [h] at does
  generalize (b.perform d).2 = b' at does
  cases does with
  | refuse => rfl

/-! ## Histories -/

/-- What was done, the oldest first, and what came of it. -/
abbrev History := List (Deed × Outcome)

/-- Does one thing after another from the start, when there are no queues: the history of that, and
    what it leaves. -/
def past (ds : List Deed) : History × Broker :=
  ds.foldl (fun (h, b) d => (h ++ [(d, (b.perform d).1)], (b.perform d).2)) ([], {})

/-- Nothing done leaves the empty broker. -/
@[simp] theorem past_nil : past [] = ([], {}) := rfl

/-- One more deed is done on the broker the others leave. -/
theorem past_concat (ds : List Deed) (d : Deed) :
    past (ds ++ [d]) = ((past ds).1 ++ [(d, ((past ds).2.perform d).1)],
      ((past ds).2.perform d).2) := by
  unfold past
  rw [List.foldl_append]
  rfl

/-! ## The queues stay in order -/

/-- A created queue changes the entry of its own name only. -/
theorem queues_added (b : Broker) (name other : String) :
    (b.added name).queues[other]? =
      if name = other then some ⟨b.nextMailbox⟩ else b.queues[other]? := by
  show (b.queues.insert _ _)[other]? = _
  rw [Std.ExtTreeMap.getElem?_insert]
  simp only [Std.LawfulEqCmp.compare_eq_iff_eq]

/-- A created queue's mailbox is new and empty. -/
theorem mailboxes_added (b : Broker) (name : String) (k : Nat) :
    (b.added name).mailboxes[k]? = if b.nextMailbox = k then some {} else b.mailboxes[k]? := by
  show (b.mailboxes.insert _ _)[k]? = _
  rw [Std.ExtTreeMap.getElem?_insert]
  simp only [Std.compare_eq_iff_eq]

/-- Creating a queue keeps a broker sound. -/
private theorem Sound.added {b : Broker} (hs : b.Sound) (name : String) : (b.added name).Sound where
  -- The new mailbox has a number that no queue had, so no two queues share it.
  apart n other i hn ho := by
    rw [queues_added] at hn ho
    split at hn
    · next h =>
      split at ho
      · next h' => exact h.symm.trans h'
      · obtain rfl := Option.some.inj hn
        exact absurd (hs.lt ho) (Nat.lt_irrefl _)
    · split at ho
      · obtain rfl := Option.some.inj ho
        exact absurd (hs.lt hn) (Nat.lt_irrefl _)
      · exact hs.apart n other i hn ho
  mailboxes k m hm := by
    rw [mailboxes_added] at hm
    show k < b.nextMailbox + 1
    split at hm
    · omega
    · have := hs.mailboxes k m hm
      omega
  -- An old queue keeps its mailbox, since the number of the new one is not in use.
  queues n i hn := by
    rw [queues_added] at hn
    rw [mailboxes_added]
    split
    · exact ⟨_, rfl⟩
    · next hne =>
      split at hn
      · obtain rfl := Option.some.inj hn
        exact absurd rfl hne
      · exact hs.queues n i hn
  watchers := hs.watchers

/-- A new watcher changes the entry at its own index only. -/
theorem watchers_watch (b : Broker) (pattern : String) (k : Nat) :
    (b.watch pattern).2.watchers[k]? =
      if b.nextWatcher = k then some { pattern } else b.watchers[k]? := by
  show (b.watchers.insert _ _)[k]? = _
  rw [Std.ExtTreeMap.getElem?_insert]
  simp only [Std.compare_eq_iff_eq]

/-- Watching keeps a broker sound. -/
private theorem Sound.watch {b : Broker} (hs : b.Sound) (pattern : String) :
    (b.watch pattern).2.Sound where
  apart := hs.apart
  mailboxes := hs.mailboxes
  queues := hs.queues
  -- The new watcher has the next number.
  watchers k w hw := by
    rw [watchers_watch] at hw
    show k < b.nextWatcher + 1
    split at hw
    · omega
    · have := hs.watchers k w hw
      omega

/-- Whatever is done keeps the queues in order. -/
theorem Sound.performs {b b' : Broker} (hs : b.Sound) {d : Deed} {o : Outcome}
    (does : Performs b d o b') : b'.Sound := by
  -- Most deeds change one mailbox or one watcher that was there before.
  cases does with
  | create => exact hs.added _
  | delete _ box => exact hs.without box
  | send _ box => exact hs.setMailbox box _
  | sendRaw _ box => exact hs.setMailbox box _
  | consume _ box => exact hs.setMailbox box _
  | receive box => exact hs.setMailbox box _
  | await box => exact hs.setMailbox box _
  | dropReader box => exact hs.setMailbox box _
  | watch pattern => exact hs.watch pattern
  | hear found => exact (sameQueues_set found _).sound hs
  | dropWatcher found => exact (sameQueues_set found _).sound hs
  | hearNothing => exact hs
  | refuse => exact hs
  | void => exact hs

/-- Whatever was done, the broker is sound. -/
theorem sound_past (ds : List Deed) : (past ds).2.Sound := by
  induction ds using List.reverseRecOn with
  | nil => exact sound_empty
  | append_singleton ds d ih =>
    rw [past_concat]
    exact ih.performs ((past ds).2.performs d)

end Broker

end StreamRpc
