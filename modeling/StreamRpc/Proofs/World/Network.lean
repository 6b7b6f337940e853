import StreamRpc.Client.Basic
import StreamRpc.Proofs.Queue.Letters

/-! # The queues between a server and its clients

What a server and its clients do with the queues, without what else they do: who reads which queue,
what was put on queues and taken off them, and who was told of queues that are gone.  A log says
what passed, and the queues hold the difference between what was put on them and what was taken off.

* `Network.Wired.step`    everybody keeps the queue that is theirs

-/

namespace StreamRpc

open Wire (Bytes)

/-! ## The log -/

/-- Something that passed between a server, its clients and their queues. -/
inductive Transit where
  /-- The server put an envelope on a reply queue, which took it or refused it. -/
  | said (address : String) (e : Envelope) (accepted : Bool)
  /-- The server took an envelope off its queue. -/
  | served (e : Envelope)
  /-- The server heard that a reply queue is gone. -/
  | departed (address : String)
  /-- A client took an envelope off its reply queue. -/
  | took (i : Nat) (e : Envelope)
  /-- A client put an envelope on the server's queue, which took it or refused it. -/
  | posted (i : Nat) (e : Envelope) (accepted : Bool)

namespace Transit

def said? (address : String) : Transit → Option Envelope
  | said a e true => if a = address then some e else none
  | _ => none

def served? : Transit → Option Envelope
  | served e => some e
  | _ => none

def departed? : Transit → Option String
  | departed a => some a
  | _ => none

def took? (i : Nat) : Transit → Option Envelope
  | took j e => if j = i then some e else none
  | _ => none

def posted? : Transit → Option Envelope
  | posted _ e true => some e
  | _ => none

/-- The envelopes that a reply queue took, in order. -/
def allSaid (log : List Transit) (address : String) : List Envelope :=
  log.filterMap (said? address)

/-- The envelopes that the server took off its queue, in order. -/
def allServed (log : List Transit) : List Envelope :=
  log.filterMap served?

/-- The reply queues of which the server heard that they are gone, in order. -/
def allDeparted (log : List Transit) : List String :=
  log.filterMap departed?

/-- The envelopes that a client took off its reply queue, in order. -/
def allTook (log : List Transit) (i : Nat) : List Envelope :=
  log.filterMap (took? i)

/-- The envelopes that the server's queue took, in order. -/
def allPosted (log : List Transit) : List Envelope :=
  log.filterMap posted?

variable (log log' : List Transit)

/-- What got through is read off a log piece by piece. -/
@[simp] theorem allSaid_append (a : String) :
    allSaid (log ++ log') a = allSaid log a ++ allSaid log' a :=
  List.filterMap_append

/-- What was served is read off a log piece by piece. -/
@[simp] theorem allServed_append : allServed (log ++ log') = allServed log ++ allServed log' :=
  List.filterMap_append

/-- Departures are read off a log piece by piece. -/
@[simp] theorem allDeparted_append :
    allDeparted (log ++ log') = allDeparted log ++ allDeparted log' :=
  List.filterMap_append

/-- What was taken is read off a log piece by piece. -/
@[simp] theorem allTook_append (i : Nat) :
    allTook (log ++ log') i = allTook log i ++ allTook log' i :=
  List.filterMap_append

/-- What was posted is read off a log piece by piece. -/
@[simp] theorem allPosted_append : allPosted (log ++ log') = allPosted log ++ allPosted log' :=
  List.filterMap_append

end Transit

/-! ## Networks -/

/-- What a client has to do with the queues. -/
structure Link where
  address : String
  inbox : Option MailboxId
  departures : Option WatcherId
  held : Bool

/-- The queues, the clients at them, and the reply queues that are to be deleted. -/
structure Network where
  transport : Transport
  links : List Link
  cleanups : List String

/-- What a running server has to do with the queues. -/
structure Ports where
  queue : String
  /-- Covers the reply queues of which the server hears when they are gone. -/
  pattern : String
  inbox : MailboxId
  watcher : WatcherId

namespace Network

/-- One step that concerns the queues, with what is logged of it. -/
inductive Step (p : Ports) (n : Network) : List Transit → Network → Prop where
  | say {a : String} {e : Envelope} (known : ∃ l ∈ n.links, l.address = a) :
      Step p n [.said a e (n.transport.send a e).1.isOk]
        { n with transport := (n.transport.send a e).2 }
  | serve {e : Envelope} {t : Transport} (go : n.transport.receive p.inbox = (.envelope e, t)) :
      Step p n [.served e] { n with transport := t }
  | depart {a : String} {t : Transport} (go : n.transport.departure? p.watcher = some (a, t)) :
      Step p n [.departed a] { n with transport := t }
  | take {i : Nat} {l : Link} {m : MailboxId} {e : Envelope} {t : Transport}
      (found : n.links[i]? = some l) (inbox : l.inbox = some m)
      (go : n.transport.receive m = (.envelope e, t)) :
      Step p n [.took i e] { n with transport := t }
  | post {i : Nat} {e : Envelope} :
      Step p n [.posted i e (n.transport.send p.queue e).1.isOk]
        { n with transport := (n.transport.send p.queue e).2 }
  /-- Something happens to a watcher that is not the server's. -/
  | watch {d : WatcherId} {b : Broker} (other : d ≠ p.watcher)
      (same : Broker.SameQueues n.transport.broker b d) :
      Step p n [] { n with transport := { n.transport with broker := b } }
  /-- A client does not watch any more. -/
  | blind {i : Nat} {l : Link} (found : n.links[i]? = some l) :
      Step p n [] { n with links := n.links.set i { l with departures := none } }
  /-- A client leaves, and its queue is to be deleted. -/
  | leave {i : Nat} {l : Link} (found : n.links[i]? = some l) :
      Step p n [] { n with
        links := n.links.set i { l with inbox := none, departures := none, held := false }
        cleanups := n.cleanups ++ [l.address] }
  /-- A queue that belongs to nobody any more loses its reader. -/
  | deafen {m : MailboxId} (other : m ≠ p.inbox) (free : ∀ l ∈ n.links, l.inbox ≠ some m) :
      Step p n [] { n with transport := n.transport.dropReader m }
  | cleanup {before after : List String} {a : String} (found : n.cleanups = before ++ a :: after) :
      Step p n [] { n with
        transport := (n.transport.deleteQueue a).2, cleanups := before ++ after }
  | join {a pattern : String} (free : n.transport.broker.queues[a]? = none)
      (covered : addressMatches p.pattern a = true) (apart : ∀ l ∈ n.links, l.address ≠ a) :
      Step p n [] { n with
        transport := { broker := n.transport.broker.joined a pattern }
        links := n.links ++ [{
          address := a
          inbox := some ⟨n.transport.broker.nextMailbox⟩
          departures := some ⟨n.transport.broker.nextWatcher⟩
          held := true }] }

/-- Some steps, with what is logged of them. -/
inductive Steps (p : Ports) (n : Network) : List Transit → Network → Prop where
  | refl : Steps p n [] n
  | step {log log' : List Transit} {n' n'' : Network} (steps : Steps p n log n')
      (next : Step p n' log' n'') : Steps p n (log ++ log') n''

/-- A step is a run of one. -/
theorem Step.steps {p : Ports} {n n' : Network} {log : List Transit} (next : Step p n log n') :
    Steps p n log n' :=
  Steps.refl.step next

/-! ## Who has which queue -/

/-- A client has its own queue until it leaves; from then on the queue is gone, or will be. -/
structure Linked (p : Ports) (n : Network) (l : Link) : Prop where
  other : l.address ≠ p.queue
  covered : addressMatches p.pattern l.address = true
  reads : ∀ m, l.inbox = some m → n.transport.broker.Reads l.address m
  held : l.held = false ↔ l.inbox = none
  left : l.inbox = none →
    n.transport.broker.queues[l.address]? = none ∨ l.address ∈ n.cleanups
  watcher : ∀ d, l.departures = some d → d ≠ p.watcher

/-- Everybody has the queue that is theirs. -/
structure Wired (p : Ports) (n : Network) : Prop where
  clear : n.transport.faults = []
  sound : n.transport.broker.Sound
  server : n.transport.broker.Reads p.queue p.inbox
  watcher : ∃ x, n.transport.broker.watchers[p.watcher.index]? = some x ∧
    x.pattern = p.pattern ∧ x.listening = true
  apart : (n.links.map (·.address)).Nodup
  link : ∀ l ∈ n.links, Linked p n l
  cleanups : ∀ a ∈ n.cleanups, ∃ l ∈ n.links, l.address = a ∧ l.inbox = none

/-- Somebody reads a queue that is theirs. -/
def Owns (p : Ports) (n : Network) (name : String) (m : MailboxId) : Prop :=
  (name = p.queue ∧ m = p.inbox) ∨ ∃ l ∈ n.links, l.address = name ∧ l.inbox = some m

/-- Whoever has a queue keeps it, and a reply queue that is gone stays gone. -/
structure Keeps (p : Ports) (n : Network) (b : Broker) : Prop where
  sound : b.Sound
  reads : ∀ name m, Owns p n name m → n.transport.broker.Reads name m → b.Reads name m
  gone : ∀ l ∈ n.links, n.transport.broker.queues[l.address]? = none →
    b.queues[l.address]? = none
  watcher : ∀ x, n.transport.broker.watchers[p.watcher.index]? = some x →
    ∃ x', b.watchers[p.watcher.index]? = some x' ∧ x'.pattern = x.pattern ∧
      x'.listening = x.listening

variable {p : Ports} {n : Network}

/-- Whoever owns a mailbox reads its queue. -/
theorem Wired.owns (h : Wired p n) {name : String} {m : MailboxId} (owns : Owns p n name m) :
    n.transport.broker.Reads name m := by
  rcases owns with ⟨rfl, rfl⟩ | ⟨l, hl, rfl, hm⟩
  · exact h.server
  · exact (h.link l hl).reads m hm

/-- A broker that keeps the mailboxes keeps a network wired. -/
private theorem Wired.of_keeps (h : Wired p n) {b : Broker} (keeps : Keeps p n b) :
    Wired p { n with transport := { broker := b } } where
  clear := rfl
  sound := keeps.sound
  server := keeps.reads _ _ (.inl ⟨rfl, rfl⟩) h.server
  watcher := by
    obtain ⟨x, hx, hp, hl⟩ := h.watcher
    obtain ⟨x', hx', hp', hl'⟩ := keeps.watcher x hx
    exact ⟨x', hx', hp'.trans hp, hl'.trans hl⟩
  apart := h.apart
  link l hl := by
    have hlink := h.link l hl
    exact {
      other := hlink.other
      covered := hlink.covered
      reads := fun m hm => keeps.reads _ m (.inr ⟨l, hl, rfl, hm⟩) (hlink.reads m hm)
      held := hlink.held
      left := fun hn => (hlink.left hn).imp (keeps.gone l hl) id
      watcher := hlink.watcher }
  cleanups := h.cleanups

/-- A transport without faults is its broker. -/
theorem transport_eq {t : Transport} (h : t.faults = []) : t = { broker := t.broker } := by
  cases t
  cases h
  rfl

/-- A letter comes or goes. -/
private theorem keeps_setMailbox (h : Wired p n) {id : MailboxId} {m m' : Mailbox}
    (hm : n.transport.broker.mailboxes[id.index]? = some m) (hr : m'.readership = m.readership)
    (hl : m'.live = m.live) : Keeps p n (n.transport.broker.setMailbox id m') where
  sound := h.sound.setMailbox hm m'
  reads name other _ hreads := by
    -- Whether a queue can be read depends on its readership and on its being alive.
    refine hreads.setMailbox m' fun hid => ?_
    obtain ⟨x, hx, hrx, hlx⟩ := hreads.mailbox
    rw [← hid, hm] at hx
    obtain rfl := Option.some.inj hx
    exact ⟨hr.trans hrx, hl.trans hlx⟩
  gone l _ hq := hq
  watcher x hx := ⟨x, hx, rfl, rfl⟩

/-- Different watchers have different indices. -/
theorem index_ne {d d' : WatcherId} (h : d ≠ d') : d'.index ≠ d.index := by
  intro heq
  cases d
  exact h (congrArg WatcherId.mk heq.symm)

/-- What only another watcher notices keeps the mailboxes. -/
private theorem keeps_watch (h : Wired p n) {b : Broker} {d : WatcherId}
    (same : Broker.SameQueues n.transport.broker b d) (other : d ≠ p.watcher) :
    Keeps p n b where
  sound := same.sound h.sound
  reads name m _ hreads := same.reads hreads
  gone l _ hq := by rwa [same.queues]
  watcher x hx := ⟨x, by rwa [same.others _ (index_ne other)], rfl, rfl⟩

/-- A departure heard keeps the mailboxes. -/
private theorem keeps_depart (h : Wired p n) {a : String} {b : Broker}
    (go : n.transport.broker.departure? p.watcher = some (a, b)) : Keeps p n b := by
  have same := Broker.sameQueues_departure go
  -- A heard departure is taken off the watcher's list; no queue changes.
  obtain ⟨x, rest, hx, -, rfl⟩ := Broker.departure?_eq go
  exact {
    sound := same.sound h.sound
    reads := fun name m _ hreads => same.reads hreads
    gone := fun l _ hq => by rwa [same.queues]
    watcher := fun y hy => by
      rw [hx] at hy
      obtain rfl := Option.some.inj hy
      exact ⟨_, Std.ExtTreeMap.getElem?_insert_self, rfl, rfl⟩ }

/-- Dropping a mailbox nobody owns keeps the others. -/
private theorem keeps_deafen (h : Wired p n) {m : MailboxId} (other : m ≠ p.inbox)
    (free : ∀ l ∈ n.links, l.inbox ≠ some m) :
    Keeps p n (n.transport.broker.dropReader m) := by
  -- A reader is dropped only from a mailbox that nobody on the network owns.
  have hne : ∀ name m', Owns p n name m' → m ≠ m' := by
    rintro name m' (⟨-, rfl⟩ | ⟨l, hl, -, hm⟩) rfl
    · exact other rfl
    · exact free l hl hm
  rcases Broker.dropReader_cases n.transport.broker m with heq | ⟨x, x', hx, heq⟩
  · rw [heq]
    exact ⟨h.sound, fun _ _ _ hr => hr, fun _ _ hq => hq, fun x hx => ⟨x, hx, rfl, rfl⟩⟩
  · rw [heq]
    exact {
      sound := h.sound.setMailbox hx x'
      reads := fun name m' owns hr => hr.setMailbox x' fun hid => absurd hid (hne name m' owns)
      gone := fun l _ hq => hq
      watcher := fun y hy => ⟨y, hy, rfl, rfl⟩ }

/-- No two clients have one address. -/
theorem Wired.index (h : Wired p n) {i j : Nat} {l l' : Link} (hi : n.links[i]? = some l)
    (hj : n.links[j]? = some l') (heq : l.address = l'.address) : i = j := by
  have hlt := (List.getElem?_eq_some_iff.1 hi).1
  have hmap : i < (n.links.map (·.address)).length := by simpa using hlt
  refine (List.getElem?_inj hmap h.apart).1 ?_
  rw [List.getElem?_map, List.getElem?_map, hi, hj]
  exact congrArg some heq

/-- Two links with one address are one. -/
private theorem Wired.eq_of_address (h : Wired p n) {l l' : Link} (hl : l ∈ n.links)
    (hl' : l' ∈ n.links)
    (heq : l.address = l'.address) : l = l' := by
  obtain ⟨i, hi⟩ := List.mem_iff_getElem?.1 hl
  obtain ⟨j, hj⟩ := List.mem_iff_getElem?.1 hl'
  obtain rfl := h.index hi hj heq
  rw [hi] at hj
  exact Option.some.inj hj

/-- A queue that is to be deleted belongs to nobody any more. -/
private theorem Wired.free (h : Wired p n) {a : String} (ha : a ∈ n.cleanups) {name : String}
    {m : MailboxId} (owns : Owns p n name m) : a ≠ name := by
  obtain ⟨l, hl, rfl, hnone⟩ := h.cleanups a ha
  rcases owns with ⟨rfl, -⟩ | ⟨l', hl', rfl, hm⟩
  · exact (h.link l hl).other
  · intro heq
    obtain rfl := h.eq_of_address hl hl' heq
    rw [hnone] at hm
    cases hm

/-- Deleting a queue that is left over keeps the owned mailboxes. -/
private theorem keeps_cleanup (h : Wired p n) {a : String} (ha : a ∈ n.cleanups) {id : MailboxId}
    {m : Mailbox} (hq : n.transport.broker.queues[a]? = some id)
    (hm : n.transport.broker.mailboxes[id.index]? = some m) :
    Keeps p n (n.transport.broker.without a id m) where
  sound := h.sound.without hm
  reads name m' owns hr := hr.without h.sound hq (h.free ha owns)
  gone l _ hnone := by
    rw [Broker.queues_without, hnone]
    split <;> rfl
  watcher x hx := by
    obtain ⟨x', hx', -, hlisten⟩ := h.watcher
    rw [hx] at hx'
    obtain rfl := Option.some.inj hx'
    -- The watcher of the server listens still, so it is told of the queue and not pruned.
    refine ⟨Broker.Watcher.tell a x, ?_, ?_, ?_⟩
    · rw [Broker.watchers_without, hx]
      simp [Option.filter, Broker.Watcher.stays, hlisten]
    · unfold Broker.Watcher.tell
      split <;> rfl
    · unfold Broker.Watcher.tell
      split <;> rfl

/-- A client that joins keeps the owned mailboxes. -/
private theorem keeps_join (h : Wired p n) {a pattern : String}
    (free : n.transport.broker.queues[a]? = none) (apart : ∀ l ∈ n.links, l.address ≠ a) :
    Keeps p n (n.transport.broker.joined a pattern) where
  sound := h.sound.joined a pattern
  reads name m owns hr := by
    refine hr.joined h.sound ?_ pattern
    -- The new queue has a name that was free, so it is nobody's.
    rintro rfl
    rw [hr.queue] at free
    cases free
  gone l hl hq := by rwa [Broker.queues_joined, if_neg fun heq => apart l hl heq.symm]
  watcher x hx := by
    refine ⟨x, ?_, rfl, rfl⟩
    have hlt := h.sound.watchers _ _ hx
    rw [Broker.watchers_joined, if_neg (by omega)]
    exact hx

/-! ## Everybody keeps what is theirs -/

/-- A link of a changed list is the new one or an old one. -/
private theorem mem_set {links : List Link} {i : Nat} {l' x : Link} (h : x ∈ links.set i l') :
    x = l' ∨ x ∈ links :=
  (List.mem_or_eq_of_mem_set h).symm

/-- A link replaced by one of the same address leaves the addresses. -/
theorem map_set {links : List Link} {i : Nat} {l l' : Link} (found : links[i]? = some l)
    (h : l'.address = l.address) : (links.set i l').map (·.address) = links.map (·.address) := by
  obtain ⟨hi, rfl⟩ := List.getElem?_eq_some_iff.1 found
  rw [List.map_set, h]
  have hmap : i < (links.map (·.address)).length := by simpa using hi
  have := List.set_getElem_self hmap
  simpa using this

/-- A client changes what it has to do with the queues. -/
private theorem Wired.relink (h : Wired p n) {i : Nat} {l l' : Link} (found : n.links[i]? = some l)
    {more : List String} (linked : Linked p { n with cleanups := n.cleanups ++ more } l')
    (haddress : l'.address = l.address) (hinbox : l.inbox = none → l'.inbox = none)
    (hmore : ∀ a ∈ more, a = l.address ∧ l'.inbox = none) :
    Wired p { n with links := n.links.set i l', cleanups := n.cleanups ++ more } where
  clear := h.clear
  sound := h.sound
  server := h.server
  watcher := h.watcher
  apart := by
    rw [map_set found haddress]
    exact h.apart
  link x hx := by
    -- The other links are asked for no more than before, as the list of cleanups has grown.
    rcases mem_set hx with rfl | hx
    · exact ⟨linked.other, linked.covered, linked.reads, linked.held, linked.left, linked.watcher⟩
    · have hlink := h.link x hx
      exact ⟨hlink.other, hlink.covered, hlink.reads, hlink.held,
        fun hn => (hlink.left hn).imp id (List.mem_append_left _), hlink.watcher⟩
  cleanups a ha := by
    have hi := (List.getElem?_eq_some_iff.1 found).1
    have hmem : l' ∈ n.links.set i l' := List.mem_set hi l'
    rcases List.mem_append.1 ha with ha | ha
    · obtain ⟨x, hx, hxa, hnone⟩ := h.cleanups a ha
      obtain ⟨j, hj⟩ := List.mem_iff_getElem?.1 hx
      -- The link whose queue is still to be deleted may be the one that changes.
      by_cases hij : i = j
      · subst hij
        rw [found] at hj
        obtain rfl := Option.some.inj hj
        exact ⟨l', hmem, haddress.trans hxa, hinbox hnone⟩
      · exact ⟨x, List.mem_iff_getElem?.2 ⟨j, by rwa [List.getElem?_set_ne hij]⟩, hxa, hnone⟩
    · obtain ⟨rfl, hnone⟩ := hmore a ha
      exact ⟨l', hmem, haddress, hnone⟩

/-- A link that stops watching keeps a network wired. -/
private theorem Wired.blind (h : Wired p n) {i : Nat} {l : Link} (found : n.links[i]? = some l) :
    Wired p { n with links := n.links.set i { l with departures := none } } := by
  have hlink := h.link l (List.mem_of_getElem? found)
  -- A link without a watcher asks less than one with it.
  have linked : Linked p { n with cleanups := n.cleanups ++ [] } { l with departures := none } :=
    { other := hlink.other
      covered := hlink.covered
      reads := hlink.reads
      held := hlink.held
      left := fun hn => (hlink.left hn).imp id (List.mem_append_left _)
      watcher := fun d hd => by cases hd }
  have := h.relink found linked rfl id (fun a ha => by cases ha)
  rwa [List.append_nil] at this

/-- A link that leaves keeps a network wired. -/
private theorem Wired.leave (h : Wired p n) {i : Nat} {l : Link} (found : n.links[i]? = some l) :
    Wired p { n with
      links := n.links.set i { l with inbox := none, departures := none, held := false }
      cleanups := n.cleanups ++ [l.address] } := by
  have hlink := h.link l (List.mem_of_getElem? found)
  have linked : Linked p { n with cleanups := n.cleanups ++ [l.address] }
      { l with inbox := none, departures := none, held := false } :=
    { other := hlink.other
      covered := hlink.covered
      reads := fun m hm => by cases hm
      held := ⟨fun _ => rfl, fun _ => rfl⟩
      -- Its queue is still there, but it is among those to be cleaned up.
      left := fun _ => .inr (List.mem_append_right _ (List.mem_singleton.2 rfl))
      watcher := fun d hd => by cases hd }
  exact h.relink found linked rfl (fun _ => rfl) (fun a ha => ⟨List.mem_singleton.1 ha, rfl⟩)

/-- A queue deleted after its client left keeps a network wired. -/
private theorem Wired.cleanup (h : Wired p n) {before after : List String} {a : String}
    (found : n.cleanups = before ++ a :: after) :
    Wired p { n with
      transport := (n.transport.deleteQueue a).2, cleanups := before ++ after } := by
  have ha : a ∈ n.cleanups := by simp [found]
  have hsub : ∀ x ∈ before ++ after, x ∈ n.cleanups := by
    intro x hx
    rw [found]
    rcases List.mem_append.1 hx with hx | hx
    · exact List.mem_append_left _ hx
    · exact List.mem_append_right _ (List.mem_cons_of_mem _ hx)
  -- Either way the queue is gone afterwards, and everybody else keeps what is theirs.
  obtain ⟨b, ht, keeps, hgone⟩ : ∃ b, (n.transport.deleteQueue a).2 = { broker := b } ∧
      Keeps p n b ∧ b.queues[a]? = none := by
    rcases Transport.deleteQueue_cases h.clear h.sound a with ⟨hnone, ht⟩ | ⟨id, m, hq, hm, ht⟩
    · refine ⟨n.transport.broker, ht.trans (transport_eq h.clear), ?_, hnone⟩
      exact ⟨h.sound, fun _ _ _ hr => hr, fun _ _ hq => hq, fun x hx => ⟨x, hx, rfl, rfl⟩⟩
    · exact ⟨_, ht, keeps_cleanup h ha hq hm, by rw [Broker.queues_without, if_pos rfl]⟩
  have h' := h.of_keeps keeps
  rw [ht]
  refine ⟨rfl, h'.sound, h'.server, h'.watcher, h'.apart, ?_, fun x hx => h.cleanups x (hsub x hx)⟩
  intro l hl
  have hlink := h'.link l hl
  refine ⟨hlink.other, hlink.covered, hlink.reads, hlink.held, fun hn => ?_, hlink.watcher⟩
  -- A link that has left had its queue deleted, or it stands in the list: now it is deleted, or
  -- stands there still.
  rcases hlink.left hn with hq | hmem
  · exact .inl hq
  · have hmem' : l.address ∈ before ++ a :: after := by rw [← found]; exact hmem
    rcases List.mem_append.1 hmem' with hm | hm
    · exact .inr (List.mem_append_left _ hm)
    · rcases List.mem_cons.1 hm with heq | hm
      · rw [heq]
        exact .inl hgone
      · exact .inr (List.mem_append_right _ hm)

/-- A client that joins keeps a network wired. -/
private theorem Wired.join (h : Wired p n) {a pattern : String}
    (free : n.transport.broker.queues[a]? = none) (covered : addressMatches p.pattern a = true)
    (apart : ∀ l ∈ n.links, l.address ≠ a) :
    Wired p { n with
      transport := { broker := n.transport.broker.joined a pattern }
      links := n.links ++ [{
        address := a
        inbox := some ⟨n.transport.broker.nextMailbox⟩
        departures := some ⟨n.transport.broker.nextWatcher⟩
        held := true }] } := by
  have keeps : Keeps p n (n.transport.broker.joined a pattern) := keeps_join h free apart
  have h' := h.of_keeps keeps
  refine ⟨rfl, h'.sound, h'.server, h'.watcher, ?_, ?_, ?_⟩
  -- The addresses are apart, since the new one is nobody's.
  · rw [List.map_append, List.nodup_append]
    refine ⟨h.apart, by simp, ?_⟩
    intro x hx y hy
    obtain ⟨l, hl, rfl⟩ := List.mem_map.1 hx
    obtain rfl := List.mem_singleton.1 hy
    exact apart l hl
  · intro l hl
    rcases List.mem_append.1 hl with hl | hl
    · have hlink := h'.link l hl
      exact ⟨hlink.other, hlink.covered, hlink.reads, hlink.held, hlink.left, hlink.watcher⟩
    -- The new link: its address is not the server's queue, which exists.
    · obtain rfl := List.mem_singleton.1 hl
      refine ⟨?_, covered, ?_, by simp, by simp, ?_⟩
      · rintro rfl
        rw [h.server.queue] at free
        cases free
      · intro m hm
        obtain rfl := Option.some.inj hm
        exact Broker.reads_joined _ a pattern
      · -- The server's watcher was there before, and the new one is counted after it.
        intro d hd
        obtain rfl := Option.some.inj hd
        intro heq
        obtain ⟨x, hx, -⟩ := h.watcher
        have := h.sound.watchers _ _ hx
        rw [← heq] at this
        exact Nat.lt_irrefl _ this
  · intro x hx
    obtain ⟨l, hl, hla⟩ := h.cleanups x hx
    exact ⟨l, List.mem_append_left _ hl, hla⟩

/-- A send keeps a network wired. -/
private theorem Wired.send (h : Wired p n) (a : String) (e : Envelope) :
    Wired p { n with transport := (n.transport.send a e).2 } := by
  rcases Transport.send_cases h.clear a e with ⟨err, ht⟩ | ⟨id, m, bytes, hq, hm, hb, ht⟩
  · rw [ht]
    exact h
  · rw [ht]
    exact h.of_keeps (keeps_setMailbox h hm rfl rfl)

/-- A receipt keeps a network wired. -/
private theorem Wired.receive (h : Wired p n) {id : MailboxId} {e : Envelope} {t : Transport}
    (go : n.transport.receive id = (.envelope e, t)) : Wired p { n with transport := t } := by
  obtain ⟨m, m', hm, -, hr, hl, rfl⟩ := Transport.receive_envelope go
  have := h.of_keeps (keeps_setMailbox h hm hr hl)
  rwa [← h.clear] at this

/-- A step keeps a network wired. -/
theorem Wired.step {n' : Network} {log : List Transit} (h : Wired p n) (next : Step p n log n') :
    Wired p n' := by
  -- The three ways a network changes: what is in the mailboxes, the watchers, and the links.
  cases next with
  | say known => exact h.send _ _
  | serve go => exact h.receive go
  | depart go =>
    obtain ⟨⟨a, b⟩, hb, heq⟩ := Option.map_eq_some_iff.1 go
    obtain ⟨rfl, rfl⟩ := Prod.mk.injEq .. ▸ heq
    have := h.of_keeps (keeps_depart h hb)
    rwa [← h.clear] at this
  | take found inbox go => exact h.receive go
  | post => exact h.send _ _
  | watch other same =>
    have := h.of_keeps (keeps_watch h same other)
    rwa [← h.clear] at this
  | blind found => exact h.blind found
  | leave found => exact h.leave found
  | deafen other free =>
    have := h.of_keeps (keeps_deafen h other free)
    rwa [← h.clear] at this
  | cleanup found => exact h.cleanup found
  | join free covered apart => exact h.join free covered apart

end Network

end StreamRpc
