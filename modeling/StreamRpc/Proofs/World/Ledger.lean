import StreamRpc.Proofs.World.Network

/-! # What passed, and what is still on the queues

Whatever the server put on the reply queue of a client is what the client has taken off it, and then
what still waits there; and so it is with the server's queue.  The server is told once of every
reply queue that is gone, and after that no envelope gets there any more.

* `Network.Ledger.step`    the log and the queues agree after every step
* `Network.Ledger.steps`   and after every number of steps
-/

namespace StreamRpc

open Transit
open Wire (Bytes)

namespace Network

/-- The log agrees with the queues. -/
structure Ledger (p : Ports) (log : List Transit) (n : Network) : Prop where
  posted : allPosted log = allServed log ++ n.transport.broker.letters p.inbox
  said : ∀ (i : Nat) l m, n.links[i]? = some l → l.inbox = some m →
    allSaid log l.address = allTook log i ++ n.transport.broker.letters m
  took : ∀ (i : Nat) l, n.links[i]? = some l → allTook log i <+: allSaid log l.address
  beyond : ∀ i, n.links.length ≤ i → allTook log i = []
  /-- A queue that is read refuses only what cannot be flattened. -/
  refused : ∀ l ∈ n.links, l.inbox ≠ none → ∀ e, .said l.address e false ∈ log →
    ∃ err, e.toBytes = .error err
  unposted : ∀ i e, .posted i e false ∈ log → ∃ err, e.toBytes = .error err
  known : ∀ a e accepted, .said a e accepted ∈ log → ∃ l ∈ n.links, l.address = a
  departed : ∀ x, n.transport.broker.watchers[p.watcher.index]? = some x → ∀ a,
    a ∈ allDeparted log ++ x.departures ↔
      (∃ l ∈ n.links, l.address = a) ∧ n.transport.broker.queues[a]? = none
  last : ∀ pre a post, log = pre ++ .departed a :: post → ∀ e, .said a e true ∉ post

variable {p : Ports} {n n' : Network} {log : List Transit}

/-- Nobody's letters change, and no queue comes or goes. -/
structure Quiet (p : Ports) (n n' : Network) : Prop where
  letters : ∀ name m, Owns p n' name m →
    n'.transport.broker.letters m = n.transport.broker.letters m
  queues : n'.transport.broker.queues = n.transport.broker.queues
  watcher : n'.transport.broker.watchers[p.watcher.index]? =
    n.transport.broker.watchers[p.watcher.index]?
  addresses : n'.links.map (·.address) = n.links.map (·.address)
  inboxes : ∀ (i : Nat) l' m, n'.links[i]? = some l' → l'.inbox = some m →
    ∃ l, n.links[i]? = some l ∧ l.inbox = some m

/-- When the addresses are the same, each link has its old one's. -/
private theorem address_at {links links' : List Link}
    (h : links'.map (·.address) = links.map (·.address)) {i : Nat} {l' : Link}
    (hl : links'[i]? = some l') : ∃ l, links[i]? = some l ∧ l.address = l'.address := by
  have hi : (links'.map (·.address))[i]? = some l'.address := by
    rw [List.getElem?_map, hl]
    rfl
  rw [h, List.getElem?_map] at hi
  exact Option.map_eq_some_iff.1 hi

/-- When the addresses are the same, the same ones are linked. -/
theorem mem_addresses {links links' : List Link}
    (h : links'.map (·.address) = links.map (·.address)) (a : String) :
    (∃ l ∈ links', l.address = a) ↔ ∃ l ∈ links, l.address = a := by
  have hmem : a ∈ links'.map (·.address) ↔ a ∈ links.map (·.address) := by rw [h]
  simpa only [List.mem_map] using hmem

/-- A quiet step keeps the ledger. -/
private theorem Ledger.of_quiet (h : Ledger p log n) (quiet : Quiet p n n') : Ledger p log n' where
  posted := by
    rw [quiet.letters p.queue p.inbox (.inl ⟨rfl, rfl⟩)]
    exact h.posted
  -- A link that still has its queue had it before, under the same address.
  said i l' m hl hm := by
    obtain ⟨l, hl', hm'⟩ := quiet.inboxes i l' m hl hm
    obtain ⟨l₁, hl₁, haddress⟩ := address_at quiet.addresses hl
    rw [hl'] at hl₁
    obtain rfl := Option.some.inj hl₁
    rw [quiet.letters l'.address m (.inr ⟨l', List.mem_of_getElem? hl, rfl, hm⟩), ← haddress]
    exact h.said i l m hl' hm'
  took i l' hl := by
    obtain ⟨l, hl', haddress⟩ := address_at quiet.addresses hl
    rw [← haddress]
    exact h.took i l hl'
  beyond i hi := by
    have hlength := congrArg List.length quiet.addresses
    rw [List.length_map, List.length_map] at hlength
    exact h.beyond i (by omega)
  -- So a queue that is read now was read before, and what it refused then could not be flattened.
  refused l' hl hne e he := by
    obtain ⟨i, hi⟩ := List.mem_iff_getElem?.1 hl
    obtain ⟨m, hm⟩ := Option.ne_none_iff_exists'.1 hne
    obtain ⟨l, hl', hm'⟩ := quiet.inboxes i l' m hi hm
    obtain ⟨l₁, hl₁, haddress⟩ := address_at quiet.addresses hi
    rw [hl'] at hl₁
    obtain rfl := Option.some.inj hl₁
    refine h.refused l (List.mem_of_getElem? hl') ?_ e (by rwa [haddress])
    rw [hm']
    exact Option.some_ne_none m
  unposted := h.unposted
  known a e accepted he := (mem_addresses quiet.addresses a).2 (h.known a e accepted he)
  departed x hx a := by
    rw [quiet.watcher] at hx
    rw [quiet.queues, mem_addresses quiet.addresses]
    exact h.departed x hx a
  last := h.last

/-- What is logged last comes after everything before. -/
private theorem Ledger.last_append (h : Ledger p log n) {x : Transit}
    (hx : ∀ a e, x = .said a e true → .departed a ∉ log) (pre : List Transit) (a : String)
    (post : List Transit) (heq : log ++ [x] = pre ++ .departed a :: post) (e : Envelope) :
    .said a e true ∉ post := by
  intro he
  -- The departure is not the last entry, since something comes after it: the new entry ends the
  -- rest.
  obtain ⟨post', rfl⟩ : ∃ post', post = post' ++ [x] := by
    rcases List.eq_nil_or_concat post with rfl | ⟨post', y, rfl⟩
    · cases he
    · have : log ++ [x] = (pre ++ .departed a :: post') ++ [y] := by simpa using heq
      obtain ⟨-, hxy⟩ := List.append_inj' this rfl
      obtain rfl := List.singleton_inj.1 hxy
      exact ⟨post', by simp⟩
  have hsplit : log ++ [x] = (pre ++ .departed a :: post') ++ [x] := by simpa using heq
  have hlog := List.append_cancel_right hsplit
  rcases List.mem_append.1 he with he | he
  · exact h.last pre a post' hlog e he
  · obtain rfl := List.mem_singleton.1 he
    exact hx a e rfl (by simp [hlog])

/-- An address has departed when the log has it. -/
theorem mem_allDeparted {a : String} : a ∈ allDeparted log ↔ .departed a ∈ log := by
  constructor
  · intro h
    obtain ⟨x, hx, heq⟩ := List.mem_filterMap.1 h
    cases x with
    | departed b =>
      obtain rfl := Option.some.inj heq
      exact hx
    | _ => cases heq
  · exact fun h => List.mem_filterMap.2 ⟨_, h, rfl⟩

/-- A queue that exists was not heard to be gone. -/
theorem Ledger.not_departed (wired : Wired p n) (h : Ledger p log n) {a : String} {id : MailboxId}
    (hq : n.transport.broker.queues[a]? = some id) : .departed a ∉ log := by
  intro hmem
  obtain ⟨x, hx, -⟩ := wired.watcher
  have := ((h.departed x hx a).1 (List.mem_append_left _ (mem_allDeparted.2 hmem))).2
  rw [hq] at this
  cases this

/-! ## Letters that come and go -/

/-- Two queues are not read through one mailbox. -/
private theorem Wired.mailbox_ne (h : Wired p n) {name other : String} {id m : MailboxId}
    (hq : n.transport.broker.queues[name]? = some id) (owns : Owns p n other m)
    (hne : name ≠ other) : id ≠ m := by
  rintro rfl
  exact hne (h.sound.apart _ _ _ hq (h.owns owns).queue)

/-- A link that has a mailbox owns it. -/
private theorem Wired.owns_link {i : Nat} {l : Link} {m : MailboxId}
    (hl : n.links[i]? = some l) (hm : l.inbox = some m) : Owns p n l.address m :=
  .inr ⟨l, List.mem_of_getElem? hl, rfl, hm⟩

/-- A letter put into a mailbox is the last of its letters, and no other's. -/
private theorem letters_put {b : Broker} {id : MailboxId} {m : Mailbox} {e : Envelope}
    {bytes : Bytes}
    (hm : b.mailboxes[id.index]? = some m) (hb : e.toBytes = .ok bytes) (other : MailboxId) :
    (b.setMailbox id { m with waiting := m.waiting ++ [bytes] }).letters other =
      b.letters other ++ if id = other then [e] else [] := by
  rw [Broker.letters_set, Transport.letters_deposit hb]
  -- The letter is added to one mailbox; the others keep theirs.
  split
  · next heq =>
    subst heq
    rw [Broker.letters, hm]
    rfl
  · rw [List.append_nil]

/-- What has to be so for an entry to be made. -/
def Justified (log : List Transit) (n : Network) : Transit → Prop
  | .said a _ true => (∃ l ∈ n.links, l.address = a) ∧ .departed a ∉ log
  | .said a e false => (∃ l ∈ n.links, l.address = a) ∧
      ∀ l ∈ n.links, l.address = a → l.inbox ≠ none → ∃ err, e.toBytes = .error err
  | .posted _ e false => ∃ err, e.toBytes = .error err
  | _ => True

/-- One more entry, about a letter that was put somewhere or taken. -/
private theorem Ledger.enter (h : Ledger p log n) {x : Transit} {b : Broker}
    (queues : b.queues = n.transport.broker.queues)
    (watchers : b.watchers = n.transport.broker.watchers) (departed : allDeparted [x] = [])
    (justified : Justified log n x)
    (posted : allPosted log ++ allPosted [x] = allServed log ++ allServed [x] ++ b.letters p.inbox)
    (said : ∀ (i : Nat) l m, n.links[i]? = some l → l.inbox = some m →
      allSaid log l.address ++ allSaid [x] l.address = allTook log i ++ allTook [x] i ++ b.letters m)
    (took : ∀ i, allTook [x] i ≠ [] → ∃ l m, n.links[i]? = some l ∧ l.inbox = some m) :
    Ledger p (log ++ [x]) { n with transport := { broker := b } } where
  posted := by
    rw [allPosted_append, allServed_append]
    exact posted
  said i l m hl hm := by
    rw [allSaid_append, allTook_append]
    exact said i l m hl hm
  took i l hl := by
    rw [allSaid_append, allTook_append]
    by_cases hnil : allTook [x] i = []
    · rw [hnil, List.append_nil]
      exact (h.took i l hl).trans (List.prefix_append _ _)
    · -- A client that takes a letter has its queue still, and takes them in the order of that.
      obtain ⟨l', m, hl', hm⟩ := took i hnil
      rw [hl] at hl'
      obtain rfl := Option.some.inj hl'
      rw [said i l m hl hm]
      exact List.prefix_append _ _
  -- There is no link beyond the last one, so nobody takes anything there.
  beyond i hi := by
    rw [allTook_append, h.beyond i hi, List.nil_append]
    refine Decidable.byContradiction fun hne => ?_
    obtain ⟨l, m, hl, -⟩ := took i hne
    rw [List.getElem?_eq_none hi] at hl
    cases hl
  refused l hl hne e he := by
    rcases List.mem_append.1 he with he | he
    · exact h.refused l hl hne e he
    · obtain rfl := List.mem_singleton.1 he
      exact justified.2 l hl rfl hne
  unposted i e he := by
    rcases List.mem_append.1 he with he | he
    · exact h.unposted i e he
    · obtain rfl := List.mem_singleton.1 he
      exact justified
  known a e accepted he := by
    rcases List.mem_append.1 he with he | he
    · exact h.known a e accepted he
    · obtain rfl := List.mem_singleton.1 he
      cases accepted with
      | true => exact justified.1
      | false => exact justified.1
  -- The queues are the same, so nobody has departed who had not before.
  departed y hy a := by
    rw [allDeparted_append, departed, List.append_nil]
    have hy' : n.transport.broker.watchers[p.watcher.index]? = some y := watchers ▸ hy
    exact (h.departed y hy' a).trans (by rw [queues])
  last := h.last_append fun a e heq => by
    subst heq
    exact justified.2

/-- The server's queue is as it was, and the entry is not about it. -/
private theorem Ledger.posted_still (h : Ledger p log n) {x : Transit} {b : Broker}
    (posted : allPosted [x] = []) (served : allServed [x] = [])
    (letters : b.letters p.inbox = n.transport.broker.letters p.inbox) :
    allPosted log ++ allPosted [x] = allServed log ++ allServed [x] ++ b.letters p.inbox := by
  rw [posted, served, letters, List.append_nil, List.append_nil]
  exact h.posted

/-- A reply queue is as it was, and the entry is not about it. -/
private theorem Ledger.said_still (h : Ledger p log n) {x : Transit} {b : Broker} {i : Nat}
    {l : Link}
    {m : MailboxId} (found : n.links[i]? = some l) (inbox : l.inbox = some m)
    (said : allSaid [x] l.address = []) (took : allTook [x] i = [])
    (letters : b.letters m = n.transport.broker.letters m) :
    allSaid log l.address ++ allSaid [x] l.address = allTook log i ++ allTook [x] i ++ b.letters m := by
  rw [said, took, letters, List.append_nil, List.append_nil]
  exact h.said i l m found inbox

/-- An envelope that was refused is nowhere. -/
private theorem Ledger.refuse (wired : Wired p n) (h : Ledger p log n) {x : Transit}
    (departed : allDeparted [x] = []) (justified : Justified log n x)
    (posted : allPosted [x] = []) (served : allServed [x] = []) (said : ∀ a, allSaid [x] a = [])
    (took : ∀ i, allTook [x] i = []) : Ledger p (log ++ [x]) n := by
  have := h.enter rfl rfl departed justified (h.posted_still posted served rfl)
    (fun i l m hl hm => h.said_still hl hm (said l.address) (took i) rfl)
    (fun i hne => absurd (took i) hne)
  rwa [← transport_eq wired.clear] at this

/-- The server puts an envelope on a reply queue. -/
private theorem Ledger.say (wired : Wired p n) (h : Ledger p log n) {a : String} (e : Envelope)
    (known : ∃ l ∈ n.links, l.address = a) :
    Ledger p (log ++ [.said a e (n.transport.send a e).1.isOk])
      { n with transport := (n.transport.send a e).2 } := by
  rcases Transport.send_cases wired.clear a e with ⟨err, ht⟩ | ⟨id, m, bytes, hq, hm, hb, ht⟩
  · rw [ht]
    refine h.refuse wired rfl ⟨known, ?_⟩ rfl rfl (fun _ => rfl) (fun _ => rfl)
    -- A queue that is read takes whatever can be flattened.
    intro l hl hla hne
    obtain ⟨m, hm⟩ := Option.ne_none_iff_exists'.1 hne
    have hreads := (wired.link l hl).reads m hm
    rw [hla] at hreads
    cases hb : e.toBytes with
    | error err => exact ⟨err, rfl⟩
    | ok bytes =>
      have := Transport.send_of_reads wired.clear hreads hb
      rw [ht] at this
      cases this
  · rw [ht]
    have hput := letters_put hm hb
    refine h.enter rfl rfl rfl ⟨known, h.not_departed wired hq⟩ ?_ ?_ (fun i hne => absurd rfl hne)
    · -- A reply queue is not the server's queue.
      obtain ⟨l, hl, hla⟩ := known
      have hne : id ≠ p.inbox := by
        refine wired.mailbox_ne hq (.inl ⟨rfl, rfl⟩) ?_
        rw [← hla]
        exact (wired.link l hl).other
      refine h.posted_still rfl rfl ?_
      rw [hput, if_neg hne, List.append_nil]
    · intro i l m' hl hi
      have hown := Wired.owns_link (p := p) hl hi
      -- What is said to an address is put on the queue of that address and on no other.
      by_cases hla : a = l.address
      · have hid : id = m' := by
          have := (wired.owns hown).queue
          rw [← hla, hq] at this
          exact Option.some.inj this
        have hsaid : allSaid [.said a e true] l.address = [e] := by simp [allSaid, said?, hla]
        have htook : allTook [.said a e true] i = [] := rfl
        show _ ++ allSaid [.said a e true] _ = _ ++ allTook [.said a e true] _ ++ _
        rw [hsaid, htook, List.append_nil, hput, if_pos hid, ← List.append_assoc,
          ← h.said i l m' hl hi]
      · have hsaid : allSaid [.said a e true] l.address = [] := by simp [allSaid, said?, hla]
        refine h.said_still hl hi hsaid rfl ?_
        rw [hput, if_neg (wired.mailbox_ne hq hown hla), List.append_nil]

/-- A client puts an envelope on the server's queue. -/
theorem Ledger.post (wired : Wired p n) (h : Ledger p log n) (i : Nat) (e : Envelope) :
    Ledger p (log ++ [.posted i e (n.transport.send p.queue e).1.isOk])
      { n with transport := (n.transport.send p.queue e).2 } := by
  rcases Transport.send_cases wired.clear p.queue e with
    ⟨err, ht⟩ | ⟨id, m, bytes, hq, hm, hb, ht⟩
  · rw [ht]
    refine h.refuse wired rfl ?_ rfl rfl (fun _ => rfl) (fun _ => rfl)
    -- The server's queue is read, and takes whatever can be flattened.
    show ∃ err, e.toBytes = .error err
    cases hb : e.toBytes with
    | error err => exact ⟨err, rfl⟩
    | ok bytes =>
      have := Transport.send_of_reads wired.clear wired.server hb
      rw [ht] at this
      cases this
  · rw [ht]
    have hput := letters_put hm hb
    -- The letter is the last on the server's queue, and on no other.
    obtain rfl : id = p.inbox := Option.some.inj (hq.symm.trans wired.server.queue)
    refine h.enter rfl rfl rfl trivial ?_ ?_ (fun i hne => absurd rfl hne)
    · rw [hput, if_pos rfl, ← List.append_assoc]
      show _ = allServed log ++ [] ++ _ ++ _
      rw [List.append_nil, ← h.posted]
      rfl
    · intro j l m' hl hi
      -- The server's queue is nobody's reply queue.
      have hne : p.inbox ≠ m' := wired.mailbox_ne hq (Wired.owns_link hl hi)
        (wired.link l (List.mem_of_getElem? hl)).other.symm
      refine h.said_still hl hi rfl rfl ?_
      rw [hput, if_neg hne, List.append_nil]

/-- A letter received is the first of its mailbox, and no other's. -/
private theorem letters_receive {t t' : Transport} {id : MailboxId} {e : Envelope}
    (go : t.receive id = (.envelope e, t')) (hclear : t.faults = []) :
    ∃ b, t' = { broker := b } ∧ b.queues = t.broker.queues ∧ b.watchers = t.broker.watchers ∧
      t.broker.letters id = e :: b.letters id ∧
      ∀ other, id ≠ other → b.letters other = t.broker.letters other := by
  obtain ⟨m, m', hm, hl, -, -, rfl⟩ := Transport.receive_envelope go
  -- Receiving takes the first legible letter and drops what stood before it unread.
  refine ⟨t.broker.setMailbox id m', by rw [← hclear], rfl, rfl, ?_, ?_⟩
  · rw [Broker.letters_set, if_pos rfl, Broker.letters, hm]
    exact hl
  · intro other hne
    rw [Broker.letters_set, if_neg hne]

/-- The server takes an envelope off its queue. -/
private theorem Ledger.serve (wired : Wired p n) (h : Ledger p log n) {e : Envelope} {t : Transport}
    (go : n.transport.receive p.inbox = (.envelope e, t)) :
    Ledger p (log ++ [.served e]) { n with transport := t } := by
  obtain ⟨b, rfl, hqueues, hwatchers, hself, hothers⟩ := letters_receive go wired.clear
  refine h.enter hqueues hwatchers rfl trivial ?_ ?_ (fun i hne => absurd rfl hne)
  · rw [List.append_assoc]
    -- What was first on the queue is now the last of what was served.
    show _ = allServed log ++ e :: b.letters p.inbox
    rw [← hself, ← h.posted]
    exact List.append_nil _
  · intro i l m hl hm
    -- The reply queues are other queues.
    have hne : p.inbox ≠ m := wired.mailbox_ne wired.server.queue (Wired.owns_link hl hm)
      (wired.link l (List.mem_of_getElem? hl)).other.symm
    exact h.said_still hl hm rfl rfl (hothers m hne)

/-- A client takes an envelope off its reply queue. -/
private theorem Ledger.take (wired : Wired p n) (h : Ledger p log n) {i : Nat} {l : Link}
    {m : MailboxId}
    {e : Envelope} {t : Transport} (found : n.links[i]? = some l) (inbox : l.inbox = some m)
    (go : n.transport.receive m = (.envelope e, t)) :
    Ledger p (log ++ [.took i e]) { n with transport := t } := by
  obtain ⟨b, rfl, hqueues, hwatchers, hself, hothers⟩ := letters_receive go wired.clear
  have hreads := wired.owns (Wired.owns_link found inbox)
  have htook_ne : ∀ j, i ≠ j → allTook [.took i e] j = [] := by
    intro j hij
    simp [allTook, took?, hij]
  refine h.enter hqueues hwatchers rfl trivial ?_ ?_ ?_
  -- A reply queue is not the server's queue.
  · have hne : m ≠ p.inbox := wired.mailbox_ne hreads.queue (.inl ⟨rfl, rfl⟩)
      (wired.link l (List.mem_of_getElem? found)).other
    exact h.posted_still rfl rfl (hothers _ hne)
  · intro j l' m' hl hm
    -- The client that takes the letter has it now, and it is off its queue; the others have other
    -- queues.
    by_cases hij : i = j
    · subst hij
      rw [found] at hl
      obtain rfl := Option.some.inj hl
      rw [inbox] at hm
      obtain rfl := Option.some.inj hm
      have htook : allTook [.took i e] i = [e] := by simp [allTook, took?]
      show _ ++ [] = _
      rw [List.append_nil, h.said i l m found inbox, htook, hself, List.append_assoc]
      rfl
    · have hne : m ≠ m' := wired.mailbox_ne hreads.queue (Wired.owns_link hl hm)
        fun heq => hij (wired.index found hl heq)
      exact h.said_still hl hm rfl (htook_ne j hij) (hothers m' hne)
  · intro j hne
    refine ⟨l, m, ?_, inbox⟩
    by_cases hij : i = j
    · rwa [← hij]
    · exact absurd (htook_ne j hij) hne

/-! ## Queues that come and go -/

/-- The server hears that a reply queue is gone. -/
private theorem Ledger.depart (h : Ledger p log n) {a : String} {b : Broker}
    (go : n.transport.broker.departure? p.watcher = some (a, b)) :
    Ledger p (log ++ [.departed a]) { n with transport := { broker := b } } := by
  have same := Broker.sameQueues_departure go
  obtain ⟨x, rest, hx, hdepartures, rfl⟩ := Broker.departure?_eq go
  -- The entry is about no letter, so of letters the log says what it said.
  have hold : ∀ y : Transit, (∀ c, y ≠ .departed c) → y ∈ log ++ [.departed a] → y ∈ log := by
    intro y hy hmem
    rcases List.mem_append.1 hmem with hmem | hmem
    · exact hmem
    · exact absurd (List.mem_singleton.1 hmem) (hy a)
  exact {
    posted := by
      rw [allPosted_append, allServed_append]
      exact h.posted_still rfl rfl (same.letters _)
    said := fun i l m hl hm => by
      rw [allSaid_append, allTook_append]
      exact h.said_still hl hm rfl rfl (same.letters _)
    took := fun i l hl => by
      have hnone : allTook [.departed a] i = [] := rfl
      have hnone' : allSaid [.departed a] l.address = [] := rfl
      rw [allSaid_append, allTook_append, hnone, hnone', List.append_nil, List.append_nil]
      exact h.took i l hl
    beyond := fun i hi => by
      rw [allTook_append, h.beyond i hi]
      rfl
    refused := fun l hl hne e he => h.refused l hl hne e (hold _ (fun c heq => by cases heq) he)
    unposted := fun i e he => h.unposted i e (hold _ (fun c heq => by cases heq) he)
    known := fun b e accepted he => h.known b e accepted (hold _ (fun c heq => by cases heq) he)
    departed := fun y hy b => by
      -- What was first in the watcher's list is now the last of what was heard.
      have hy' : y = { x with departures := rest } :=
        (Option.some.inj (Std.ExtTreeMap.getElem?_insert_self.symm.trans hy)).symm
      have hone : allDeparted [.departed a] = [a] := rfl
      subst hy'
      rw [allDeparted_append, hone, List.append_assoc, List.singleton_append, ← hdepartures]
      exact h.departed x hx b
    last := h.last_append fun b e heq => by cases heq }

/-- A queue that belongs to nobody any more is deleted. -/
private theorem Ledger.cleanup (wired : Wired p n) (h : Ledger p log n) {before after : List String}
    {a : String} (found : n.cleanups = before ++ a :: after) :
    Ledger p log { n with
      transport := (n.transport.deleteQueue a).2, cleanups := before ++ after } := by
  have ha : a ∈ n.cleanups := by simp [found]
  rcases Transport.deleteQueue_cases wired.clear wired.sound a with
    ⟨hnone, ht⟩ | ⟨id, m, hq, hm, ht⟩
  · rw [ht]
    -- There was no such queue any more.
    exact h.of_quiet ⟨fun _ _ _ => rfl, rfl, rfl, rfl, fun i l m hl hm => ⟨l, hl, hm⟩⟩
  · rw [ht]
    -- The queue was a client's, so the server's watcher covers it and hears that it is gone.
    obtain ⟨l₀, hl₀, hl₀a, -⟩ := wired.cleanups a ha
    obtain ⟨x, hx, hpattern, hlisten⟩ := wired.watcher
    have hcovered := (wired.link l₀ hl₀).covered
    rw [hl₀a] at hcovered
    have htell : Broker.Watcher.tell a x = { x with departures := x.departures ++ [a] } := by
      unfold Broker.Watcher.tell
      rw [hpattern, if_pos hcovered]
    have hstays : Broker.Watcher.stays a x = true := by simp [Broker.Watcher.stays, hlisten]
    have hletters : ∀ other, (n.transport.broker.without a id m).letters other =
        n.transport.broker.letters other := Broker.letters_without _ hm
    exact {
      posted := (hletters p.inbox).symm ▸ h.posted
      said := fun i l m' hl hi => (hletters m').symm ▸ h.said i l m' hl hi
      took := h.took
      beyond := h.beyond
      refused := h.refused
      unposted := h.unposted
      known := h.known
      departed := fun y hy b => by
        have hy' : y = { x with departures := x.departures ++ [a] } := by
          have hy' := (Broker.watchers_without ..).symm.trans hy
          rw [hx] at hy'
          simp only [Option.filter, hstays, if_true, Option.map_some, htell] at hy'
          exact (Option.some.inj hy').symm
        subst hy'
        show _ ↔ _ ∧ (Broker.without _ _ _ _).queues[b]? = none
        rw [← List.append_assoc, List.mem_append, h.departed x hx b, List.mem_singleton,
          Broker.queues_without]
        -- This queue is in the watcher's list and does not exist; for the others nothing changes.
        by_cases hba : a = b
        · subst hba
          rw [if_pos rfl]
          exact ⟨fun _ => ⟨⟨l₀, hl₀, hl₀a⟩, rfl⟩, fun _ => .inr rfl⟩
        · rw [if_neg hba]
          exact ⟨fun hb => hb.elim (fun hb => hb) fun heq => absurd heq.symm hba, .inl⟩
      last := h.last }

/-- Nothing was said to an address nobody has had. -/
private theorem Ledger.unknown (h : Ledger p log n) {a : String}
    (apart : ∀ l ∈ n.links, l.address ≠ a)
    (e : Envelope) (accepted : Bool) : .said a e accepted ∉ log := by
  intro he
  obtain ⟨l, hl, hla⟩ := h.known a e accepted he
  exact apart l hl hla

/-- Nothing got through to an address nobody has had. -/
private theorem Ledger.allSaid_of_unknown (h : Ledger p log n) {a : String}
    (apart : ∀ l ∈ n.links, l.address ≠ a) : allSaid log a = [] := by
  refine List.filterMap_eq_nil_iff.2 fun x hx => ?_
  -- An accepted message goes to an address that some link has.
  cases x with
  | said b e accepted =>
    cases accepted with
    | false => rfl
    | true =>
      have hne : b ≠ a := fun heq => h.unknown apart e true (heq ▸ hx)
      simp [said?, hne]
  | _ => rfl

/-- A link of a longer list is an old one or the new one. -/
private theorem getElem?_concat_cases {links : List Link} {i : Nat} {l' x : Link}
    (h : (links ++ [l'])[i]? = some x) : links[i]? = some x ∨ i = links.length ∧ x = l' := by
  rw [List.getElem?_append] at h
  split at h
  · exact .inl h
  · next hi =>
    have hlt := (List.getElem?_eq_some_iff.1 h).1
    rw [List.length_singleton] at hlt
    exact .inr ⟨by omega, List.mem_singleton.1 (List.mem_of_getElem? h)⟩

/-- A client comes. -/
private theorem Ledger.join (wired : Wired p n) (h : Ledger p log n) {a pattern : String}
    (apart : ∀ l ∈ n.links, l.address ≠ a) :
    Ledger p log { n with
      transport := { broker := n.transport.broker.joined a pattern }
      links := n.links ++ [{
        address := a
        inbox := some ⟨n.transport.broker.nextMailbox⟩
        departures := some ⟨n.transport.broker.nextWatcher⟩
        held := true }] } := by
  have hletters := Broker.letters_joined wired.sound a pattern
  -- Nobody had this address before, so nothing was said to it.
  have hsaid := h.allSaid_of_unknown apart
  have hempty : n.transport.broker.letters ⟨n.transport.broker.nextMailbox⟩ = [] :=
    wired.sound.letters_beyond (Nat.le_refl _)
  exact {
    posted := (hletters p.inbox).symm ▸ h.posted
    said := fun i l m hl hm => by
      show _ = _ ++ Broker.letters (Broker.joined _ _ _) _
      rw [hletters]
      rcases getElem?_concat_cases hl with hl | ⟨rfl, rfl⟩
      · exact h.said i l m hl hm
      · obtain rfl := Option.some.inj hm
        rw [hsaid, h.beyond _ (Nat.le_refl _), hempty]
        rfl
    took := fun i l hl => by
      rcases getElem?_concat_cases hl with hl | ⟨rfl, rfl⟩
      · exact h.took i l hl
      · rw [h.beyond _ (Nat.le_refl _)]
        exact List.nil_prefix
    beyond := fun i hi => by
      rw [List.length_append] at hi
      exact h.beyond i (by omega)
    refused := fun l hl hne e he => by
      rcases List.mem_append.1 hl with hl | hl
      · exact h.refused l hl hne e he
      · obtain rfl := List.mem_singleton.1 hl
        exact absurd he (h.unknown apart e false)
    unposted := h.unposted
    known := fun b e accepted he => by
      obtain ⟨l, hl, hla⟩ := h.known b e accepted he
      exact ⟨l, List.mem_append_left _ hl, hla⟩
    departed := fun y hy b => by
      -- The client's own watcher is another one than the server's.
      have hy' : n.transport.broker.watchers[p.watcher.index]? = some y := by
        obtain ⟨x, hx, -⟩ := wired.watcher
        have hlt := wired.sound.watchers _ _ hx
        have hy' := (Broker.watchers_joined ..).symm.trans hy
        rwa [if_neg (by omega)] at hy'
      show _ ↔ _ ∧ (Broker.joined _ _ _).queues[b]? = none
      rw [h.departed y hy' b, Broker.queues_joined]
      -- The new address has a queue, and nobody had it before; every other address is as it was.
      by_cases hba : a = b
      · subst hba
        rw [if_pos rfl]
        constructor
        · rintro ⟨⟨l, hl, hla⟩, -⟩
          exact absurd hla (apart l hl)
        · rintro ⟨-, hsome⟩
          cases hsome
      · rw [if_neg hba]
        refine and_congr_left fun _ => ?_
        simp only [List.mem_append, List.mem_singleton, or_and_right, exists_or, exists_eq_left,
          hba, or_false]
    last := h.last }

/-! ## All steps -/

/-- A link of a changed list is the new one or an old one. -/
theorem getElem?_set_cases {links : List Link} {i j : Nat} {l' x : Link}
    (h : (links.set i l')[j]? = some x) : (i = j ∧ x = l') ∨ links[j]? = some x := by
  rw [List.getElem?_set] at h
  split at h
  · next hij =>
    split at h
    · exact .inl ⟨hij, (Option.some.inj h).symm⟩
    · cases h
  · exact .inr h

/-- A client changes what it has to do with the queues, and gets no other queue. -/
private theorem Quiet.relink {i : Nat} {l : Link} (found : n.links[i]? = some l) (l' : Link)
    (haddress : l'.address = l.address) (hinbox : ∀ m, l'.inbox = some m → l.inbox = some m)
    (cleanups : List String) :
    Quiet p n { n with links := n.links.set i l', cleanups } where
  letters _ _ _ := rfl
  queues := rfl
  watcher := rfl
  addresses := map_set found haddress
  inboxes j x m hx hm := by
    -- The mailbox of the changed link was the old one's, if it has one at all.
    rcases getElem?_set_cases hx with ⟨rfl, rfl⟩ | hx
    · exact ⟨l, found, hinbox m hm⟩
    · exact ⟨x, hx, hm⟩

/-- Dropping a mailbox nobody owns is quiet. -/
private theorem Quiet.deafen {m : MailboxId} (other : m ≠ p.inbox)
    (free : ∀ l ∈ n.links, l.inbox ≠ some m) :
    Quiet p n { n with transport := n.transport.dropReader m } := by
  -- No queue that matters is read through this mailbox.
  have hne : ∀ name m', Owns p n name m' → m ≠ m' := by
    rintro name m' (⟨-, rfl⟩ | ⟨l, hl, -, hm⟩) rfl
    · exact other rfl
    · exact free l hl hm
  unfold Transport.dropReader
  rcases Broker.dropReader_cases n.transport.broker m with heq | ⟨x, x', hx, heq⟩
  · rw [heq]
    exact ⟨fun _ _ _ => rfl, rfl, rfl, rfl, fun i l m hl hm => ⟨l, hl, hm⟩⟩
  · rw [heq]
    refine ⟨fun name m' owns => ?_, rfl, rfl, rfl, fun i l m hl hm => ⟨l, hl, hm⟩⟩
    show Broker.letters (Broker.setMailbox _ _ _) _ = _
    rw [Broker.letters_set, if_neg (hne name m' owns)]

/-- A step of the network keeps the ledger. -/
theorem Ledger.step {es : List Transit} (wired : Wired p n) (h : Ledger p log n)
    (next : Step p n es n') : Ledger p (log ++ es) n' := by
  -- The first five pass something on and are entered; of the rest only the deletion of a queue is
  -- more than quiet.
  cases next with
  | say known => exact h.say wired _ known
  | serve go => exact h.serve wired go
  | depart go =>
    obtain ⟨⟨a, b⟩, hb, heq⟩ := Option.map_eq_some_iff.1 go
    obtain ⟨rfl, rfl⟩ := Prod.mk.injEq .. ▸ heq
    have := h.depart hb
    rwa [← wired.clear] at this
  | take found inbox go => exact h.take wired found inbox go
  | post => exact h.post wired _ _
  | watch other same =>
    rw [List.append_nil]
    refine h.of_quiet ⟨fun _ m _ => same.letters m, same.queues, ?_, rfl,
      fun i l m hl hm => ⟨l, hl, hm⟩⟩
    exact same.others _ (index_ne other)
  | @blind i l found =>
    rw [List.append_nil]
    exact h.of_quiet (Quiet.relink found { l with departures := none } rfl (fun m hm => hm) _)
  | @leave i l found =>
    rw [List.append_nil]
    exact h.of_quiet (Quiet.relink found { l with inbox := none, departures := none, held := false }
      rfl (fun m hm => by cases hm) _)
  | deafen other free =>
    rw [List.append_nil]
    exact h.of_quiet (Quiet.deafen other free)
  | cleanup found =>
    rw [List.append_nil]
    exact h.cleanup wired found
  | join free covered apart =>
    rw [List.append_nil]
    exact h.join wired apart

/-- What holds of a network at first holds of it after all steps. -/
theorem Ledger.steps {es : List Transit} (wired : Wired p n) (h : Ledger p log n)
    (all : Steps p n es n') : Wired p n' ∧ Ledger p (log ++ es) n' := by
  -- By the steps; the wiring goes along, since every step needs it.
  induction all with
  | refl => exact ⟨wired, by rwa [List.append_nil]⟩
  | step _ next ih =>
    obtain ⟨wired', h'⟩ := ih
    refine ⟨wired'.step next, ?_⟩
    rw [← List.append_assoc]
    exact h'.step wired' next

end Network

end StreamRpc
