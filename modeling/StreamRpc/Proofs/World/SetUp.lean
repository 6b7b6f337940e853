import StreamRpc.Client.Basic
import StreamRpc.Proofs.Queue.History
import StreamRpc.Server.Serve

/-! # What is left when a start fails

A client and a server start in the same way: each makes a queue, becomes its reader and asks to be
told of queues that are gone, and each of these steps can fail.  A client that cannot start deletes
its queue again.  A server does not, so its queue is in the way when it is started once more.

* `Transport.call_cases`       a call fails and changes no queue, or it is the broker's own
* `Client.connect_failed`      a client leaves no queue
* `Server.launch_failed`       a server leaves its own, if it made it
* `set_up_failures`            both together
-/

namespace StreamRpc

/-! ## Faults -/

/-- No failure lies in wait for an operation. -/
def Transport.Working (t : Transport) (op : Operation) : Prop :=
  ∀ f ∈ t.faults, f.operation ≠ op

namespace Fault

/-- Faults that are left were there before. -/
private theorem operation_of_mem_strike {op : Operation} {target : String} {fs : List Fault}
    {f : Fault}
    (hf : f ∈ (strike op target fs).2) : ∃ g ∈ fs, g.operation = f.operation := by
  induction fs with
  | nil => cases hf
  | cons g fs ih =>
    unfold strike at hf
    -- A fault is passed by, counted down or spent; none is made.
    split at hf
    · split at hf
      · exact ⟨f, List.mem_cons_of_mem _ hf, rfl⟩
      · rcases List.mem_cons.1 hf with rfl | hf
        · exact ⟨g, List.mem_cons_self, rfl⟩
        · exact ⟨f, List.mem_cons_of_mem _ hf, rfl⟩
    · rcases List.mem_cons.1 hf with rfl | hf
      · exact ⟨f, List.mem_cons_self, rfl⟩
      · obtain ⟨h, hh, heq⟩ := ih hf
        exact ⟨h, List.mem_cons_of_mem _ hh, heq⟩

/-- An operation without faults does not fail. -/
private theorem strike_of_working {op : Operation} {fs : List Fault}
    (working : ∀ f ∈ fs, f.operation ≠ op)
    (target : String) : (strike op target fs).1 = none := by
  induction fs with
  | nil => rfl
  | cons f fs ih =>
    have meets : f.meets op target = false := by
      simp [Fault.meets, working f List.mem_cons_self]
    simp only [strike, meets, Bool.false_eq_true, if_false]
    exact ih fun g hg => working g (List.mem_cons_of_mem _ hg)

end Fault

namespace Transport

variable {α : Type} {t t' : Transport} {op : Operation} {target : String}
  {run : Broker → Except TransportError (α × Broker)}

/-- What a call comes to, and that no faults are added. -/
theorem call_cases {r : Except TransportError α} (h : t.call op target run = (r, t')) :
    ((∃ e, r = .error e) ∧ t'.broker = t.broker ∨
      ∃ a, r = .ok a ∧ run t.broker = .ok (a, t'.broker)) ∧
    ∀ other, t.Working other → t'.Working other := by
  -- Whether or not a fault strikes, the faults that are left were there before.
  have keeps : ∀ other, t.Working other →
      ∀ f ∈ (Fault.strike op target t.faults).2, f.operation ≠ other := by
    intro other working f hf
    obtain ⟨g, hg, heq⟩ := Fault.operation_of_mem_strike hf
    exact heq ▸ working g hg
  unfold call at h
  split at h
  -- A fault strikes, and the broker is not asked.
  · next e faults hs =>
    rw [hs] at keeps
    obtain ⟨rfl, rfl⟩ := Prod.mk.inj h
    exact ⟨.inl ⟨⟨e, rfl⟩, rfl⟩, keeps⟩
  · next faults hs =>
    rw [hs] at keeps
    split at h
    · next e hrun =>
      obtain ⟨rfl, rfl⟩ := Prod.mk.inj h
      exact ⟨.inl ⟨⟨e, rfl⟩, rfl⟩, keeps⟩
    · next a broker hrun =>
      obtain ⟨rfl, rfl⟩ := Prod.mk.inj h
      exact ⟨.inr ⟨a, rfl, hrun⟩, keeps⟩

/-- A call for which no failure lies in wait is the broker's own. -/
private theorem call_of_working (working : t.Working op) {a : α} {b : Broker}
    (ok : run t.broker = .ok (a, b)) :
    (t.call op target run).2.broker = b := by
  have := Fault.strike_of_working working target
  unfold call
  split
  · next hs => rw [hs] at this; cases this
  · rw [ok]

end Transport

/-! ## Queues -/

namespace Broker

variable {b b' b'' : Broker} {name : String}

/-- The queues are the same, and so is what waits in them. -/
structure Untouched (b b' : Broker) : Prop where
  queues : ∀ other : String, b'.queues[other]? = b.queues[other]?
  mailboxes : ∀ k : Nat, k < b.nextMailbox → b'.mailboxes[k]? = b.mailboxes[k]?

/-- There is one queue more, which is in a life of its own. -/
structure OneMore (b : Broker) (name : String) (b' : Broker) : Prop where
  free : b.queues[name]? = none
  queues : ∀ other : String,
    b'.queues[other]? = if name = other then some ⟨b.nextMailbox⟩ else b.queues[other]?
  mailboxes : ∀ k : Nat, k < b.nextMailbox → b'.mailboxes[k]? = b.mailboxes[k]?
  own : ∃ m, b'.mailboxes[b.nextMailbox]? = some m

/-- A broker is untouched by nothing. -/
theorem Untouched.refl (b : Broker) : Untouched b b :=
  ⟨fun _ => rfl, fun _ _ => rfl⟩

/-- A queue that there was is in the same life, with the same in it. -/
private theorem same_queue (sound : b.Sound) {other : String}
    (queue : b'.queues[other]? = b.queues[other]?)
    (mailboxes : ∀ k : Nat, k < b.nextMailbox → b'.mailboxes[k]? = b.mailboxes[k]?) :
    b'.hasQueue other = b.hasQueue other ∧ b'.mailbox? other = b.mailbox? other := by
  constructor
  · rw [Broker.hasQueue, Broker.hasQueue, Std.ExtTreeMap.contains_eq_isSome_getElem?, queue,
      Std.ExtTreeMap.contains_eq_isSome_getElem?]
  · simp only [Broker.mailbox?, queue]
    -- The queue is there before, so its mailbox is older than the new ones.
    cases hq : b.queues[other]? with
    | none => rfl
    | some id =>
      show (b'.mailboxes[id.index]?).bind _ = (b.mailboxes[id.index]?).bind _
      rw [mailboxes _ (sound.lt hq)]

/-- The one more queue is there. -/
private theorem OneMore.hasQueue (more : OneMore b name b') : b'.hasQueue name = true := by
  rw [Broker.hasQueue, Std.ExtTreeMap.contains_eq_isSome_getElem?, more.queues, if_pos rfl]
  rfl

/-- The one more queue has the next mailbox. -/
private theorem OneMore.mailbox? (more : OneMore b name b') :
    ∃ m, b'.mailbox? name = some (⟨b.nextMailbox⟩, m) := by
  obtain ⟨m, hm⟩ := more.own
  exact ⟨m, mailbox?_eq_some.2 ⟨by rw [more.queues, if_pos rfl], hm⟩⟩

/-- A creation adds one queue. -/
private theorem oneMore_create (h : b.create name = .ok b') : OneMore b name b' := by
  unfold create at h
  split at h
  · cases h
  · next free =>
    obtain rfl := Except.ok.inj h
    refine ⟨?_, b.queues_added name, fun k hk => ?_, {}, ?_⟩
    · rw [Std.ExtTreeMap.contains_eq_isSome_getElem?] at free
      simpa using free
    · exact (b.mailboxes_added name k).trans (if_neg (by omega))
    · exact (b.mailboxes_added name b.nextMailbox).trans (if_pos rfl)

/-- Changing the new mailbox leaves the other queues. -/
private theorem OneMore.setMailbox (more : OneMore b name b') (m : Mailbox) :
    OneMore b name (b'.setMailbox ⟨b.nextMailbox⟩ m) where
  free := more.free
  queues := more.queues
  mailboxes k hk := by
    rw [mailboxes_set, if_neg (by simp; omega)]
    exact more.mailboxes k hk
  own := ⟨m, by rw [mailboxes_set, if_pos rfl]⟩

/-- Consuming the new queue leaves the other queues. -/
private theorem OneMore.consume (more : OneMore b name b') {id : MailboxId}
    (h : b'.consume name = .ok (id, b'')) : id = ⟨b.nextMailbox⟩ ∧ OneMore b name b'' := by
  obtain ⟨m, hm⟩ := more.mailbox?
  simp only [Broker.consume, hm] at h
  split at h
  · obtain ⟨rfl, rfl⟩ := Prod.mk.inj (Except.ok.inj h)
    exact ⟨rfl, more.setMailbox _⟩
  · cases h

/-- Watching leaves the queues. -/
private theorem OneMore.watch (more : OneMore b name b') (pattern : String) :
    OneMore b name (b'.watch pattern).2 :=
  ⟨more.free, more.queues, more.mailboxes, more.own⟩

/-- Dropping the new queue's reader leaves the other queues. -/
private theorem OneMore.dropReader (more : OneMore b name b') :
    OneMore b name (b'.dropReader ⟨b.nextMailbox⟩) := by
  obtain ⟨m, hm⟩ := more.own
  simp only [Broker.dropReader, hm]
  exact more.setMailbox _

/-- Deleting the queue again leaves the others. -/
private theorem OneMore.delete (more : OneMore b name b') :
    ∃ b'', b'.delete name = .ok b'' ∧ Untouched b b'' := by
  obtain ⟨m, hm⟩ := more.mailbox?
  refine ⟨b'.without name ⟨b.nextMailbox⟩ m, ?_, fun other => ?_, fun k hk => ?_⟩
  · simp only [Broker.delete, hm]
    rfl
  -- The name is free again, as it was, and the other names are as they were.
  · rw [queues_without, more.queues]
    split
    · next same => rw [← same, more.free]
    · rfl
  · show (b'.setMailbox ⟨b.nextMailbox⟩ { m with live := false }).mailboxes[k]? = _
    rw [mailboxes_set, if_neg (by simp; omega)]
    exact more.mailboxes k hk

/-- Dropping the reader of a mailbox that is not there touches nothing. -/
private theorem Untouched.dropReader (same : Untouched b b') :
    Untouched b (b'.dropReader ⟨b.nextMailbox⟩) := by
  unfold Broker.dropReader
  split
  · exact same
  · refine ⟨same.queues, fun k hk => ?_⟩
    rw [mailboxes_set, if_neg (by simp; omega)]
    exact same.mailboxes k hk

end Broker

/-! ## The steps of a start -/

namespace Transport

open Broker (OneMore Untouched)

variable {t t' : Transport} {b : Broker} {name : String}

/-- A creation fails and changes nothing, or adds one queue. -/
private theorem createQueue_cases {r : Except TransportError Unit}
    (h : t.createQueue name = (r, t')) :
    ((∃ e, r = .error e) ∧ t'.broker = t.broker ∨
      r = .ok () ∧ OneMore t.broker name t'.broker) ∧
    ∀ op, t.Working op → t'.Working op := by
  obtain ⟨failed | ⟨a, rfl, made⟩, keeps⟩ := call_cases h
  · exact ⟨.inl failed, keeps⟩
  · refine ⟨.inr ⟨rfl, ?_⟩, keeps⟩
    -- The call went through to the broker, which had to accept the name.
    cases hc : t.broker.create name with
    | error e =>
      rw [hc] at made
      cases made
    | ok b' =>
      rw [hc] at made
      obtain rfl : b' = t'.broker := congrArg Prod.snd (Except.ok.inj made)
      exact Broker.oneMore_create hc

/-- Consuming the new queue leaves the others, and gives its own mailbox. -/
private theorem consume_cases {r : Except TransportError MailboxId} (more : OneMore b name t.broker)
    (h : t.consume name = (r, t')) :
    OneMore b name t'.broker ∧ (∀ id, r = .ok id → id = ⟨b.nextMailbox⟩) ∧
      ∀ op, t.Working op → t'.Working op := by
  obtain ⟨⟨⟨e, rfl⟩, same⟩ | ⟨id, rfl, read⟩, keeps⟩ := call_cases h
  · exact ⟨same ▸ more, nofun, keeps⟩
  · obtain ⟨rfl, more⟩ := more.consume read
    exact ⟨more, fun other h => (Except.ok.inj h).symm, keeps⟩

/-- Watching leaves the queues, whether it fails or not. -/
private theorem watchDisconnects_cases {r : Except TransportError WatcherId} {pattern : String}
    (more : OneMore b name t.broker) (h : t.watchDisconnects pattern = (r, t')) :
    OneMore b name t'.broker ∧ ∀ op, t.Working op → t'.Working op := by
  obtain ⟨⟨-, same⟩ | ⟨id, -, watched⟩, keeps⟩ := call_cases h
  · exact ⟨same ▸ more, keeps⟩
  · have heq : (t.broker.watch pattern).2 = t'.broker := congrArg Prod.snd (Except.ok.inj watched)
    exact ⟨heq ▸ more.watch pattern, keeps⟩

/-- Deleting the one more queue leaves the broker untouched. -/
private theorem untouched_discard (more : OneMore b name t.broker)
    (working : t.Working .deleteQueue) :
    Untouched b (Client.discard t name).broker := by
  obtain ⟨b', deleted, same⟩ := more.delete
  have : (Client.discard t name).broker = b' :=
    call_of_working working (by rw [deleted]; rfl)
  exact this ▸ same

end Transport

open Broker (OneMore Untouched)

variable {t t' : Transport}

/-- A client that cannot start leaves the queues as they were. -/
theorem Client.connect_failed {config : ClientConfig} {token : UInt64} {e : CallError}
    (working : t.Working .deleteQueue) (failed : Client.connect config token t = (.error e, t')) :
    Untouched t.broker t'.broker := by
  unfold connect at failed
  dsimp only at failed
  split at failed
  · -- it did not make its queue
    next hcreate =>
    obtain ⟨⟨-, same⟩ | ⟨ok, -⟩, -⟩ := Transport.createQueue_cases hcreate
    · obtain ⟨-, rfl⟩ := Prod.mk.inj failed
      rw [same]
      exact .refl _
    · cases ok
  · next hcreate =>
    obtain ⟨⟨⟨_, error⟩, -⟩ | ⟨-, made⟩, keeps₁⟩ := Transport.createQueue_cases hcreate
    · cases error
    split at failed
    -- it made the queue and could not read it, so it discards it
    · next hconsume =>
      obtain ⟨read, -, keeps₂⟩ := Transport.consume_cases made hconsume
      obtain ⟨-, rfl⟩ := Prod.mk.inj failed
      exact Transport.untouched_discard read (keeps₂ _ (keeps₁ _ working))
    · next hconsume =>
      obtain ⟨read, own, keeps₂⟩ := Transport.consume_cases made hconsume
      split at failed
      -- it could not watch for departures, so it discards the queue and stops reading
      · next hwatch =>
        obtain ⟨watched, keeps₃⟩ := Transport.watchDisconnects_cases read hwatch
        obtain ⟨-, rfl⟩ := Prod.mk.inj failed
        rw [own _ rfl]
        exact (Transport.untouched_discard watched
          (keeps₃ _ (keeps₂ _ (keeps₁ _ working)))).dropReader
      · cases failed

/-- A server that cannot start leaves the queue that it made, and nothing else. -/
theorem Server.launch_failed {router : Router} {config : ServerConfig} {e : CallError}
    (failed : Server.launch router config t = (.error e, t')) :
    ((∃ err, (t.createQueue config.queue).1 = .error err) ∧ t'.broker = t.broker) ∨
      (t.createQueue config.queue).1 = .ok () ∧ OneMore t.broker config.queue t'.broker := by
  unfold launch at failed
  split at failed
  -- it did not make its queue
  · next hcreate =>
    obtain ⟨⟨-, same⟩ | ⟨ok, -⟩, -⟩ := Transport.createQueue_cases hcreate
    · obtain ⟨-, rfl⟩ := Prod.mk.inj failed
      exact .inl ⟨⟨_, congrArg Prod.fst hcreate⟩, same⟩
    · cases ok
  · next hcreate =>
    obtain ⟨⟨⟨_, error⟩, -⟩ | ⟨-, made⟩, -⟩ := Transport.createQueue_cases hcreate
    · cases error
    refine .inr ⟨congrArg Prod.fst hcreate, ?_⟩
    split at failed
    -- it made the queue and could not read it, and the queue stays
    · next hconsume =>
      obtain ⟨-, rfl⟩ := Prod.mk.inj failed
      exact (Transport.consume_cases made hconsume).1
    · next hconsume =>
      obtain ⟨read, own, -⟩ := Transport.consume_cases made hconsume
      split at failed
      -- it could not watch for departures, and stops reading, but the queue stays
      · next hwatch =>
        obtain ⟨-, rfl⟩ := Prod.mk.inj failed
        rw [own _ rfl]
        exact (Transport.watchDisconnects_cases read hwatch).1.dropReader
      · cases failed

/-- A queue that is there is in the way, even without faults. -/
private theorem Server.launch_of_hasQueue {router : Router} {config : ServerConfig} {b : Broker}
    (there : b.hasQueue config.queue = true) :
    (Server.launch router config { broker := b }).1 =
      .error (.transport (.queueExists config.queue)) := by
  have refused : b.create config.queue = .error (.queueExists config.queue) := if_pos there
  have create : ({ broker := b } : Transport).createQueue config.queue =
      (.error (.queueExists config.queue), { broker := b }) := by
    rw [Transport.createQueue, Transport.call_eq rfl, refused]
    rfl
  simp only [launch, create]

/-- If starting fails for whatever reason, while queues can be deleted: a client leaves the queues
    as they were, so that it can be started again if it could before.  A server leaves the queue
    that it made, if it made it, and is refused for that when it is started again without faults. -/
theorem set_up_failures (working : t.Working .deleteQueue) (sound : t.broker.Sound) :
    (∀ config token e t', Client.connect config token t = (.error e, t') →
      ∀ name : String, t'.broker.hasQueue name = t.broker.hasQueue name ∧
        t'.broker.mailbox? name = t.broker.mailbox? name) ∧
    ∀ router config e t', Server.launch router config t = (.error e, t') →
      (∀ name : String, config.queue ≠ name →
        t'.broker.hasQueue name = t.broker.hasQueue name ∧
          t'.broker.mailbox? name = t.broker.mailbox? name) ∧
      ((∃ err, (t.createQueue config.queue).1 = .error err) ∧ t'.broker = t.broker ∨
        (t.createQueue config.queue).1 = .ok () ∧ t.broker.hasQueue config.queue = false ∧
          (Server.launch router config { broker := t'.broker }).1 =
            .error (.transport (.queueExists config.queue))) := by
  refine ⟨fun config token e t' failed name => ?_, fun router config e t' failed => ?_⟩
  · have same := Client.connect_failed working failed
    exact Broker.same_queue sound (same.queues name) same.mailboxes
  -- Either the queue could not be created, or it was and is there still.
  · rcases Server.launch_failed failed with ⟨unmade, same⟩ | ⟨made, more⟩
    · exact ⟨fun name _ => by simp [same], .inl ⟨unmade, same⟩⟩
    · refine ⟨fun name other => ?_, .inr ⟨made, ?_, Server.launch_of_hasQueue more.hasQueue⟩⟩
      · exact Broker.same_queue sound ((more.queues name).trans (if_neg other)) more.mailboxes
      · rw [Broker.hasQueue, Std.ExtTreeMap.contains_eq_isSome_getElem?, more.free]
        rfl

namespace Unwatched

/-- The next try to watch for queues that are gone fails. -/
def start : Transport :=
  { faults := [{ operation := .watchDisconnects, error := .io "no watcher" }] }

/-- After a try to start a server. -/
def left : Transport :=
  (Server.launch {} {} start).2

/-- The launch fails at its watch. -/
private theorem failed :
    Server.launch {} {} start = (.error (.transport (.io "no watcher")), left) := rfl

/-- Deletions work in this world. -/
private theorem working : start.Working .deleteQueue := by
  simp [Transport.Working, start]

end Unwatched

open Unwatched in
/-- The server could have been started before, and cannot be now that there are no faults. -/
theorem set_up_failures_unwatched : start.Working .deleteQueue ∧
    start.broker.hasQueue "rpc.server" = false ∧
      (Server.launch {} {} { broker := left.broker }).1 =
        .error (.transport (.queueExists "rpc.server")) := by
  obtain ⟨-, servers⟩ := set_up_failures working Broker.sound_empty
  obtain ⟨-, ⟨⟨err, refused⟩, -⟩ | ⟨-, free, again⟩⟩ := servers {} {} _ _ failed
  · cases refused
  · exact ⟨working, free, again⟩

end StreamRpc
