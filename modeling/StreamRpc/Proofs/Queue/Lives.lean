import Mathlib.Data.List.TakeWhile
import StreamRpc.Proofs.Message.RoundTrip
import StreamRpc.Proofs.Queue.History

/-! # Queues lose nothing

A queue lives from the deed that makes it to the next one that deletes it.  In each life it accepts
messages, before and after somebody comes to read it, and gives its reader the envelopes among them
in order.  What happens to other queues, or to other lives of the same name, makes no difference.

* `History.Life`              one life of a queue, and what was done since it began
* `History.accepted`          the envelopes that the queue accepted in it
* `Recorded.performs`         whatever is done, the mailboxes hold what the history says
* `queues_lose_nothing`       what readers get and what comes of sending
-/

namespace StreamRpc

open Wire (Bytes)

namespace Broker

/-! ## Reading a history -/

namespace History

/-- A queue was made. -/
def births (h : History) : Nat :=
  h.countP fun
    | (.create _, .done) => true
    | _ => false

/-- The queue of this name was deleted. -/
def ends (name : String) : Deed × Outcome → Bool
  | (.delete other, .done) => other = name
  | _ => false

/-- The envelope that the queue of this name accepted, if what it accepted is one. -/
def letter? (name : String) : Deed × Outcome → Option Envelope
  | (.send other e, .done) => if other = name then some e else none
  | (.sendRaw other bytes, .done) => if other = name then (Envelope.ofBytes bytes).toOption else none
  | _ => none

/-- The envelope that was taken from this mailbox. -/
def taken? (k : Nat) : Deed × Outcome → Option Envelope
  | (.receive id, .received (.envelope e)) => if id.index = k then some e else none
  | _ => none

/-- Somebody came to read this mailbox. -/
def claims (k : Nat) : Deed × Outcome → Bool
  | (.consume _, .reader id) => id.index = k
  | _ => false

/-- The reader of this mailbox was dropped. -/
def leaves (k : Nat) : Deed × Outcome → Bool
  | (.dropReader id, .done) => id.index = k
  | _ => false

/-- Somewhere in the history the queue of this name was made, as the queue with this number, and
    this was done since. -/
def Life (h : History) (name : String) (k : Nat) (later : History) : Prop :=
  ∃ before : History, h = before ++ (.create name, .done) :: later ∧ before.births = k

/-- Whether the queue of this name has been deleted. -/
def finished (later : History) (name : String) : Bool :=
  later.any (ends name)

/-- The envelopes that the queue of this name accepted until it was deleted, in order. -/
def accepted (later : History) (name : String) : List Envelope :=
  (later.takeWhile fun x => !ends name x).filterMap (letter? name)

/-- The envelopes that were taken from this mailbox, in order. -/
def taken (later : History) (k : Nat) : List Envelope :=
  later.filterMap (taken? k)

/-- How often somebody came to read this mailbox. -/
def readers (later : History) (k : Nat) : Nat :=
  later.countP (claims k)

/-- Whether the reader of this mailbox was dropped. -/
def left (later : History) (k : Nat) : Bool :=
  later.any (leaves k)

/-! ### One more deed -/

variable {h later : History} {name : String} {k : Nat} {x : Deed × Outcome}

/-- Nothing has ended before the first deed. -/
@[simp] theorem finished_nil : finished [] name = false := rfl

/-- No reader has left before the first deed. -/
@[simp] theorem left_nil : left [] k = false := rfl

/-- There is no reader before the first deed. -/
@[simp] theorem readers_nil : readers [] k = 0 := rfl

/-- Nothing has been taken before the first deed. -/
@[simp] theorem taken_nil : taken [] k = [] := rfl

/-- Nothing has been accepted before the first deed. -/
@[simp] theorem accepted_nil : accepted [] name = [] := rfl

/-- A queue has ended once any deed has ended it. -/
@[simp] theorem finished_concat :
    finished (later ++ [x]) name = (finished later name || ends name x) := by
  simp [finished]

/-- A reader has left once any deed has dropped it. -/
@[simp] theorem left_concat : left (later ++ [x]) k = (left later k || leaves k x) := by
  simp [left]

/-- One more deed adds the reader it gives out. -/
@[simp] theorem readers_concat :
    readers (later ++ [x]) k = readers later k + if claims k x then 1 else 0 := by
  simp [readers, List.countP_cons]

/-- One more deed adds the letter it takes. -/
@[simp] theorem taken_concat :
    taken (later ++ [x]) k = taken later k ++ (taken? k x).toList := by
  simp [taken, List.filterMap_append, List.filterMap_cons]
  cases taken? k x <;> rfl

/-- The deed that ends a queue brings it no letter. -/
private theorem letter_of_ends (hx : ends name x = true) : letter? name x = none := by
  obtain ⟨d, o⟩ := x
  cases d <;> cases o <;> simp_all [ends, letter?]

/-- A queue accepts nothing once it has been deleted. -/
private theorem accepted_concat : accepted (later ++ [x]) name =
    accepted later name ++ if finished later name then [] else (letter? name x).toList := by
  unfold accepted
  cases ho : finished later name with
  | true =>
    -- the deed that ended the life stands in what was there, so nothing later counts
    obtain ⟨y, hy, ends⟩ := List.any_eq_true.1 ho
    have hsome : (later.takeWhile fun x => !History.ends name x).length ≠ later.length := by
      intro heq
      have hall := List.takeWhile_eq_self_iff.1 ((List.takeWhile_prefix _).eq_of_length heq) y hy
      rw [ends] at hall
      cases hall
    rw [List.takeWhile_append, if_neg hsome, if_pos rfl, List.append_nil]
  | false =>
    have hall : ∀ y ∈ later, (!History.ends name y) = true := by
      intro y hy
      have := List.any_eq_false.1 ho y hy
      simpa using this
    rw [List.takeWhile_append_of_pos hall, List.takeWhile_eq_self_iff.2 hall, List.filterMap_append,
      if_neg Bool.false_ne_true]
    cases ends : History.ends name x with
    | true => simp [ends, letter_of_ends ends]
    | false => simp [ends, List.filterMap_cons]; cases letter? name x <;> rfl

/-- One more deed adds the queue it creates. -/
private theorem births_concat : births (h ++ [x]) = births h + births [x] := List.countP_append

/-- A life after one more deed: it was there before, or it begins now. -/
private theorem life_concat : Life (h ++ [x]) name k later ↔
    (∃ l, later = l ++ [x] ∧ h.Life name k l) ∨
      (x = (.create name, .done) ∧ later = [] ∧ h.births = k) := by
  constructor
  · rintro ⟨before, heq, hk⟩
    -- The queue was made by the last deed, or it had been made before.
    rcases split_concat heq with ⟨rfl, rfl, rfl⟩ | ⟨l, rfl, rfl⟩
    · exact .inr ⟨rfl, rfl, hk⟩
    · exact .inl ⟨l, rfl, before, rfl, hk⟩
  · rintro (⟨l, rfl, before, rfl, hk⟩ | ⟨rfl, rfl, hk⟩)
    · exact ⟨before, by simp, hk⟩
    · exact ⟨h, rfl, hk⟩

/-- Without deeds no queue has lived. -/
private theorem not_life_nil : ¬ Life [] name k later := by
  rintro ⟨before, h, -⟩
  simp at h

end History

/-! ## The mailboxes hold what the history says -/

/-- A mailbox is in the state that a life of its queue has brought it to. -/
structure Kept (b : Broker) (name : String) (k : Nat) (later : History) (m : Mailbox) : Prop where
  box : b.mailboxes[k]? = some m
  queue : later.finished name = false → b.queues[name]? = some ⟨k⟩
  live : m.live = !later.finished name
  unclaimed : m.readership = .unclaimed ↔ later.readers k = 0
  once : later.readers k ≤ 1
  abandoned : m.readership = .abandoned ↔ later.left k = true
  letters : later.left k = false → later.taken k ++ m.letters = later.accepted name

/-- The queues are what their history has made of them. -/
structure Recorded (h : History) (b : Broker) : Prop where
  sound : b.Sound
  births : b.nextMailbox = h.births
  lives : ∀ name k later, h.Life name k later → ∃ m, Kept b name k later m
  current : ∀ (name : String) (id : MailboxId), b.queues[name]? = some id →
    ∃ later, h.Life name id.index later ∧ later.finished name = false

/-- The empty broker is recorded by the empty history. -/
private theorem recorded_empty : Recorded [] {} where
  sound := sound_empty
  births := rfl
  lives name k later life := absurd life History.not_life_nil
  current name id hq := by simp at hq

open History (life_concat finished_concat left_concat readers_concat taken_concat accepted_concat)

section
variable {h later : History} {b b' : Broker} {name : String} {k : Nat} {m : Mailbox}
  {x : Deed × Outcome}

/-- A mailbox that is kept has been made. -/
private theorem Kept.lt (kept : Kept b name k later m) (hs : b.Sound) : k < b.nextMailbox :=
  hs.mailboxes k m kept.box

/-- A queue that is there is in the life that its mailbox is kept for. -/
private theorem Recorded.same (rec : Recorded h b) (kept : Kept b name k later m) {other : String}
    {id : MailboxId} (found : b.queues[other]? = some id) (hid : id.index = k) :
    other = name ∧ later.finished name = false := by
  obtain ⟨later', life, going⟩ := rec.current other id found
  obtain ⟨m', kept'⟩ := rec.lives other id.index later' life
  have hm : m' = m := Option.some.inj (kept'.box.symm.trans (hid ▸ kept.box))
  have going' : later.finished name = false := by
    -- The mailbox is alive just as long as the life has not ended.
    have hlive := kept'.live
    rw [hm, kept.live, going] at hlive
    simpa using hlive
  refine ⟨rec.sound.apart other name id found ?_, going'⟩
  rw [kept.queue going', ← hid]

/-- What is done elsewhere does not concern a life. -/
private theorem Kept.elsewhere (kept : Kept b name k later m)
    (box : b'.mailboxes[k]? = b.mailboxes[k]?)
    (queue : later.finished name = false → b'.queues[name]? = b.queues[name]?)
    (quiet : later.finished name = false →
      History.ends name x = false ∧ History.letter? name x = none)
    (unread : History.taken? k x = none ∧ History.claims k x = false ∧ History.leaves k x = false) :
    Kept b' name k (later ++ [x]) m := by
  obtain ⟨taken, claims, leaves⟩ := unread
  -- Once the queue is deleted, nothing counts for its life any more.
  have hfinished : (later ++ [x]).finished name = later.finished name := by
    rw [finished_concat]
    cases going : later.finished name with
    | true => rfl
    | false => exact (quiet going).1
  have haccepted : (later ++ [x]).accepted name = later.accepted name := by
    rw [accepted_concat]
    cases going : later.finished name with
    | true => simp
    | false => simp [(quiet going).2]
  -- What the mailbox of this life has and owes is as it was.
  exact {
    box := box.trans kept.box
    queue := fun going => (queue (hfinished ▸ going)).trans (kept.queue (hfinished ▸ going))
    live := hfinished ▸ kept.live
    unclaimed := by simpa [claims] using kept.unclaimed
    once := by simpa [claims] using kept.once
    abandoned := by simpa [leaves] using kept.abandoned
    letters := by simpa [leaves, taken, haccepted] using kept.letters }

/-- What is done to the mailbox of a life, and to nothing else. -/
private theorem Kept.step (kept : Kept b name k later m) {id : MailboxId} {m' : Mailbox}
    (hid : id.index = k) (live : m'.live = m.live) (hx : History.ends name x = false)
    (unclaimed : m'.readership = .unclaimed ↔ (later ++ [x]).readers k = 0)
    (once : (later ++ [x]).readers k ≤ 1)
    (abandoned : m'.readership = .abandoned ↔ (later ++ [x]).left k = true)
    (letters : (later ++ [x]).left k = false →
      (later ++ [x]).taken k ++ m'.letters = (later ++ [x]).accepted name) :
    Kept (b.setMailbox id m') name k (later ++ [x]) m' where
  box := by rw [mailboxes_set, if_pos hid]
  queue going := kept.queue (by simpa [hx] using going)
  live := by simpa [hx, live] using kept.live
  unclaimed := unclaimed
  once := once
  abandoned := abandoned
  letters := letters

/-- A queue takes a message at its end. -/
private theorem Recorded.put (rec : Recorded h b) (kept : Kept b name k later m) {other : String}
    {id : MailboxId} {m' : Mailbox} {bytes : Bytes} (found : b.queues[other]? = some id)
    (box : b.mailboxes[id.index]? = some m') (read : m'.readership ≠ .abandoned)
    (letter : ∀ n, History.letter? n x =
      if other = n then (Envelope.ofBytes bytes).toOption else none)
    (ends : ∀ n, History.ends n x = false)
    (quiet : ∀ n, History.taken? n x = none ∧ History.claims n x = false ∧
      History.leaves n x = false) :
    ∃ m'', Kept (b.setMailbox id { m' with waiting := m'.waiting ++ [bytes] }) name k
      (later ++ [x]) m'' := by
  obtain ⟨taken, claims, leaves⟩ := quiet k
  by_cases hid : id.index = k
  -- It is this life of the queue that the message goes to.
  · obtain ⟨rfl, going⟩ := rec.same kept found hid
    obtain rfl : m = m' := Option.some.inj (kept.box.symm.trans (hid ▸ box))
    refine ⟨_, kept.step hid rfl (ends other) ?_ ?_ ?_ fun stays => ?_⟩
    · simpa [claims] using kept.unclaimed
    · simpa [claims] using kept.once
    · simpa [leaves] using kept.abandoned
    · have hletters := kept.letters (by simpa [leaves] using stays)
      rw [taken_concat, taken, accepted_concat, going, letter, if_pos rfl, ← hletters]
      simp only [Mailbox.letters, List.filterMap_append, List.filterMap_cons, Option.toList_none,
        List.append_nil, List.append_assoc, Bool.false_eq_true, if_false]
      cases (Envelope.ofBytes bytes).toOption <;> rfl
  · refine ⟨m, kept.elsewhere ?_ (fun _ => rfl) (fun going => ⟨ends name, ?_⟩) (quiet k)⟩
    · rw [mailboxes_set, if_neg hid]
    · -- a queue that lives on under this name has this mailbox, and the message went to another
      rw [letter, if_neg]
      rintro rfl
      rw [kept.queue going] at found
      exact hid (congrArg MailboxId.index (Option.some.inj found)).symm

/-- What is done to another mailbox does not concern a life. -/
private theorem Kept.apart (kept : Kept b name k later m) {id : MailboxId} (hid : id.index ≠ k)
    (m' : Mailbox) (quiet : History.ends name x = false ∧ History.letter? name x = none)
    (unread : History.taken? k x = none ∧ History.claims k x = false ∧ History.leaves k x = false) :
    Kept (b.setMailbox id m') name k (later ++ [x]) m :=
  kept.elsewhere (by rw [mailboxes_set, if_neg hid]) (fun _ => rfl) (fun _ => quiet) unread

/-- Somebody reads the mailbox of a life. -/
private theorem Kept.read (kept : Kept b name k later m) (claimed : m.readership = .claimed) :
    later.readers k = 1 ∧ later.left k = false := by
  have some : later.readers k ≠ 0 := fun none => by
    rw [kept.unclaimed.2 none] at claimed
    cases claimed
  have stays : later.left k ≠ true := fun left => by
    rw [kept.abandoned.2 left] at claimed
    cases claimed
  have once := kept.once
  exact ⟨by omega, by simpa using stays⟩

/-- Creating another queue keeps what is recorded of this one. -/
private theorem Recorded.create (rec : Recorded h b) (kept : Kept b name k later m) {other : String}
    (free : b.queues[other]? = none) :
    Kept (b.added other) name k (later ++ [(.create other, .done)]) m := by
  refine kept.elsewhere ?_ (fun going => ?_) (fun _ => ⟨rfl, rfl⟩) ⟨rfl, rfl, rfl⟩
  · rw [mailboxes_added, if_neg (Nat.ne_of_gt (kept.lt rec.sound))]
  · rw [queues_added, if_neg]
    rintro rfl
    rw [kept.queue going] at free
    cases free

/-- Deleting a queue keeps what is recorded of each, its end included. -/
private theorem Recorded.delete (rec : Recorded h b) (kept : Kept b name k later m) {other : String}
    {id : MailboxId} {m' : Mailbox} (found : b.queues[other]? = some id)
    (box : b.mailboxes[id.index]? = some m') :
    ∃ m'', Kept (b.without other id m') name k (later ++ [(.delete other, .done)]) m'' := by
  have hbox : ∀ j, (b.without other id m').mailboxes[j]? =
      if id.index = j then some { m' with live := false } else b.mailboxes[j]? :=
    b.mailboxes_set id { m' with live := false }
  by_cases hid : id.index = k
  -- It is the queue of this life: the mailbox stays, with all that waits in it.
  · obtain ⟨rfl, going⟩ := rec.same kept found hid
    obtain rfl : m = m' := Option.some.inj (kept.box.symm.trans (hid ▸ box))
    refine ⟨{ m with live := false }, ?_, ?_, ?_, ?_, ?_, ?_, ?_⟩
    · rw [hbox, if_pos hid]
    · simp [History.ends]
    · simp [History.ends]
    · simpa [History.claims] using kept.unclaimed
    · simpa [History.claims] using kept.once
    · simpa [History.leaves] using kept.abandoned
    · simpa [History.leaves, History.taken?, History.letter?, accepted_concat, Mailbox.letters]
        using kept.letters
  -- While the life goes on, its queue stands under its name with another mailbox.
  · have hne : later.finished name = false → other ≠ name := by
      rintro going rfl
      rw [kept.queue going] at found
      exact hid (congrArg MailboxId.index (Option.some.inj found)).symm
    refine ⟨m, kept.elsewhere ?_ (fun going => ?_) (fun going => ⟨?_, rfl⟩) ⟨rfl, rfl, rfl⟩⟩
    · rw [hbox, if_neg hid]
    · rw [queues_without, if_neg (hne going)]
    · simpa [History.ends] using hne going

/-- Claiming a mailbox keeps what is recorded of each, its reader included. -/
private theorem Kept.claim (kept : Kept b name k later m) {other : String} {id : MailboxId}
    {m' : Mailbox}
    (box : b.mailboxes[id.index]? = some m') (unclaimed : m'.readership = .unclaimed) :
    ∃ m'', Kept (b.setMailbox id { m' with readership := .claimed }) name k
      (later ++ [(.consume other, .reader id)]) m'' := by
  by_cases hid : id.index = k
  -- It is the first reader of this life, as nobody has claimed the mailbox.
  · obtain rfl : m = m' := Option.some.inj (kept.box.symm.trans (hid ▸ box))
    have none := kept.unclaimed.1 unclaimed
    have hclaims : History.claims k (.consume other, .reader id) = true := by
      simpa [History.claims] using hid
    have stays : later.left k = false := by
      have := kept.abandoned.not.1 (by rw [unclaimed]; simp)
      simpa using this
    refine ⟨_, kept.step hid rfl rfl ?_ ?_ ?_ fun _ => ?_⟩
    · simp [hclaims]
    · simp [hclaims, none]
    · simpa [History.leaves] using stays
    · simpa [History.taken?, History.letter?, accepted_concat, Mailbox.letters]
        using kept.letters stays
  · exact ⟨m, kept.apart hid _ ⟨rfl, rfl⟩ ⟨rfl, by simpa [History.claims] using hid, rfl⟩⟩

/-- The reader of a life takes what its mailbox has next, or finds that there is nothing. -/
private theorem Kept.take (kept : Kept b name k later m) {id : MailboxId} {m' : Mailbox}
    {rest : List Bytes}
    (box : b.mailboxes[id.index]? = some m') {a : Arrival}
    (letters : m'.letters = (History.taken? id.index (.receive id, .received a)).toList ++
      ({ m' with waiting := rest } : Mailbox).letters) :
    ∃ m'', Kept (b.setMailbox id { m' with waiting := rest }) name k
      (later ++ [(.receive id, .received a)]) m'' := by
  -- What one mailbox gives out says nothing about another.
  by_cases hid : id.index = k
  · obtain rfl : m = m' := Option.some.inj (kept.box.symm.trans (hid ▸ box))
    refine ⟨_, kept.step hid rfl rfl ?_ ?_ ?_ fun stays => ?_⟩
    · simpa [History.claims] using kept.unclaimed
    · simpa [History.claims] using kept.once
    · simpa [History.leaves] using kept.abandoned
    · have hkept := kept.letters (by simpa [History.leaves] using stays)
      rw [letters, hid] at hkept
      simpa [History.letter?, accepted_concat] using hkept
  · refine ⟨m, kept.apart hid _ ⟨rfl, rfl⟩ ⟨?_, rfl, rfl⟩⟩
    cases a with
    | envelope e => exact if_neg hid
    | nothing => rfl
    | ended => rfl

/-- A reader that leaves keeps what is recorded of each mailbox, its leaving included. -/
private theorem Kept.leave (kept : Kept b name k later m) {id : MailboxId} {m' : Mailbox}
    (box : b.mailboxes[id.index]? = some m') (claimed : m'.readership = .claimed) :
    ∃ m'', Kept (b.setMailbox id { m' with waiting := [], readership := .abandoned }) name k
      (later ++ [(.dropReader id, .done)]) m'' := by
  by_cases hid : id.index = k
  · obtain rfl : m = m' := Option.some.inj (kept.box.symm.trans (hid ▸ box))
    -- From now on nothing is promised of its letters.
    have hleaves : History.leaves k (.dropReader id, .done) = true := by
      simpa [History.leaves] using hid
    refine ⟨_, kept.step hid rfl rfl ?_ ?_ ?_ fun stays => ?_⟩
    · simp [History.claims, (kept.read claimed).1]
    · simpa [History.claims] using kept.once
    · simp [hleaves]
    · simp [hleaves] at stays
  · exact ⟨m, kept.apart hid _ ⟨rfl, rfl⟩ ⟨rfl, rfl, by simpa [History.leaves] using hid⟩⟩

/-- Whatever is done, the mailbox of each life holds what its history says. -/
private theorem Recorded.kept (rec : Recorded h b) {d : Deed} {o : Outcome}
    (does : Performs b d o b')
    (kept : Kept b name k later m) : ∃ m', Kept b' name k (later ++ [(d, o)]) m' := by
  -- Deeds that concern mailboxes have a lemma each; a refused one changes nothing.
  cases does with
  | create free => exact ⟨m, rec.create kept free⟩
  | delete found box => exact rec.delete kept found box
  | send found box read flat =>
    refine rec.put kept found box read (fun n => ?_) (fun n => rfl) fun n => ⟨rfl, rfl, rfl⟩
    rw [Envelope.ofBytes_toBytes flat]
    rfl
  | sendRaw found box read =>
    exact rec.put kept found box read (fun n => rfl) (fun n => rfl) fun n => ⟨rfl, rfl, rfl⟩
  | consume found box unclaimed => exact kept.claim box unclaimed
  | @receive id m' e rest box claimed next =>
    have hletters := nextEnvelope?_eq m'.waiting
    simp only [next] at hletters
    exact kept.take box (by simp [History.taken?, Mailbox.letters, hletters])
  | @await id m' box claimed next =>
    have hletters := nextEnvelope?_eq m'.waiting
    simp only [next] at hletters
    refine kept.take box ?_
    cases m'.live <;> simp [History.taken?, Mailbox.letters, hletters]
  | dropReader box claimed => exact kept.leave box claimed
  | watch | hear | hearNothing | dropWatcher =>
    exact ⟨m, kept.elsewhere rfl (fun _ => rfl) (fun _ => ⟨rfl, rfl⟩) ⟨rfl, rfl, rfl⟩⟩
  -- What is refused, or does nothing, is told of as such whatever it was.
  | refuse | void =>
    cases d <;>
      exact ⟨m, kept.elsewhere rfl (fun _ => rfl) (fun _ => ⟨rfl, rfl⟩) ⟨rfl, rfl, rfl⟩⟩

end

/-- A queue that was just made has an empty mailbox that nobody reads. -/
private theorem kept_added {b : Broker} (name : String) :
    Kept (b.added name) name b.nextMailbox [] {} where
  box := by rw [mailboxes_added, if_pos rfl]
  queue _ := by rw [queues_added, if_pos rfl]
  live := rfl
  unclaimed := ⟨fun _ => rfl, fun _ => rfl⟩
  once := Nat.zero_le _
  abandoned := by simp
  letters _ := rfl

/-- A queue that is not deleted lives on. -/
private theorem Recorded.goesOn {h : History} {b : Broker} (rec : Recorded h b) {name : String}
    {id : MailboxId} (found : b.queues[name]? = some id) {x : Deed × Outcome}
    (hx : History.ends name x = false) :
    ∃ later, (h ++ [x]).Life name id.index later ∧ later.finished name = false := by
  obtain ⟨later, life, going⟩ := rec.current name id found
  exact ⟨later ++ [x], life_concat.2 (.inl ⟨later, rfl, life⟩), by rw [finished_concat, going, hx]; rfl⟩

/-- Whatever is done, the queues are what their history has made of them. -/
theorem Recorded.performs {h : History} {b b' : Broker} (rec : Recorded h b) {d : Deed}
    {o : Outcome} (does : Performs b d o b') : Recorded (h ++ [(d, o)]) b' where
  sound := rec.sound.performs does
  births := by
    rw [History.births_concat, ← rec.births]
    cases does <;> first | rfl | (cases d <;> rfl)
  lives name k later life := by
    -- a life that was there goes on, or the deed has made the queue
    rcases life_concat.1 life with ⟨l, rfl, old⟩ | ⟨heq, rfl, hk⟩
    · obtain ⟨m, kept⟩ := rec.lives name k l old
      exact rec.kept does kept
    · obtain ⟨rfl, rfl⟩ := Prod.mk.inj heq
      cases does with
      | create free => exact ⟨{}, hk ▸ rec.births ▸ kept_added name⟩
  current name id found' := by
    cases does with
    | @create other free =>
      rw [queues_added] at found'
      split at found'
      · next heq =>
        obtain rfl := Option.some.inj found'
        exact ⟨[], life_concat.2 (.inr ⟨heq ▸ rfl, rfl, rec.births.symm⟩), rfl⟩
      · exact rec.goesOn found' rfl
    -- After the deletion the name leads to another queue or to none.
    | delete =>
      rw [queues_without] at found'
      split at found'
      · cases found'
      · next hne => exact rec.goesOn found' (by simpa [History.ends] using hne)
    | refuse | void => cases d <;> exact rec.goesOn found' rfl
    | send | sendRaw | consume | receive | await | dropReader | watch | hear | hearNothing
    | dropWatcher => exact rec.goesOn found' rfl

/-- Whatever was done, the broker is recorded by its history. -/
private theorem recorded_past (ds : List Deed) : Recorded (past ds).1 (past ds).2 := by
  -- on what was done, from its end: a history grows there
  induction ds using List.reverseRecOn with
  | nil => exact recorded_empty
  | append_singleton ds d ih =>
    rw [past_concat]
    exact ih.performs ((past ds).2.performs d)

/-! ## What readers get -/

/-- Reading a mailbox gives the letters that wait there, and its end if it was deleted. -/
private theorem receiveUpTo_eq {b : Broker} {id : MailboxId} {m : Mailbox}
    (box : b.mailboxes[id.index]? = some m) (n : Nat) :
    (b.receiveUpTo id n).1 = m.letters.take n ∧
      ((b.receiveUpTo id n).2.1 = true ↔ m.live = false ∧ m.letters.length < n) := by
  -- On how much is taken; the bytes that are no envelopes go with the envelope behind them.
  induction n generalizing b m with
  | zero => simp [receiveUpTo]
  | succ n ih =>
    have hletters := nextEnvelope?_eq m.waiting
    cases next : nextEnvelope? m.waiting with
    | none =>
      simp only [next] at hletters
      have none : m.letters = [] := hletters
      simp only [receiveUpTo, receive, box, next, none]
      cases m.live <;> simp
    | some p =>
      obtain ⟨e, rest⟩ := p
      simp only [next] at hletters
      have some : m.letters = e :: ({ m with waiting := rest } : Mailbox).letters := hletters
      obtain ⟨takes, ends⟩ := ih (b := b.setMailbox id { m with waiting := rest })
        (m := { m with waiting := rest }) (by rw [mailboxes_set, if_pos rfl])
      simp only [receiveUpTo, receive, box, next, some, List.take_succ_cons, takes, true_and, ends,
        List.length_cons, Nat.add_lt_add_iff_right]

/-! ## What comes of deeds -/

/-- The queue of this name lives, as the one with this number. -/
def History.Alive (h : History) (name : String) (k : Nat) (later : History) : Prop :=
  h.Life name k later ∧ later.finished name = false

/-- What comes of sending to a queue: it goes through while the queue lives, and its reader has not
    been dropped. -/
structure SendsTo (h : History) (name : String) (o : Outcome) : Prop where
  unknown : o = .refused (.unknownQueue name) ↔ ∀ k later, ¬ h.Alive name k later
  lost : o = .refused (.connectionLost ("queue '" ++ name ++ "' closed")) ↔
    ∃ k later, h.Alive name k later ∧ later.left k = true
  done : o = .done ↔ ∃ k later, h.Alive name k later ∧ later.left k = false

section
variable {h : History} {b : Broker} {name : String}

/-- A queue is there, with its mailbox, exactly in its life. -/
private theorem Recorded.alive_iff (rec : Recorded h b) {k : Nat} :
    b.queues[name]? = some ⟨k⟩ ↔ ∃ later, h.Alive name k later := by
  constructor
  · intro found
    exact rec.current name ⟨k⟩ found
  · rintro ⟨later, life, going⟩
    obtain ⟨m, kept⟩ := rec.lives name k later life
    exact kept.queue going

/-- A queue that can be found has one life that has not ended, and its mailbox is the one kept for
it. -/
private theorem Recorded.alive (rec : Recorded h b) {id : MailboxId} {m : Mailbox}
    (hm : b.mailbox? name = some (id, m)) :
    (∃ later, h.Alive name id.index later) ∧
      ∀ k later, h.Alive name k later → k = id.index ∧ Kept b name k later m := by
  obtain ⟨found, box⟩ := mailbox?_eq_some.1 hm
  refine ⟨rec.alive_iff.1 found, fun k later alive => ?_⟩
  -- A queue that is there has one life that goes on, and it is found by its mailbox.
  have hid : id = ⟨k⟩ := Option.some.inj (found.symm.trans (rec.alive_iff.2 ⟨later, alive⟩))
  subst hid
  obtain ⟨m', kept⟩ := rec.lives name k later alive.1
  obtain rfl : m = m' := Option.some.inj (box.symm.trans kept.box)
  exact ⟨rfl, kept⟩

/-- A queue that cannot be found has no life that has not ended. -/
private theorem Recorded.not_alive (rec : Recorded h b) (hm : b.mailbox? name = none) (k : Nat)
    (later : History) : ¬ h.Alive name k later := by
  intro alive
  have gone := (mailbox?_eq_none rec.sound).1 hm
  rw [rec.alive_iff.2 ⟨later, alive⟩] at gone
  cases gone

/-- A send's answer is the one the history says. -/
private theorem Recorded.sendsTo (rec : Recorded h b) (bytes : Bytes) :
    SendsTo h name (b.settle (b.sendRaw name bytes)).1 := by
  unfold sendRaw
  -- What comes of it is decided by the mailbox of the only life that the name can be in.
  cases hm : b.mailbox? name with
  | none =>
    have never := rec.not_alive hm
    constructor <;> simp [settle, never]
  | some p =>
    obtain ⟨id, m⟩ := p
    obtain ⟨⟨later, alive⟩, only⟩ := rec.alive hm
    have abandoned : ∀ k later, h.Alive name k later →
        (m.readership = .abandoned ↔ later.left k = true) :=
      fun k later alive => (only k later alive).2.abandoned
    by_cases left : m.readership = .abandoned
    · have hleft : ∀ k later, h.Alive name k later → later.left k = true :=
        fun k later alive => (abandoned k later alive).1 left
      constructor
      · simpa [settle, left] using ⟨id.index, later, alive⟩
      · simpa [settle, left] using ⟨id.index, later, alive, hleft _ _ alive⟩
      · simpa [settle, left] using hleft
    -- The reader is still there, so in no life of the name has it left.
    · have stays : ∀ k later, h.Alive name k later → later.left k = false := fun k later alive => by
        simpa using (abandoned k later alive).not.1 left
      constructor
      · simpa [settle, left] using ⟨id.index, later, alive⟩
      · simpa [settle, left] using stays
      · simpa [settle, left] using ⟨id.index, later, alive, stays _ _ alive⟩

/-- A queue can be created exactly when none of its name is alive. -/
private theorem Recorded.creates (rec : Recorded h b) :
    (b.perform (.create name)).1 = .done ↔ ∀ k later, ¬ h.Alive name k later := by
  cases hq : b.queues[name]? with
  | none =>
    have never := rec.not_alive ((mailbox?_eq_none rec.sound).2 hq)
    simp [perform, Broker.create, settle, Std.ExtTreeMap.contains_eq_isSome_getElem?, hq, never]
  | some id =>
    obtain ⟨later, alive⟩ := rec.alive_iff.1 hq
    simpa [perform, Broker.create, settle, Std.ExtTreeMap.contains_eq_isSome_getElem?, hq]
      using ⟨id.index, later, alive⟩

/-- A queue can be deleted exactly when one of its name is alive. -/
private theorem Recorded.deletes (rec : Recorded h b) :
    (b.perform (.delete name)).1 = .done ↔ ∃ k later, h.Alive name k later := by
  cases hm : b.mailbox? name with
  | none => simp [perform, Broker.delete, settle, hm, rec.not_alive hm]
  | some p =>
    obtain ⟨later, alive⟩ := (rec.alive hm).1
    simpa [perform, Broker.delete, settle, hm] using ⟨p.1.index, later, alive⟩

/-- A queue can be consumed exactly when it is alive and has had no reader. -/
private theorem Recorded.consumes (rec : Recorded h b) (k : Nat) :
    (b.perform (.consume name)).1 = .reader ⟨k⟩ ↔
      ∃ later, h.Alive name k later ∧ later.readers k = 0 := by
  cases hm : b.mailbox? name with
  | none => simp [perform, consume, hm, rec.not_alive hm]
  | some p =>
    obtain ⟨id, m⟩ := p
    obtain ⟨⟨later, alive⟩, only⟩ := rec.alive hm
    have hunclaimed : ∀ k later, h.Alive name k later →
        (m.readership = .unclaimed ↔ later.readers k = 0) :=
      fun k later alive => (only k later alive).2.unclaimed
    -- A life can be read once, and its mailbox says whether that has happened.
    by_cases unclaimed : m.readership = .unclaimed
    · have first : ∀ k later, h.Alive name k later → later.readers k = 0 :=
        fun k later alive => (hunclaimed k later alive).1 unclaimed
      have hid : id = ⟨k⟩ ↔ ∃ later, h.Alive name k later ∧ later.readers k = 0 := by
        constructor
        · rintro rfl
          exact ⟨later, alive, first _ _ alive⟩
        · rintro ⟨later, alive, -⟩
          exact index_inj (only k later alive).1.symm
      simpa [perform, consume, hm, unclaimed] using hid
    · have again : ∀ later, h.Alive name k later → later.readers k ≠ 0 :=
        fun later alive => (hunclaimed k later alive).not.1 unclaimed
      simpa [perform, consume, hm, unclaimed] using again

end

/-- Whatever is done, in each life of a queue the one reader that it can have gets just the envelopes
    that the queue accepted, in the order in which it accepted them, each once, and sees the end
    just when the queue has been deleted and there are no more.  It is refused to make a queue that
    lives, to delete, read or send to one that does not, to read one that somebody came to read
    before, and to send to one whose reader was dropped, and what is refused changes nothing. -/
theorem queues_lose_nothing (ds : List Deed) :
    let h : History := (past ds).1
    let b := (past ds).2
    (∀ (name : String) (k : Nat) (later : History), h.Life name k later →
      later.readers k ≤ 1 ∧
      (later.left k = false → ∀ n : Nat,
        later.taken k ++ (b.receiveUpTo ⟨k⟩ n).1 =
          (later.accepted name).take ((later.taken k).length + n) ∧
        ((b.receiveUpTo ⟨k⟩ n).2.1 = true ↔
          later.finished name = true ∧
            (later.accepted name).length < (later.taken k).length + n))) ∧
    (∀ (name : String) (k : Nat), (b.perform (.consume name)).1 = .reader ⟨k⟩ ↔
      ∃ later, h.Alive name k later ∧ later.readers k = 0) ∧
    (∀ name : String, (b.perform (.create name)).1 = .done ↔ ∀ k later, ¬ h.Alive name k later) ∧
    (∀ name : String, (b.perform (.delete name)).1 = .done ↔ ∃ k later, h.Alive name k later) ∧
    (∀ (name : String) (bytes : Bytes), SendsTo h name (b.perform (.sendRaw name bytes)).1) ∧
    (∀ (name : String) (e : Envelope), e.Fits → SendsTo h name (b.perform (.send name e)).1) ∧
    ∀ (d : Deed) (e : TransportError), (b.perform d).1 = .refused e → (b.perform d).2 = b := by
  intro h b
  have recorded : Recorded h b := recorded_past ds
  refine ⟨fun name k later life => ?_, fun name k => recorded.consumes k,
    fun name => recorded.creates, fun name => recorded.deletes,
    fun name bytes => recorded.sendsTo bytes, fun name e fits => ?_, fun d e => perform_refused⟩
  · obtain ⟨m, kept⟩ := recorded.lives name k later life
    refine ⟨kept.once, fun stays n => ?_⟩
    obtain ⟨takes, ends⟩ : (b.receiveUpTo ⟨k⟩ n).1 = m.letters.take n ∧ _ :=
      receiveUpTo_eq kept.box n
    have hletters := kept.letters stays
    -- What was accepted is what was taken and what waits, so reading on goes on in it.
    rw [takes, ends, ← hletters]
    constructor
    · rw [List.take_length_add_append]
    · rw [kept.live, List.length_append, Nat.add_lt_add_iff_left]
      simp
  · obtain ⟨bytes, flat⟩ := Envelope.toBytes_of_fits fits
    -- Sending an envelope that fits is sending its bytes.
    have hsend : b.send name e = b.sendRaw name bytes := by simp only [send, flat]
    show SendsTo h name (b.settle (b.send name e)).1
    rw [hsend]
    exact recorded.sendsTo bytes

/-- A queue that took one message before its reader came and one after, among bytes that are none,
    was deleted and made again: its reader still gets what is left. -/
theorem queues_lose_nothing_reopened :
    let ds : List Deed := [.create "q", .send "q" { body := [1] }, .sendRaw "q" [1, 2],
      .consume "q", .receive ⟨0⟩, .send "q" { body := [2] }, .delete "q", .create "q",
      .send "q" { body := [3] }]
    let h : History := (past ds).1
    let later : History := h.tail
    h.Life "q" 0 later ∧ later.left 0 = false ∧ (later.accepted "q").map (·.body) = [[1], [2]] ∧
      later.taken 0 ++ ((past ds).2.receiveUpTo ⟨0⟩ 5).1 =
        (later.accepted "q").take ((later.taken 0).length + 5) := by
  intro ds h later
  -- The second life has the same name, and its message is not among those of the first.
  have life : h.Life "q" 0 later := ⟨[], by rfl, by rfl⟩
  have stays : later.left 0 = false := by decide +kernel
  exact ⟨life, stays, by decide +kernel,
    (((queues_lose_nothing ds).1 "q" 0 later life).2 stays 5).1⟩

end Broker

end StreamRpc
