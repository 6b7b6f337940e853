import StreamRpc.Proofs.Call.Closing
import StreamRpc.Proofs.Client.Overlap

/-! # What a step does to a session

Each lemma says all that a single step of any operation can do to one thing: to the calls, to a
stream, to an inbox, to a disconnection, or to a handle in a certain place.  What holds throughout is
proved from these, and no later proof looks at the steps one by one.

* `Office.Step.calls`          what a step does at the desk
* `Office.Step.opened`         where an open stream comes from, and in `Office.Step.stays_open` how it
                               closes
* `Office.Step.fills`          what a step does to one inbox
* `Office.Step.disconnection`  where a disconnection comes from, and in `Office.Step.stays` how it
                               goes on
* `Office.Step.from`           where a handle comes from
* `Office.Step.to_pump`        where it goes from the hand of the pump, and so from each other place
-/

namespace StreamRpc

open Demux (Given Fit)

/-- No stream is open for the handle with this key. -/
def Demux.Unfed (d : Demux) (key : Nat) : Prop :=
  ∀ id : StreamId, d.opened[id]? ≠ some key

/-- A stream that was open for this handle may be so no more. -/
inductive OfficeEvent.Closes (h : Handle) : OfficeEvent → Prop where
  | ended {n : Notification ClientValue} (last : n.terminal = true) :
      Closes h (.routed h.id n (some h.key))
  /-- The stream is introduced again. -/
  | again {g : Handle} (same : g.id = h.id) : Closes h (.introduced g)
  | struck {i : Nat} : Closes h (.struck i h.id)
  /-- A handle for the stream is dropped, this one or another. -/
  | released {g : Handle} (same : g.id = h.id) : Closes h (.released g)

namespace Office

variable {serverQueue replyTo : String} {tr es : OfficeTrace} {o o' : Office}

/-! ## What a step does -/

/-- What a step does at the desk. -/
theorem Step.calls (next : Step tr o es o') : Desk.Run o.desk es.calls o'.desk := by
  have hone : ∀ {es' : CallTrace} {b : Desk}, Desk.Step o.desk es' b → Desk.Run o.desk es' b :=
    fun step => by
      have run := (@Desk.Run.refl o.desk).step step
      rwa [List.nil_append] at run
  cases next with
  | pump next =>
    cases next with
    -- Of the pump, the program and the disconnections, each has one kind of step at the desk.
    | @answer id _ _ result => exact hone (.answer o.desk id result)
    | _ => exact .refl
  | use next =>
    cases next with
    | call step =>
      rw [OfficeTrace.calls_map_call]
      exact hone step
    | @read h r =>
      -- What a read tells of is no event of a call.
      have hnone : OfficeTrace.calls ((Demux.Reading.notification? r).map (.yielded h)).toList = [] := by
        cases Demux.Reading.notification? r <;> rfl
      rw [hnone]
      exact .refl
    | _ => exact .refl
  | leave => exact .refl
  | disconnect next =>
    cases next with
    | @close reason => exact hone (.close o.desk (.connectionLost reason))
    | _ => exact .refl

/-- The desk's part of the steps of an office is a run of the desk. -/
theorem Goes.calls (goes : Goes tr o es o') : Desk.Run o.desk es.calls o'.desk := by
  induction goes with
  | refl => exact .refl
  | step _ next ih =>
    rw [OfficeTrace.calls_append]
    exact ih.trans next.calls

/-- A stream is open for the handle that it was open for before, or for a new one. -/
theorem Step.opened (next : Step tr o es o') {id : StreamId} {key : Nat}
    (h : o'.demux.opened[id]? = some key) :
    o.demux.opened[id]? = some key ∨ key = o.demux.nextKey ∧ es = [.introduced ⟨key, id⟩] := by
  cases next with
  | pump next =>
    cases next with
    -- A stream opens only when a handle is made for it; every other step closes or leaves it.
    | @attach m hs other =>
      have h' : (o.demux.opened.insert other o.demux.nextKey)[id]? = some key := h
      rw [Std.ExtTreeMap.getElem?_insert] at h'
      split at h'
      · next hid =>
        obtain rfl := Std.LawfulEqOrd.eq_of_compare hid
        obtain rfl := Option.some.inj h'
        exact .inr ⟨rfl, rfl⟩
      · exact .inl h'
    | @route other _ _ n =>
      have h' : (if n.terminal then o.demux.opened.erase other else o.demux.opened)[id]? = some key :=
        h
      split at h'
      · exact .inl (Demux.opened_of_erase h').1
      · exact .inl h'
    | _ => exact .inl h
  | use next =>
    cases next with
    | @read g r d got reads =>
      have h' : d.opened[id]? = some key := h
      cases reads <;> exact .inl h'
    | @release g => exact .inl (o.demux.opened_release_eq h).1
    | _ => exact .inl h
  | leave => exact .inl h
  | disconnect next =>
    cases next with
    -- A disconnection opens nothing.
    | strike => exact .inl (Demux.opened_of_erase h).1
    | _ => exact .inl h

/-- A stream stays open for a handle until something is told that closes it. -/
theorem Step.stays_open (next : Step tr o es o') {h : Handle}
    (opened : o.demux.opened[h.id]? = some h.key) :
    o'.demux.opened[h.id]? = some h.key ∨ ∃ x ∈ es, x.Closes h := by
  cases next with
  | pump next =>
    cases next with
    -- The same id introduced again takes the stream from the handle.
    | @attach m hs id =>
      by_cases hid : id = h.id
      · exact .inr ⟨_, List.mem_singleton_self _, .again hid⟩
      · refine .inl (Eq.trans ?_ opened)
        show (o.demux.opened.insert id o.demux.nextKey)[h.id]? = _
        rw [Std.ExtTreeMap.getElem?_insert, if_neg]
        exact fun hc => hid (Std.LawfulEqOrd.eq_of_compare hc)
    -- Only an end that is routed to this stream closes it.
    | @route id event hs n key busy reads handles found =>
      show (if n.terminal then o.demux.opened.erase id else o.demux.opened)[h.id]? = _ ∨ _
      split
      · next last =>
        by_cases hid : h.id = id
        · subst hid
          obtain rfl := Option.some.inj (found.symm.trans opened)
          exact .inr ⟨_, List.mem_singleton_self _, .ended last⟩
        · exact .inl (by rw [Demux.getElem?_erase_opened, if_neg hid, opened])
      · exact .inl opened
    | _ => exact .inl opened
  | use next =>
    cases next with
    | @read g r d got reads =>
      left
      show d.opened[h.id]? = some h.key
      cases reads <;> exact opened
    | @release g =>
      by_cases hid : h.id = g.id
      · exact .inr ⟨_, List.mem_singleton_self _, .released hid.symm⟩
      · exact .inl ((o.demux.opened_release_of_ne hid).trans opened)
    | _ => exact .inl opened
  | leave => exact .inl opened
  | disconnect next =>
    cases next with
    | @strike reason left id key =>
      by_cases hid : h.id = id
      · subst hid
        exact .inr ⟨_, List.mem_singleton_self _, .struck⟩
      · left
        show (o.demux.opened.erase id)[h.id]? = _
        rw [Demux.getElem?_erase_opened, if_neg hid, opened]
    | _ => exact .inl opened

/-- A step that puts a notification into an inbox. -/
inductive Delivers (o o' : Office) (key : Nat) : Notification ClientValue → Prop where
  | send {n : Notification ClientValue} (busy : o.pumping = .sending key n) : Delivers o o' key n
  | tell {i : Nat} {reason : String} {left : List StreamId}
      (busy : o.disconnections[i]? = some { reason, stage := .telling key left })
      (after : o'.disconnections[i]? = some { reason, stage := .streams left }) :
      Delivers o o' key (.error (Disconnection.failure reason))

/-- What is put into an inbox was on its way there. -/
theorem Delivers.brings {key : Nat} {n : Notification ClientValue} (comes : Delivers o o' key n) :
    o.Brings key n := by
  cases comes with
  | send busy => exact .sending busy
  | tell busy => exact .telling busy

/-- What a step can do to an inbox. -/
inductive Fills (tr : OfficeTrace) (o o' : Office) (key : Nat) :
    Option Inbox → OfficeTrace → Option Inbox → Prop where
  | rest {box? : Option Inbox} {es : OfficeTrace} (silent : es.yields key = []) :
      Fills tr o o' key box? es box?
  | fresh {box? : Option Inbox} {h : Handle} (hkey : h.key = key)
      (new : o.demux.nextKey = key) : Fills tr o o' key box? [.introduced h] (some {})
  | sent {box : Inbox} {n : Notification ClientValue} (comes : Delivers o o' key n) :
      Fills tr o o' key (some box) [] (some { box with unread := box.unread ++ [n] })
  | yielded {h : Handle} {box : Inbox} {n : Notification ClientValue}
      {unread : List (Notification ClientValue)} (hkey : h.key = key) (got : tr.Got h)
      (going : box.done = false) (waiting : box.unread = n :: unread) :
      Fills tr o o' key (some box) [.yielded h n] (some { unread, done := n.terminal })
  | ended {h : Handle} {box : Inbox} (hkey : h.key = key) (got : tr.Got h) (going : box.done = false)
      (empty : box.unread = []) (unfed : o.demux.opened[h.id]? ≠ some key)
      (still : ∀ n, ¬o.Brings key n) : Fills tr o o' key (some box) [] (some { done := true })
  | gone {h : Handle} {box : Inbox} (hkey : h.key = key) (fell : h ∈ o.fallen)
      (spills : ∀ g ∈ box.held, g ∈ o'.falling) :
      Fills tr o o' key (some box) [] none

/-- What a step does to one inbox. -/
theorem Step.fills (next : Step tr o es o') (key : Nat) :
    Fills tr o o' key o.demux.inboxes[key]? es o'.demux.inboxes[key]? := by
  have hput : ∀ {k : Nat} {n : Notification ClientValue} {box : Inbox}, Delivers o o' k n →
      o.demux.inboxes[k]? = some box → Fills tr o o' key o.demux.inboxes[key]? []
        (o.demux.inboxes.insert k { box with unread := box.unread ++ [n] })[key]? :=
    fun {k n box} comes found => by
      rw [Demux.getElem?_insert_inbox]
      split
      · next hk =>
        subst hk
        rw [found]
        exact .sent comes
      · exact .rest rfl
  cases next with
  | pump next =>
    cases next with
    -- A new handle gets an empty inbox under the next key.
    | @attach m hs id =>
      show Fills tr o _ key _ _ (o.demux.inboxes.insert o.demux.nextKey {})[key]?
      rw [Demux.getElem?_insert_inbox]
      split
      · next hk => exact .fresh hk.symm hk.symm
      · exact .rest rfl
    | send busy found => exact hput (.send busy) found
    | _ => exact .rest rfl
  | use next =>
    cases next with
    | call => exact .rest (OfficeTrace.yields_map_call _ key)
    | @read h r d got reads waits =>
      cases reads with
      | ended | nothing => exact .rest rfl
      | @item box n unread found going waiting =>
        show Fills tr o _ key _ [.yielded h n] (o.demux.inboxes.insert h.key _)[key]?
        rw [Demux.getElem?_insert_inbox]
        split
        · next hk =>
          subst hk
          rw [found]
          exact .yielded rfl got going waiting
        · next hk => exact .rest (by simp [OfficeTrace.yields, OfficeEvent.yield?, hk])
      | @last box found going empty unfed =>
        show Fills tr o _ key _ [] (o.demux.inboxes.insert h.key { done := true })[key]?
        rw [Demux.getElem?_insert_inbox]
        split
        · next hk =>
          subst hk
          rw [found]
          refine .ended rfl got going empty unfed fun n comes => ?_
          -- Otherwise the handle would not have come to its end.
          have hsame := congrArg (·.inboxes[h.key]?) (waits rfl ⟨n, comes⟩)
          simp only [Std.ExtTreeMap.getElem?_insert_self, found] at hsame
          rw [← Option.some.inj hsame] at going
          cases going
        · exact .rest rfl
    | @release h =>
      show Fills tr o _ key _ _ (o.demux.release h.id).inboxes[key]?
      rw [Demux.inboxes_release]
      exact .rest rfl
    -- A fallen handle goes with its inbox, and what was in it falls too.
    | @discard h box falls found =>
      show Fills tr o _ key _ _ (o.demux.inboxes.erase h.key)[key]?
      rw [Demux.getElem?_erase_inbox]
      split
      · next hk =>
        subst hk
        rw [found]
        exact .gone rfl falls fun g hg => List.mem_append_left _ hg
      · exact .rest rfl
    | _ => exact .rest rfl
  | leave => exact .rest rfl
  | disconnect next =>
    cases next with
    | tell ready found =>
      refine hput (.tell ready ?_) found
      exact List.getElem?_set_self (List.getElem?_eq_some_iff.1 ready).1
    | _ => exact .rest rfl

/-- A disconnect step moves its own disconnect only. -/
theorem Disconnects.disconnections {i : Nat} (next : Disconnects o i es o') :
    ∃ reason stage stage', o.disconnections[i]? = some { reason, stage } ∧
      o'.disconnections = o.disconnections.set i { reason, stage := stage' } := by
  cases next with
  | close ready => exact ⟨_, _, _, ready, rfl⟩
  | look ready => exact ⟨_, _, _, ready, rfl⟩
  | strike ready => exact ⟨_, _, _, ready, rfl⟩
  | skip ready => exact ⟨_, _, _, ready, rfl⟩
  | tell ready => exact ⟨_, _, _, ready, rfl⟩
  | miss ready => exact ⟨_, _, _, ready, rfl⟩
  | finish ready => exact ⟨_, _, _, ready, rfl⟩

/-- The pump moves no disconnect. -/
theorem Pumps.disconnections (next : o.Pumps es o') : o'.disconnections = o.disconnections := by
  cases next <;> rfl

/-- The callers move no disconnect. -/
theorem Uses.disconnections (next : o.Uses tr es o') : o'.disconnections = o.disconnections := by
  cases next <;> rfl

/-- The callers do not move the pump. -/
theorem Uses.pumping (next : o.Uses tr es o') : o'.pumping = o.pumping := by
  cases next <;> rfl

/-- A disconnect does not move the pump. -/
theorem Disconnects.pumping {i : Nat} (next : Disconnects o i es o') : o'.pumping = o.pumping := by
  cases next <;> rfl

/-- What the pump does, it does itself. -/
theorem Step.pumping (next : Step tr o es o') : o'.pumping = o.pumping ∨ o.Pumps es o' := by
  cases next with
  | pump next => exact .inr next
  | use next => exact .inl next.pumping
  | leave => exact .inl rfl
  | disconnect next => exact .inl next.pumping

/-- A disconnection stays as it is until it takes a step itself. -/
theorem Step.stays (next : Step tr o es o') {i : Nat} {x : Disconnection}
    (h : o.disconnections[i]? = some x) :
    o'.disconnections[i]? = some x ∨ Disconnects o i es o' := by
  cases next with
  | pump next => exact .inl (next.disconnections ▸ h)
  | use next => exact .inl (next.disconnections ▸ h)
  | leave => exact .inl (List.getElem?_append_left (List.getElem?_eq_some_iff.1 h).1 ▸ h)
  | @disconnect j _ _ next =>
    -- Another disconnection keeps to its own place.
    by_cases hij : j = i
    · subst hij
      exact .inr next
    · obtain ⟨_, _, _, -, heq⟩ := next.disconnections
      rw [heq]
      exact .inl ((List.getElem?_set_ne hij).trans h)

/-- A disconnection was as it is, or it begins, or it has taken this step. -/
theorem Step.disconnection (next : Step tr o es o') {i : Nat} {x : Disconnection}
    (h : o'.disconnections[i]? = some x) :
    o.disconnections[i]? = some x ∨
      (x.stage = .asked ∧ i = o.disconnections.length ∧ o.desk.correlator.closed = false) ∨
      Disconnects o i es o' := by
  cases next with
  | pump next => exact .inl (next.disconnections ▸ h)
  | use next => exact .inl (next.disconnections ▸ h)
  | leave going reason =>
    -- A new disconnection gets the next place.
    rw [List.getElem?_append] at h
    split at h
    · exact .inl h
    · obtain ⟨hlt, heq⟩ := List.getElem?_eq_some_iff.1 h
      rw [List.length_singleton] at hlt
      rw [List.getElem_singleton] at heq
      exact .inr (.inl ⟨heq ▸ rfl, by omega, going⟩)
  | @disconnect j _ _ next =>
    by_cases hij : j = i
    · subst hij
      exact .inr (.inr next)
    · obtain ⟨_, _, _, -, heq⟩ := next.disconnections
      rw [heq, List.getElem?_set_ne hij] at h
      exact .inl h

/-! ## Where a handle is -/

/-- A place that a handle can be in. -/
inductive Place where
  | ticket (id : CallId)
  /-- In the hand of the pump. -/
  | pump
  | falling
  | fallen
  | program
  /-- In what has not been read of another handle. -/
  | inbox (key : Nat)

/-- A handle is in this place. -/
def At (tr : OfficeTrace) (o : Office) (h : Handle) : Place → Prop
  | .ticket id => ∃ v, o.desk.correlator.tickets[id]? = some (.resolved (.ok v)) ∧ h ∈ v.slots
  | .pump => h ∈ o.pumping.handles
  | .falling => h ∈ o.falling
  | .fallen => h ∈ o.fallen
  | .program => tr.Got h
  | .inbox key => ∃ box, o.demux.inboxes[key]? = some box ∧ h ∈ box.held

/-- How a step can move a handle. -/
inductive Moves (tr : OfficeTrace) (o : Office) (es : OfficeTrace) : Place → Place → Prop where
  | answer {id : CallId} (waits : o.desk.correlator.isPending id = true) :
      Moves tr o es .pump (.ticket id)
  | send {key : Nat} {n : Notification ClientValue} (busy : o.pumping = .sending key n) :
      Moves tr o es .pump (.inbox key)
  | spill : Moves tr o es .pump .falling
  | collect {id : CallId} {r : Except CallError ClientValue} (told : .call (.collected id r) ∈ es) :
      Moves tr o es (.ticket id) .program
  | forget {id : CallId} : Moves tr o es (.ticket id) .falling
  | yield {g : Handle} (got : tr.Got g) : Moves tr o es (.inbox g.key) .program
  | discard {key : Nat} : Moves tr o es (.inbox key) .falling
  | drop : Moves tr o es .program .falling
  | release : Moves tr o es .falling .fallen

/-- A notification added to an inbox adds the handles it carries. -/
theorem mem_held_concat {box : Inbox} {n : Notification ClientValue} {h : Handle} :
    h ∈ Inbox.held { box with unread := box.unread ++ [n] } ↔ h ∈ box.held ∨ h ∈ n.handles := by
  simp [Inbox.held]

/-- What a step tells of what a program gets. -/
private theorem got_append {h : Handle} (got : OfficeTrace.Got (tr ++ es) h) :
    tr.Got h ∨ (∃ id v, .call (.collected id (.ok v)) ∈ es ∧ h ∈ v.slots) ∨
      ∃ g n, .yielded g n ∈ es ∧ h ∈ n.handles := by
  -- The program gets handles in two ways, and each of them is one event.
  cases got with
  | @collected id v _ told hh =>
    rcases List.mem_append.1 told with told | told
    · exact .inl (.collected told hh)
    · exact .inr (.inl ⟨id, v, told, hh⟩)
  | @yielded g _ n told hh =>
    rcases List.mem_append.1 told with told | told
    · exact .inl (.yielded told hh)
    · exact .inr (.inr ⟨g, n, told, hh⟩)

/-- What a program takes off a ticket was there. -/
private theorem Step.collected (next : Step tr o es o') {id : CallId} {v : ClientValue}
    (told : .call (.collected id (.ok v)) ∈ es) :
    o.desk.correlator.tickets[id]? = some (.resolved (.ok v)) := by
  cases next with
  | pump next => cases next <;> simp at told
  | use next =>
    cases next with
    | call step =>
      have told' := OfficeTrace.mem_calls.2 told
      rw [OfficeTrace.calls_map_call] at told'
      -- Of all that is done at the desk, only a collection tells of an answer.
      cases step.does with
      | collect _ outcome =>
        obtain ⟨rfl, rfl⟩ := CallEvent.collected.injEq .. ▸ List.mem_singleton.1 told'
        exact Correlator.ticket_of_collect outcome
      | _ => simp at told'
    | _ => simp at told
  | leave => cases told
  | disconnect next => cases next <;> simp at told

/-- What a handle yields was the first thing in its inbox. -/
private theorem Step.yielded (next : Step tr o es o') {g : Handle} {n : Notification ClientValue}
    (told : .yielded g n ∈ es) :
    tr.Got g ∧ ∃ box unread, o.demux.inboxes[g.key]? = some box ∧ box.unread = n :: unread := by
  have hyield : n ∈ es.yields g.key := List.mem_filterMap.2 ⟨_, told, if_pos rfl⟩
  have fills := next.fills g.key
  generalize hb : o.demux.inboxes[g.key]? = box? at fills
  generalize o'.demux.inboxes[g.key]? = box?' at fills
  -- What a step does to this inbox says all; only a yield tells of one.
  cases fills with
  | rest silent =>
    rw [silent] at hyield
    cases hyield
  | fresh | sent | ended | gone => simp at told
  | yielded _ got going waiting =>
    obtain ⟨rfl, rfl⟩ := OfficeEvent.yielded.injEq .. ▸ List.mem_singleton.1 told
    exact ⟨got, _, _, rfl, waiting⟩

/-- Where a handle is that a program gets. -/
theorem Step.got (next : Step tr o es o') {h : Handle} (got : OfficeTrace.Got (tr ++ es) h) :
    tr.Got h ∨ ∃ q, Moves tr o es q .program ∧ o.At tr h q := by
  rcases got_append got with got | ⟨id, v, told, hh⟩ | ⟨g, n, told, hh⟩
  · exact .inl got
  · exact .inr ⟨.ticket id, .collect told, v, next.collected told, hh⟩
  · obtain ⟨hgot, box, unread, hbox, hunread⟩ := next.yielded told
    refine .inr ⟨.inbox g.key, .yield hgot, box, hbox, ?_⟩
    rw [Inbox.held, hunread, List.flatMap_cons]
    exact List.mem_append_left _ hh

/-- The handles that are left over at the desk were in a ticket. -/
private theorem ticket_of_leftover {c : Correlator} {x : CallEvent} {h : Handle}
    (unanswered : ∀ id result found, x ≠ .attempted id (.answer result) found)
    (hh : h ∈ x.leftover c) :
    ∃ (id : CallId) (v : ClientValue), c.tickets[id]? = some (.resolved (.ok v)) ∧ h ∈ v.slots := by
  have hdrop : ∀ id, h ∈ (c.dropTicket id).2.1 →
      ∃ v : ClientValue, c.tickets[id]? = some (.resolved (.ok v)) ∧ h ∈ v.slots := fun id hh => by
    rcases (c.dropTicket_eq id).2.2.2 with hnone | ⟨r, ht, heq⟩
    · rw [hnone] at hh
      cases hh
    · rw [heq] at hh
      cases r with
      | ok v => exact ⟨v, ht, hh⟩
      | error e => cases hh
  cases x with
  | dropped id | refused id => exact ⟨id, hdrop id hh⟩
  | attempted id how found =>
    cases how with
    | answer result => exact absurd rfl (unanswered id result found)
    | cancel | failure => cases hh
  | _ => cases hh

/-- A handle on a ticket was there before, or comes with an answer out of the hand of the pump. -/
theorem Step.from_ticket (next : Step tr o es o') {h : Handle} {id : CallId}
    (here : o'.At (tr ++ es) h (.ticket id)) :
    o.At tr h (.ticket id) ∨
      o.desk.correlator.isPending id = true ∧ o.At tr h .pump := by
  obtain ⟨v, ht, hh⟩ := here
  cases next with
  | pump next =>
    cases next with
    | @answer other wire hs result busy reads handles =>
      have ht' : (o.desk.correlator.resolve other result).2.2.tickets[id]? =
        some (.resolved (.ok v)) := ht
      -- An answer nobody waits for is put on no ticket.
      cases hp : o.desk.correlator.isPending other with
      | false =>
        rw [Correlator.resolve, if_neg (by simp [hp])] at ht'
        exact .inl ⟨v, ht', hh⟩
      | true =>
        rcases (o.desk.correlator.resolve_eq other result).2.1 id _ ht' with hold | ⟨rfl, hr⟩
        · exact .inl ⟨v, hold, hh⟩
        · refine .inr ⟨hp, ?_⟩
          show h ∈ o.pumping.handles
          rw [busy]
          show h ∈ hs
          rw [← handles, ← hr]
          exact hh
    | _ => exact .inl ⟨v, ht, hh⟩
  | use next =>
    cases next with
    | call step _ unanswered =>
      -- The program puts only failures on tickets, and those hold no handle.
      rcases step.settles unanswered id _ ht with hold | ⟨e, he⟩
      · exact .inl ⟨v, hold, hh⟩
      · cases he
    | _ => exact .inl ⟨v, ht, hh⟩
  | leave => exact .inl ⟨v, ht, hh⟩
  | disconnect next => cases next <;> exact .inl ⟨v, ht, hh⟩

/-- A handle in the hand of the pump was there before, or was just made. -/
private theorem Step.from_pump (next : Step tr o es o') {h : Handle}
    (here : h ∈ o'.pumping.handles) :
    h ∈ o.pumping.handles ∨ es = [.introduced h] := by
  rcases next.pumping with hsame | next
  · exact .inl (hsame ▸ here)
  · cases next with
    -- The pump gets a handle only by making it.
    | attach busy =>
      rcases List.mem_append.1 here with here | here
      · rw [busy]
        exact .inl here
      · rw [List.mem_singleton.1 here]
        exact .inr rfl
    | route busy _ handles =>
      rw [busy]
      exact .inl (handles ▸ here)
    | take | answer | reject | send | miss => cases here

/-- Where a handle comes from that is being dropped. -/
private theorem Step.from_falling (next : Step tr o es o') {h : Handle} (here : h ∈ o'.falling) :
    h ∈ o.falling ∨ ∃ q, Moves tr o es q .falling ∧ o.At tr h q := by
  have hpump : ∀ {hs}, o.pumping.handles = hs → h ∈ hs →
      ∃ q, Moves tr o es q .falling ∧ o.At tr h q := fun heq hh =>
    ⟨.pump, .spill, show h ∈ o.pumping.handles from heq ▸ hh⟩
  cases next with
  | pump next =>
    cases next with
    -- What falls here is all that the answer held, or nothing.
    | @answer id wire hs result busy reads handles =>
      rcases List.mem_append.1 here with hh | hh
      · have hhs : o.pumping.handles = hs := by rw [busy]; rfl
        refine .inr (hpump (hhs.trans handles.symm) ?_)
        rcases (o.desk.correlator.resolve_eq id result).1 with heq | heq
        · rw [heq] at hh
          cases hh
        · rwa [heq] at hh
      · exact .inl hh
    | reject busy _ _ => exact (List.mem_append.1 here).symm.imp id (hpump (by rw [busy]; rfl))
    | miss busy => exact (List.mem_append.1 here).symm.imp id (hpump (by rw [busy]; rfl))
    | _ => exact .inl here
  | use next =>
    cases next with
    -- A ticket that is given up leaves its answer, and the handles in it fall.
    | call step _ unanswered =>
      rcases List.mem_append.1 here with hh | hh
      · obtain ⟨x, hx, hh⟩ := List.mem_flatMap.1 hh
        obtain ⟨id, v, ht, hv⟩ := ticket_of_leftover
          (fun id result found heq => unanswered id result found (heq ▸ hx)) hh
        exact .inr ⟨.ticket id, .forget, v, ht, hv⟩
      · exact .inl hh
    | drop got =>
      rcases List.mem_cons.1 here with rfl | hh
      · exact .inr ⟨.program, .drop, got⟩
      · exact .inl hh
    | release => exact .inl (List.mem_of_mem_erase here)
    | @discard g box falls found =>
      rcases List.mem_append.1 here with hh | hh
      · exact .inr ⟨.inbox g.key, .discard, box, found, hh⟩
      · exact .inl hh
    | skip => exact .inl (List.mem_of_mem_erase here)
    | _ => exact .inl here
  | leave => exact .inl here
  | disconnect next => cases next <;> exact .inl here

/-- A handle that has been released was being dropped before. -/
theorem Step.from_fallen (next : Step tr o es o') {h : Handle} (here : h ∈ o'.fallen) :
    h ∈ o.fallen ∨ h ∈ o.falling ∧ es = [.released h] ∧ o'.demux = o.demux.release h.id := by
  cases next with
  | pump next => cases next <;> exact .inl here
  | use next =>
    cases next with
    -- Only a release moves a handle here, and it closes its stream.
    | release falls =>
      rcases List.mem_cons.1 here with rfl | hh
      · exact .inr ⟨falls, rfl, rfl⟩
      · exact .inl hh
    | discard => exact .inl (List.mem_of_mem_erase here)
    | skip => exact .inl (List.mem_of_mem_erase here)
    | _ => exact .inl here
  | leave => exact .inl here
  | disconnect next => cases next <;> exact .inl here

/-- Where a handle was before a step. -/
theorem Step.from (next : Step tr o es o') {h : Handle} {p : Place} (here : o'.At (tr ++ es) h p) :
    o.At tr h p ∨ (p = .pump ∧ es = [.introduced h]) ∨ ∃ q, Moves tr o es q p ∧ o.At tr h q := by
  cases p with
  | program => exact (next.got here).imp_right .inr
  | inbox key =>
    obtain ⟨box', hbox', hh⟩ := here
    -- An inbox is compared with what it was; the other places have a lemma each.
    have fills := next.fills key
    rw [hbox'] at fills
    generalize hb : o.demux.inboxes[key]? = box? at fills
    cases fills with
    | rest => exact .inl ⟨box', hb, hh⟩
    | fresh => cases hh
    | @sent box n comes =>
      rcases mem_held_concat.1 hh with hh | hh
      · exact .inl ⟨box, hb, hh⟩
      · cases comes with
        | send busy =>
          refine .inr (.inr ⟨.pump, .send busy, ?_⟩)
          show h ∈ o.pumping.handles
          rwa [busy]
        | tell => cases hh
    | @yielded _ box n unread _ _ _ waiting =>
      refine .inl ⟨box, hb, ?_⟩
      rw [Inbox.held, waiting, List.flatMap_cons]
      exact List.mem_append_right _ hh
    -- The inbox of a handle that has come to its end is empty.
    | ended => cases hh
  | pump => exact (next.from_pump here).imp_right fun h => .inl ⟨rfl, h⟩
  | ticket id =>
    rcases next.from_ticket here with hold | ⟨waits, hh⟩
    · exact .inl hold
    · exact .inr (.inr ⟨.pump, .answer waits, hh⟩)
  | falling => exact (next.from_falling here).imp_right .inr
  | fallen =>
    rcases next.from_fallen here with hold | ⟨hh, -⟩
    · exact .inl hold
    · exact .inr (.inr ⟨.falling, .release, hh⟩)

/-- What becomes of a handle in the hand of the pump. -/
theorem Step.to_pump (next : Step tr o es o') {h : Handle} (here : h ∈ o.pumping.handles) :
    h ∈ o'.pumping.handles ∨ ∃ q, Moves tr o es .pump q ∧ o'.At (tr ++ es) h q := by
  rcases next.pumping with hsame | next
  · exact .inl (hsame ▸ here)
  · cases next with
    | take idle =>
      rw [idle] at here
      cases here
    | attach busy =>
      rw [busy] at here
      exact .inl (List.mem_append_left _ here)
    | @answer id wire hs result busy reads handles =>
      rw [busy] at here
      have hh : h ∈ (Ticket.resolved (result.mapError .remote)).handles := handles ▸ here
      -- The answer is put on the ticket of its call, or its handles are left over.
      obtain ⟨v, rfl⟩ : ∃ v, result = .ok v := by
        cases result with
        | ok v => exact ⟨v, rfl⟩
        | error f => cases hh
      cases hp : o.desk.correlator.isPending id with
      | false =>
        refine .inr ⟨.falling, .spill, List.mem_append_left _ ?_⟩
        rwa [Correlator.resolve, if_neg (by simp [hp])]
      | true =>
        have heq : o.desk.correlator.resolve id (.ok v) =
            (true, ((o.desk.correlator.withdraw id).settle id (.ok v)).1,
              ((o.desk.correlator.withdraw id).settle id (.ok v)).2) := by
          rw [Correlator.resolve, if_pos hp]
          rfl
        rw [heq]
        rcases (o.desk.correlator.withdraw id).settle_cases id (.ok v) with ⟨-, hs⟩ | ⟨-, hs⟩
        · refine .inr ⟨.ticket id, .answer hp, v, ?_, hh⟩
          rw [hs]
          exact Std.ExtTreeMap.getElem?_insert_self
        · refine .inr ⟨.falling, .spill, List.mem_append_left _ ?_⟩
          rwa [hs]
    | @route id event hs n key busy _ handles =>
      rw [busy] at here
      exact .inl (show h ∈ n.handles from handles ▸ here)
    | reject busy =>
      rw [busy] at here
      exact .inr ⟨.falling, .spill, List.mem_append_left _ here⟩
    -- From here a handle goes into an inbox, with the notification that it is in.
    | @send key n box busy =>
      rw [busy] at here
      refine .inr ⟨.inbox key, .send busy, _, Std.ExtTreeMap.getElem?_insert_self, ?_⟩
      exact mem_held_concat.2 (.inr here)
    | miss busy =>
      rw [busy] at here
      exact .inr ⟨.falling, .spill, List.mem_append_left _ here⟩

/-- What becomes of a handle on a ticket. -/
theorem Step.to_ticket (next : Step tr o es o') (ticketed : o.desk.Ticketed)
    (numbers : o.desk.makings.length = o.desk.correlator.numbered)
    (few : o'.desk.makings.length ≤ 2 ^ 64) {h : Handle} {id : CallId}
    (here : o.At tr h (.ticket id)) :
    o'.At (tr ++ es) h (.ticket id) ∨
      ∃ q, Moves tr o es (.ticket id) q ∧ o'.At (tr ++ es) h q := by
  obtain ⟨v, ht, hh⟩ := here
  cases next with
  | pump next =>
    cases next with
    | @answer other _ _ result =>
      exact .inl ⟨v, o.desk.correlator.resolve_of_resolved ht other result, hh⟩
    | _ => exact .inl ⟨v, ht, hh⟩
  | use next =>
    cases next with
    | @call es b step =>
      -- The answer stays, is collected by the program, or falls with its ticket.
      rcases step.ticket_stays ticketed numbers few ht with hstays | htold | ⟨x, hx, hleft⟩
      · exact .inl ⟨v, hstays, hh⟩
      · have htold' := List.mem_map_of_mem (f := OfficeEvent.call) htold
        exact .inr ⟨.program, .collect htold', .collected (List.mem_append_right _ htold') hh⟩
      · refine .inr ⟨.falling, .forget, List.mem_append_left _ (List.mem_flatMap.2 ⟨x, hx, ?_⟩)⟩
        rwa [hleft]
    | _ => exact .inl ⟨v, ht, hh⟩
  -- Neither the pump nor a disconnection takes an answer away from a ticket.
  | leave => exact .inl ⟨v, ht, hh⟩
  | disconnect next => cases next <;> exact .inl ⟨v, ht, hh⟩

/-- What becomes of a handle that is being dropped. -/
theorem Step.to_falling (next : Step tr o es o') {h : Handle} (here : h ∈ o.falling) :
    o'.demux.inboxes[h.key]? = none ∨ h ∈ o'.falling ∨ h ∈ o'.fallen := by
  cases next with
  | pump next =>
    cases next with
    | answer | reject | miss => exact .inr (.inl (List.mem_append_right _ here))
    | _ => exact .inr (.inl here)
  | use next =>
    cases next with
    | call => exact .inr (.inl (List.mem_append_right _ here))
    | drop => exact .inr (.inl (List.mem_cons_of_mem _ here))
    | @release g =>
      by_cases hg : h = g
      · exact .inr (.inr (hg ▸ List.mem_cons_self))
      · exact .inr (.inl ((List.mem_erase_of_ne hg).2 here))
    | discard => exact .inr (.inl (List.mem_append_right _ here))
    -- Only a handle that has no inbox is let go without more ado.
    | @skip g absent =>
      by_cases hg : h = g
      · exact .inl (hg ▸ absent)
      · exact .inr (.inl ((List.mem_erase_of_ne hg).2 here))
    | read | part => exact .inr (.inl here)
  | leave => exact .inr (.inl here)
  | disconnect next => cases next <;> exact .inr (.inl here)

/-- What becomes of a handle that has been released. -/
theorem Step.to_fallen (next : Step tr o es o') {h : Handle} (here : h ∈ o.fallen) :
    o'.demux.inboxes[h.key]? = none ∨ h ∈ o'.fallen := by
  cases next with
  | pump next => cases next <;> exact .inr here
  | use next =>
    cases next with
    | release => exact .inr (List.mem_cons_of_mem _ here)
    -- The last thing that happens to a fallen handle is that its inbox goes.
    | @discard g =>
      by_cases hg : h = g
      · exact .inl (hg ▸ Std.ExtTreeMap.getElem?_erase_self)
      · exact .inr ((List.mem_erase_of_ne hg).2 here)
    | @skip g absent =>
      by_cases hg : h = g
      · exact .inl (hg ▸ absent)
      · exact .inr ((List.mem_erase_of_ne hg).2 here)
    | _ => exact .inr here
  | leave => exact .inr here
  | disconnect next => cases next <;> exact .inr here

/-- What becomes of a handle in an inbox. -/
theorem Step.to_inbox (next : Step tr o es o') {h : Handle} {key : Nat}
    (old : key < o.demux.nextKey)
    (here : o.At tr h (.inbox key)) :
    o'.At (tr ++ es) h (.inbox key) ∨
      ∃ q, Moves tr o es (.inbox key) q ∧ o'.At (tr ++ es) h q := by
  obtain ⟨box, hbox, hh⟩ := here
  have fills := next.fills key
  rw [hbox] at fills
  generalize hb : o'.demux.inboxes[key]? = box?' at fills
  cases fills with
  | rest => exact .inl ⟨box, hb, hh⟩
  | fresh _ new => omega
  | @sent _ n => exact .inl ⟨_, hb, mem_held_concat.2 (.inl hh)⟩
  -- What the first observation held goes to the program; the rest stays.
  | @yielded g _ n unread hkey got going waiting =>
    rw [Inbox.held, waiting, List.flatMap_cons] at hh
    rcases List.mem_append.1 hh with hh | hh
    · subst hkey
      exact .inr ⟨.program, .yield got,
        .yielded (List.mem_append_right _ (List.mem_singleton_self _)) hh⟩
    · exact .inl ⟨_, hb, hh⟩
  | ended _ _ _ empty =>
    rw [Inbox.held, empty] at hh
    cases hh
  | gone _ _ spills => exact .inr ⟨.falling, .discard, spills h hh⟩

/-! ## What handles are made and told -/

/-- The handle that a step makes is the next one, and the pump has it in hand. -/
theorem Step.introduced (next : Step tr o es o') {h : Handle} (told : es = [.introduced h]) :
    h.key = o.demux.nextKey ∧ h ∈ o'.pumping.handles := by
  subst told
  cases next with
  | pump next =>
    -- The events are generalised, since a list of one cannot be matched with an appended one.
    generalize htold : [OfficeEvent.introduced h] = es at next
    cases next with
    | attach =>
      obtain rfl := OfficeEvent.introduced.inj (List.cons.inj htold).1
      exact ⟨rfl, List.mem_append_right _ (List.mem_singleton_self _)⟩
    | _ => cases htold
  | use next =>
    generalize htold : [OfficeEvent.introduced h] = es at next
    cases next with
    | @call es =>
      have hmade := congrArg OfficeTrace.made htold
      rw [OfficeTrace.made_map_call] at hmade
      cases hmade
    | @read _ r =>
      cases hn : Demux.Reading.notification? r <;> rw [hn] at htold <;> cases htold
    | _ => cases htold
  | disconnect next =>
    generalize htold : [OfficeEvent.introduced h] = es at next
    cases next <;> cases htold

/-- The handle that a disconnection tells next is that of the stream that it has taken off. -/
theorem Disconnects.telling {i : Nat} (next : Disconnects o i es o') {reason : String} {key : Nat}
    {left : List StreamId}
    (h : o'.disconnections[i]? = some { reason, stage := .telling key left }) :
    ∃ id before, es = [.struck i id] ∧ o.demux.opened[id]? = some key ∧ id ∈ before ∧
      left = before.erase id ∧ o.disconnections[i]? = some { reason, stage := .streams before } ∧
      o'.demux = { o.demux with opened := o.demux.opened.erase id } := by
  have hset : ∀ {x x' : Disconnection}, o.disconnections[i]? = some x →
      (o.disconnections.set i x')[i]? = some { reason, stage := .telling key left } →
        x' = { reason, stage := .telling key left } := fun hx h => by
    rw [List.getElem?_set_self (List.getElem?_eq_some_iff.1 hx).1] at h
    exact Option.some.inj h
  cases next with
  -- Only a strike makes a disconnection tell somebody something.
  | @strike _ before id key' ready next found =>
    obtain ⟨rfl, hstage⟩ := Disconnection.mk.injEq .. ▸ hset ready h
    obtain ⟨rfl, rfl⟩ := Disconnecting.telling.injEq .. ▸ hstage
    exact ⟨id, before, rfl, found, next, rfl, ready, rfl⟩
  | close ready => cases hset ready h
  | look ready => cases hset ready h
  | skip ready => cases hset ready h
  | tell ready => cases hset ready h
  | miss ready => cases hset ready h
  | finish ready => cases hset ready h

/-- A handle that no stream is open for stays so. -/
theorem Step.unfed (next : Step tr o es o') {key : Nat} (old : key < o.demux.nextKey)
    (unfed : o.demux.Unfed key) : o'.demux.Unfed key := by
  intro id ho
  rcases next.opened ho with hold | ⟨rfl, -⟩
  · exact unfed id hold
  · omega

end Office

end StreamRpc
