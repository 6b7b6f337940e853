import StreamRpc.Proofs.Client.Late

/-! # Handles that are made too late

When a disconnection looks which streams are open, it sees those of the handles that have been made
until then.  Handles that are made afterwards are on their way to be dropped: nobody waits for the
call that one is answered with, and the stream that would hand it over is closed, or handed over
itself by such a handle.  So no program gets one, and once nothing is on its way any more they are
gone.

The argument needs that nothing is passed on in the meantime to an old handle that would hand over
new ones (`OfficeTrace.Calm`).  For the second half no observation may introduce the stream that it
is about (`OfficeTrace.Foreign`), as its handle would then wait in its own inbox.

* `Office.Known`     what is known of every run
* `Office.Walled`    no program gets a new handle
* `Office.Anchored`  where the new handles are
* `Office.Anchored.none_left`  and that they are gone when nothing is on its way
-/

namespace StreamRpc

open Demux (Given)
open Desk (Hopeless)
open Client (callAt callAt_inj)

/-- Nothing is passed on to one of the first `n` handles that would hand over a later one. -/
def OfficeTrace.Calm (n : Nat) (es : OfficeTrace) : Prop :=
  ∀ id x key, .routed id x (some key) ∈ es → key < n → ∀ h ∈ x.handles, h.key < n

/-- No observation introduces the stream that it is about. -/
def OfficeTrace.Foreign (es : OfficeTrace) : Prop :=
  ∀ id x key?, .routed id x key? ∈ es → ∀ h ∈ x.handles, h.id ≠ id

/-- What is told of a part of a calm run is calm. -/
private theorem OfficeTrace.Calm.mono {n : Nat} {es es' : OfficeTrace}
    (calm : OfficeTrace.Calm n es')
    (sub : es ⊆ es') : OfficeTrace.Calm n es :=
  fun id x key told => calm id x key (sub told)

/-- If no observation introduces its own stream, none does in a part of the run. -/
theorem OfficeTrace.Foreign.mono {es es' : OfficeTrace} (foreign : es'.Foreign) (sub : es ⊆ es') :
    es.Foreign :=
  fun id x key? told => foreign id x key? (sub told)

namespace Office

variable {serverQueue replyTo : String} {tr es : OfficeTrace} {o o' : Office}

/-! ## What is known of every run -/

/-- The handles that the pump has in hand are those that were made last. -/
def Latest (o : Office) : Prop :=
  ∀ m hs, o.pumping = .attaching m hs →
    ∀ k < o.demux.nextKey, (∃ h ∈ hs, h.key = k) ∨ ∀ h ∈ hs, k < h.key

/-- A step leaves the pump with handles that were made last. -/
private theorem Latest.step (latest : o.Latest) (next : Step tr o es o') : o'.Latest := by
  intro m hs busy k hk
  rcases next.pumping_nextKey with ⟨hpumping, hkey⟩ | next
  · exact latest m hs (hpumping ▸ busy) k (hkey ▸ hk)
  · cases next with
    | take =>
      -- It has made none yet.
      obtain ⟨rfl, rfl⟩ := Pumping.attaching.injEq .. ▸ busy
      exact .inr nofun
    | @attach m' hs' id before =>
      obtain ⟨rfl, rfl⟩ := Pumping.attaching.injEq .. ▸ busy
      have hk' : k < o.demux.nextKey + 1 := hk
      rcases Nat.lt_succ_iff_lt_or_eq.1 hk' with hlt | rfl
      · rcases latest _ _ before k hlt with ⟨h, hh, hkey⟩ | hall
        · exact .inl ⟨h, List.mem_append_left _ hh, hkey⟩
        · refine .inr fun h hh => ?_
          rcases List.mem_append.1 hh with hh | hh
          · exact hall h hh
          · rw [List.mem_singleton.1 hh]
            exact hlt
      · exact .inl ⟨_, List.mem_append_right _ (List.mem_singleton_self _), rfl⟩
    | answer | route | reject | send | miss => cases busy

/-- What is known of a session, whatever operations are going on. -/
structure Known (replyTo : String) (tr : OfficeTrace) (o : Office) : Prop where
  sound : Sound tr o
  calls : Desk.Sound replyTo tr.calls o.desk
  ticketed : o.desk.Ticketed
  latest : o.Latest
  leaving : Leaving tr o

/-- Any steps leave the pump with handles that were made last. -/
private theorem Latest.goes (latest : o.Latest) (goes : Goes tr o es o') : o'.Latest := by
  induction goes with
  | refl => exact latest
  | step _ next ih => exact ih.step next

/-- All of it is known after steps in turn, if it was known before. -/
theorem Known.goes (known : Known replyTo tr o) (goes : Goes tr o es o')
    (few : o'.desk.makings.length ≤ 2 ^ 64) : Known replyTo (tr ++ es) o' where
  sound := known.sound.goes goes
  calls := by
    rw [OfficeTrace.calls_append]
    exact known.calls.run goes.calls few
  ticketed := goes.calls.ticketed known.ticketed known.calls.numbers
  latest := known.latest.goes goes
  leaving := known.leaving.goes goes

/-- All of it is known of a run from the start. -/
theorem Run.known (run : Run serverQueue replyTo tr o) (few : o.desk.makings.length ≤ 2 ^ 64) :
    Known replyTo tr o := by
  have known : Known replyTo [] (opened serverQueue replyTo) :=
    { sound := sound_opened serverQueue replyTo
      calls := Desk.sound_opened serverQueue replyTo
      ticketed := Desk.ticketed_opened serverQueue replyTo
      latest := fun m hs busy => by cases busy
      leaving := leaving_opened serverQueue replyTo }
  have known := known.goes run few
  rwa [List.nil_append] at known

/-! ## Handles that no program gets -/

/-- No program gets one of the handles after the first `n`: it is not on a ticket that is handed
    out, and no old handle yields it. -/
structure Walled (n : Nat) (tr : OfficeTrace) (o : Office) : Prop where
  program : ∀ h, tr.Got h → h.key < n
  inbox : ∀ (key : Nat) (box : Inbox), o.demux.inboxes[key]? = some box → key < n →
    ∀ h ∈ box.held, h.key < n
  sending : ∀ key x, o.pumping = .sending key x → key < n → ∀ h ∈ x.handles, h.key < n
  ticket : ∀ id h, o.At tr h (.ticket id) → n ≤ h.key →
    ∃ k m, id = callAt k ∧ o.desk.makings[k]? = some m ∧ Hopeless m

/-- Every handle is old when it is looked which streams are open. -/
theorem Sound.walled (sound : Sound tr o) : Walled o.demux.nextKey tr o := by
  have old : ∀ {h p}, o.At tr h p → h.key < o.demux.nextKey := fun here => by
    rw [sound.fit.count]
    exact (List.getElem?_eq_some_iff.1 (sound.given _ _ here)).1
  refine ⟨fun h got => old (p := .program) got, fun key box hbox _ h hh => ?_,
    fun key x busy _ h hh => ?_, fun id h here hle => absurd (old here) (Nat.not_lt.2 hle)⟩
  · exact old (p := .inbox key) ⟨box, hbox, hh⟩
  · refine old (p := .pump) ?_
    show h ∈ o.pumping.handles
    rwa [busy]

section

variable {n : Nat} (walled : Walled n tr o) (known : Known replyTo tr o)
  (through : o.desk.Through) (next : Step tr o es o')

include walled known through next

/-- A call whose ticket holds a new handle stays hopeless. -/
private theorem Walled.step_ticket {id : CallId} {h : Handle}
    (here : o'.At (tr ++ es) h (.ticket id))
    (hle : n ≤ h.key) : ∃ k m, id = callAt k ∧ o'.desk.makings[k]? = some m ∧ Hopeless m := by
  obtain ⟨k, m, rfl, hm, hopeless⟩ :
      ∃ k m, id = callAt k ∧ o.desk.makings[k]? = some m ∧ Hopeless m := by
    rcases next.from_ticket here with here | ⟨waits, -⟩
    · exact walled.ticket id h here hle
    · -- Only hopeless calls are still pending.
      obtain ⟨k, hlt, rfl⟩ := known.calls.pending id waits
      exact ⟨k, _, rfl, List.getElem?_eq_getElem hlt,
        known.calls.hopeless through (List.getElem?_eq_getElem hlt) waits⟩
  have hlt : k < o'.desk.makings.length :=
    Nat.lt_of_lt_of_le (Desk.lt_of_getElem? hm) next.calls.grows.1
  refine ⟨k, _, rfl, List.getElem?_eq_getElem hlt, ?_⟩
  rcases next.calls.hopeless (known.calls.closed_of_through through)
    (List.getElem?_eq_getElem hlt) with hopeless' | ⟨m', hm', hnot⟩
  · exact hopeless'
  · obtain rfl := Option.some.inj (hm.symm.trans hm')
    exact absurd hopeless hnot

/-- A new handle is not taken off a ticket, as its call is not handed out. -/
private theorem Walled.lt_of_collected (few : o'.desk.makings.length ≤ 2 ^ 64) {id : CallId}
    {r : Except CallError ClientValue} {h : Handle} (told : .call (.collected id r) ∈ es)
    (here : o.At tr h (.ticket id)) : h.key < n := by
  refine Nat.not_le.1 fun hle => ?_
  obtain ⟨k, m, rfl, hm, hopeless⟩ := walled.ticket id h here hle
  obtain ⟨k', heq, hgiven⟩ := next.calls.collected (OfficeTrace.mem_calls.2 told)
  have hlt := Nat.lt_of_lt_of_le (Desk.lt_of_getElem? hm) next.calls.grows.1
  have hlt' := Desk.lt_of_getElem? hgiven
  obtain rfl := callAt_inj (by omega) (by omega) heq
  -- A hopeless call stays so, and a collected one is over with an answer.
  rcases next.calls.hopeless (known.calls.closed_of_through through) hgiven with
    hopeless' | ⟨m', hm', hnot⟩
  · cases hopeless'
  · obtain rfl := Option.some.inj (hm.symm.trans hm')
    exact hnot hopeless

/-- No step lets a new handle through. -/
private theorem Walled.step (few : o'.desk.makings.length ≤ 2 ^ 64) (calm : es.Calm n) :
    Walled n (tr ++ es) o' where
  -- The program gets handles from tickets and from inboxes, and the old ones of either hold old
  -- handles only.
  program h got := by
    rcases next.got got with got | ⟨q, moves, here⟩
    · exact walled.program h got
    · cases moves with
      | collect told => exact walled.lt_of_collected known through next few told here
      | @yield g got =>
        obtain ⟨box, hbox, hh⟩ := here
        exact walled.inbox g.key box hbox (walled.program g got) h hh
  -- Into an inbox goes what the pump was about to send.
  inbox key box hbox hlt h hh := by
    rcases next.from (p := .inbox key) ⟨box, hbox, hh⟩ with
      ⟨box₀, hbox₀, hh₀⟩ | ⟨hp, -⟩ | ⟨q, moves, here⟩
    · exact walled.inbox key box₀ hbox₀ hlt h hh₀
    · cases hp
    · cases moves with
      | send busy =>
        have hh : h ∈ o.pumping.handles := here
        rw [busy] at hh
        exact walled.sending key _ busy hlt h hh
  -- Only routing makes the pump send, and what it routes is calm by assumption.
  sending key x busy hlt h hh := by
    rcases next.pumping with hsame | next
    · exact walled.sending key x (hsame ▸ busy) hlt h hh
    · cases next with
      | route =>
        obtain ⟨rfl, rfl⟩ := Pumping.sending.injEq .. ▸ busy
        exact calm _ _ _ (List.mem_singleton_self _) hlt h hh
      | take | attach | answer | reject | send | miss => cases busy
  ticket id h here hle := walled.step_ticket known through next here hle

end

/-- No steps in turn let a new handle through. -/
theorem Walled.goes {n : Nat} (walled : Walled n tr o) (known : Known replyTo tr o)
    (through : o.desk.Through) (goes : Goes tr o es o') (few : o'.desk.makings.length ≤ 2 ^ 64)
    (calm : es.Calm n) : Walled n (tr ++ es) o' := by
  induction goes with
  | refl => rwa [List.append_nil]
  | step goes next ih =>
    have few' := Nat.le_trans next.calls.grows.1 few
    rw [← List.append_assoc]
    exact (ih few' (calm.mono (List.subset_append_left ..))).step (known.goes goes few')
      (through.run goes.calls) next few (calm.mono (List.subset_append_right ..))

/-! ## Handles that are on their way to be dropped -/

/-- Where a new handle can be that is not dropped yet.  It can be in the inbox of another one, but
    then this one was made before it. -/
inductive Transit (n key : Nat) : Place → Prop where
  | pump : Transit n key .pump
  | falling : Transit n key .falling
  | fallen : Transit n key .fallen
  | ticket {id : CallId} : Transit n key (.ticket id)
  | inbox {k : Nat} (new : n ≤ k) (older : k < key) : Transit n key (.inbox k)

/-- Every inbox of a handle after the first `n` is that of one which will be dropped. -/
structure Anchored (n : Nat) (tr : OfficeTrace) (o : Office) : Prop where
  below : ∀ key x, o.pumping = .sending key x → ∀ h ∈ x.handles, n ≤ h.key → key < h.key
  holder : ∀ (key : Nat) (box : Inbox), o.demux.inboxes[key]? = some box → n ≤ key →
    ∃ h p, h.key = key ∧ Transit n key p ∧ o.At tr h p

/-- There are no new handles when it is looked which streams are open. -/
theorem Sound.anchored (sound : Sound tr o) : Anchored o.demux.nextKey tr o where
  below key x busy h hh hle := by
    have here : o.At tr h .pump := by
      show h ∈ o.pumping.handles
      rwa [busy]
    have := (List.getElem?_eq_some_iff.1 (sound.given h .pump here)).1
    rw [← sound.fit.count] at this
    omega
  holder key box hbox hle := absurd (sound.key_lt hbox) (Nat.not_lt.2 hle)

section

variable {n : Nat} (anchored : Anchored n tr o) (walled : Walled n tr o)
  (known : Known replyTo tr o) (next : Step tr o es o')

include anchored known next in
/-- A notification is passed on to a handle that was made before those in it. -/
private theorem Anchored.step_below (foreign : es.Foreign) {key : Nat}
    {x : Notification ClientValue}
    (busy : o'.pumping = .sending key x) {h : Handle} (hh : h ∈ x.handles) (hle : n ≤ h.key) :
    key < h.key := by
  rcases next.pumping with hsame | next
  · exact anchored.below key x (hsame ▸ busy) h hh hle
  · cases next with
    | @route id event hs x' key' before _ handles found =>
      obtain ⟨rfl, rfl⟩ := Pumping.sending.injEq .. ▸ busy
      rw [handles] at hh
      rcases known.latest _ _ before _ (known.sound.fit.key_lt found) with ⟨g, hg, rfl⟩ | hall
      · -- It would be passed on to one of the handles in it.
        have given := known.sound.given g .pump
          (show g ∈ o.pumping.handles by rw [before]; exact hg)
        have hid := known.sound.id_of_opened given found
        exact absurd hid.symm
          (foreign id _ _ (List.mem_singleton_self _) g (handles ▸ hg))
      · exact hall h hh
    | take | attach | answer | reject | send | miss => cases busy

include anchored walled known next in
/-- A new handle that is on its way to be dropped stays so until it is dropped. -/
private theorem Anchored.step_transit (few : o'.desk.makings.length ≤ 2 ^ 64)
    (walled' : Walled n (tr ++ es) o') {h : Handle} {p : Place} (hle : n ≤ h.key)
    (there : o'.demux.inboxes[h.key]? ≠ none) (transit : Transit n h.key p) (here : o.At tr h p) :
    ∃ q, Transit n h.key q ∧ o'.At (tr ++ es) h q := by
  have hprogram : ¬o'.At (tr ++ es) h .program := fun got =>
    Nat.not_lt.2 hle (walled'.program h got)
  -- In each place it stays where it is or goes on to the next one.
  cases transit with
  | pump =>
    rcases next.to_pump here with here | ⟨q, moves, here⟩
    · exact ⟨.pump, .pump, here⟩
    · cases moves with
      | answer => exact ⟨_, .ticket, here⟩
      | @send key x busy =>
        have hh : h ∈ o.pumping.handles := ‹o.At tr h .pump›
        rw [busy] at hh
        -- The inbox it is put into is a new handle's and older than the handle itself.
        refine ⟨_, .inbox (Nat.not_lt.1 fun hlt => ?_) (anchored.below key x busy h hh hle), here⟩
        exact Nat.not_lt.2 hle (walled.sending key x busy hlt h hh)
      | spill => exact ⟨_, .falling, here⟩
  | falling =>
    rcases next.to_falling here with habsent | here | here
    · exact absurd habsent there
    · exact ⟨.falling, .falling, here⟩
    · exact ⟨.fallen, .fallen, here⟩
  | fallen =>
    rcases next.to_fallen here with habsent | here
    · exact absurd habsent there
    · exact ⟨.fallen, .fallen, here⟩
  | @ticket id =>
    rcases next.to_ticket known.ticketed known.calls.numbers few here with here | ⟨q, moves, here⟩
    · exact ⟨_, .ticket, here⟩
    · cases moves with
      -- No program gets a new handle, neither from a ticket nor by reading.
      | collect => exact absurd here hprogram
      | forget => exact ⟨_, .falling, here⟩
  | @inbox k new older =>
    have hk : k < o.demux.nextKey := by
      obtain ⟨box, hbox, -⟩ := here
      exact known.sound.key_lt hbox
    rcases next.to_inbox hk here with here | ⟨q, moves, here⟩
    · exact ⟨_, .inbox new older, here⟩
    · cases moves with
      | yield => exact absurd here hprogram
      | discard => exact ⟨_, .falling, here⟩

include anchored walled known next in
/-- New handles stay on their way to be dropped. -/
private theorem Anchored.step (few : o'.desk.makings.length ≤ 2 ^ 64)
    (walled' : Walled n (tr ++ es) o')
    (foreign : es.Foreign) : Anchored n (tr ++ es) o' where
  below _ _ busy _ hh hle := anchored.step_below known next foreign busy hh hle
  holder key box' hbox' hle := by
    cases hbox : o.demux.inboxes[key]? with
    | some box =>
      obtain ⟨h, p, rfl, transit, here⟩ := anchored.holder key box hbox hle
      obtain ⟨q, transit', here'⟩ :=
        anchored.step_transit walled known next few walled' hle (by simp [hbox']) transit here
      exact ⟨h, q, rfl, transit', here'⟩
    | none =>
      -- The handle has just been made, and the pump has it in hand.
      have fills := next.fills key
      rw [hbox, hbox'] at fills
      cases fills with
      | @fresh _ h hkey => exact ⟨h, .pump, hkey, .pump, (next.introduced rfl).2⟩

end

/-- New handles stay on their way to be dropped throughout. -/
theorem Anchored.goes {n : Nat} (anchored : Anchored n tr o) (walled : Walled n tr o)
    (known : Known replyTo tr o) (through : o.desk.Through) (goes : Goes tr o es o')
    (few : o'.desk.makings.length ≤ 2 ^ 64) (calm : es.Calm n) (foreign : es.Foreign) :
    Anchored n (tr ++ es) o' := by
  -- The step needs the walls of the state it starts from, which hold along every run.
  induction goes with
  | refl => rwa [List.append_nil]
  | @step es es' o' o'' goes next ih =>
    have few' := Nat.le_trans next.calls.grows.1 few
    have hleft := List.subset_append_left es es'
    have here := walled.goes known through goes few' (calm.mono hleft)
    have known' := known.goes goes few'
    have walled' := here.step known' (through.run goes.calls) next few
      (calm.mono (List.subset_append_right ..))
    rw [← List.append_assoc]
    exact (ih few' (calm.mono hleft) (foreign.mono hleft)).step here known' next few walled'
      (foreign.mono (List.subset_append_right ..))

/-- No message is being dealt with, no handle is being dropped, and no call is being made. -/
structure Quiet (o : Office) : Prop where
  pumping : o.pumping = .idle
  falling : o.falling = []
  fallen : o.fallen = []
  makings : ∀ (k : Nat) (m : Making), o.desk.makings[k]? = some m → ∃ r, m = .over r

/-- When nothing is on its way any more, the new handles are gone. -/
theorem Anchored.none_left {n : Nat} (anchored : Anchored n tr o) (walled : Walled n tr o)
    (ticketed : o.desk.Ticketed) (few : o.desk.makings.length ≤ 2 ^ 64) (quiet : o.Quiet)
    (key : Nat) (hle : n ≤ key) : o.demux.inboxes[key]? = none := by
  -- A handle could only be in the inbox of an older one, so the oldest is nowhere.
  induction key using Nat.strongRecOn with
  | ind key ih =>
    refine Option.eq_none_iff_forall_not_mem.2 fun box hbox => ?_
    obtain ⟨h, p, rfl, transit, here⟩ := anchored.holder key box hbox hle
    cases transit with
    | pump =>
      have hh : h ∈ o.pumping.handles := here
      rw [quiet.pumping] at hh
      cases hh
    | falling =>
      have hh : h ∈ o.falling := here
      rw [quiet.falling] at hh
      cases hh
    | fallen =>
      have hh : h ∈ o.fallen := here
      rw [quiet.fallen] at hh
      cases hh
    | @ticket id =>
      -- A call without hope has been taken back, and then it has no ticket.
      obtain ⟨k, m, rfl, hm, hopeless⟩ := walled.ticket id h here hle
      obtain ⟨v, ht, -⟩ := here
      obtain ⟨k', m', heq, hm', hfine⟩ := ticketed _ _ ht
      have := Desk.lt_of_getElem? hm
      have := Desk.lt_of_getElem? hm'
      obtain rfl := callAt_inj (by omega) (by omega) heq
      obtain rfl := Option.some.inj (hm.symm.trans hm')
      obtain ⟨r, rfl⟩ := quiet.makings k m hm
      cases hopeless
      exact hfine _ rfl
    | @inbox k new older =>
      obtain ⟨box', hbox', -⟩ := here
      rw [ih k older new] at hbox'
      cases hbox'

end Office

end StreamRpc
