import StreamRpc.Proofs.Client.Upkeep

/-! # What comes too late

A disconnection looks which streams are open and takes these off one by one, while the other
operations go on.  The handles that have been made until it looks are the *old* ones.  When it has
finished no stream is open for an old handle, and nothing can be on its way to one for long.  Streams
that are introduced later are released again, unless the handle for one gets into an inbox that a
program reads.

* `Office.Leaving`   what holds of disconnections throughout
* `Office.Striking`  no stream is missed that was open for an old handle
* `Office.Silent`    an old handle gets nothing any more
-/

namespace StreamRpc

namespace Office

variable {serverQueue replyTo : String} {tr es : OfficeTrace} {o o' : Office}

/-! ## Disconnections -/

/-- This is what calls come to that are failed by a disconnection. -/
def Causes (o : Office) (e : CallError) : Prop :=
  ∃ x ∈ o.disconnections, e = .connectionLost x.reason

/-- A disconnection keeps its reason. -/
private theorem Step.causes (next : Step tr o es o') {e : CallError} (h : o.Causes e) :
    o'.Causes e := by
  obtain ⟨x, hx, rfl⟩ := h
  obtain ⟨i, hi⟩ := List.getElem?_of_mem hx
  -- The reason of a disconnection stays as it goes on.
  rcases next.stays hi with hsame | next
  · exact ⟨x, List.mem_of_getElem? hsame, rfl⟩
  · obtain ⟨reason, stage, stage', ready, heq⟩ := next.disconnections
    obtain rfl := Option.some.inj (hi.symm.trans ready)
    refine ⟨{ reason, stage := stage' }, ?_, rfl⟩
    rw [heq]
    exact List.mem_of_getElem? (List.getElem?_set_self (List.getElem?_eq_some_iff.1 hi).1)

/-- What holds of disconnections, whatever operations are going on. -/
structure Leaving (tr : OfficeTrace) (o : Office) : Prop where
  closed : ∀ (i : Nat) (x : Disconnection), o.disconnections[i]? = some x →
    x.stage ≠ .asked → o.desk.correlator.closed = true
  through : ∀ (i : Nat) (x : Disconnection) (left : List StreamId),
    o.disconnections[i]? = some x → x.stage.left? = some left → o.desk.Through
  sweeps : ∀ s ∈ o.desk.sweeps, o.Causes s.error
  failures : ∀ id e found, .call (.attempted id (.failure e) found) ∈ tr → o.Causes e

/-- In an office that has just opened nobody is leaving. -/
theorem leaving_opened (serverQueue replyTo : String) :
    Leaving [] (opened serverQueue replyTo) where
  closed i x h := by simp [opened] at h
  through i x left h := by simp [opened] at h
  sweeps s hs := by simp [opened, Desk.opened] at hs
  failures id e found h := by cases h

/-- A step keeps what holds of disconnections. -/
private theorem Leaving.step (leaving : Leaving tr o) (next : Step tr o es o') :
    Leaving (tr ++ es) o' where
  closed i x h hstage := by
    rcases next.disconnection h with hold | ⟨hasked, -⟩ | step
    · exact next.calls.closed (leaving.closed i x hold hstage)
    · exact absurd hasked hstage
    · cases step with
      | close => rfl
      | look ready => exact leaving.closed i _ ready nofun
      | strike ready => exact leaving.closed i _ ready nofun
      | skip ready => exact leaving.closed i _ ready nofun
      | tell ready => exact leaving.closed i _ ready nofun
      | miss ready => exact leaving.closed i _ ready nofun
      | finish ready => exact leaving.closed i _ ready nofun
  through i x left h hleft := by
    have hkept := fun x left hx hleft => (leaving.through i x left hx hleft).run next.calls
    rcases next.disconnection h with hold | ⟨hasked, -⟩ | step
    · exact hkept x left hold hleft
    · rw [hasked] at hleft
      cases hleft
    · cases step with
      | close ready =>
        -- It has not looked yet.
        rw [← Option.some.inj ((List.getElem?_set_self
          (List.getElem?_eq_some_iff.1 ready).1).symm.trans h)] at hleft
        cases hleft
      -- Looking at the streams is possible only once the sweep of the calls is through.
      | look ready through => exact ⟨_, List.mem_of_getElem? through, rfl⟩
      | strike ready => exact hkept _ _ ready rfl
      | skip ready => exact hkept _ _ ready rfl
      | tell ready => exact hkept _ _ ready rfl
      | miss ready => exact hkept _ _ ready rfl
      | finish ready => exact hkept _ _ ready rfl
  sweeps s hs := by
    have hkept := fun s hs => next.causes (leaving.sweeps s hs)
    cases next with
    | pump next => cases next <;> exact hkept s hs
    | use next =>
      cases next with
      | call step same =>
        obtain ⟨s₀, hs₀, heq⟩ := step.sweep_error same hs
        exact heq ▸ hkept s₀ hs₀
      | _ => exact hkept s hs
    | leave => exact hkept s hs
    | disconnect next =>
      cases next with
      | close ready =>
        rcases List.mem_append.1 hs with hs | hs
        · exact hkept s hs
        · rw [List.mem_singleton.1 hs]
          exact ⟨_, List.mem_of_getElem?
            (List.getElem?_set_self (List.getElem?_eq_some_iff.1 ready).1), rfl⟩
      | _ => exact hkept s hs
  failures id e found h := by
    rcases List.mem_append.1 h with h | h
    · exact next.causes (leaving.failures id e found h)
    · refine next.causes ?_
      cases next with
      | pump next => cases next <;> simp at h
      | use next =>
        cases next with
        | call step =>
          have h' := OfficeTrace.mem_calls.2 h
          rw [OfficeTrace.calls_map_call] at h'
          -- A call is failed by a sweep, and each sweep belongs to a disconnection.
          obtain ⟨s, hs, heq⟩ := step.failed h'
          exact heq ▸ leaving.sweeps s hs
        | _ => simp at h
      | leave => cases h
      | disconnect next => cases next <;> simp at h

/-- Any steps keep what holds of disconnections. -/
theorem Leaving.goes (leaving : Leaving tr o) (goes : Goes tr o es o') : Leaving (tr ++ es) o' := by
  induction goes with
  | refl => rwa [List.append_nil]
  | step _ next ih =>
    rw [← List.append_assoc]
    exact ih.step next

/-- In every run what holds of disconnections does. -/
theorem Run.leaving (run : Run serverQueue replyTo tr o) : Leaving tr o := by
  have leaving := (leaving_opened serverQueue replyTo).goes run
  rwa [List.nil_append] at leaving

/-- No disconnection begins when the session is closed. -/
private theorem Step.length_disconnections (next : Step tr o es o')
    (closed : o.desk.correlator.closed = true) :
    o'.disconnections.length = o.disconnections.length := by
  cases next with
  | pump next => rw [next.disconnections]
  | use next => rw [next.disconnections]
  -- No disconnection begins once the session is closed.
  | leave going =>
    rw [closed] at going
    cases going
  | disconnect next =>
    obtain ⟨_, _, _, -, heq⟩ := next.disconnections
    rw [heq, List.length_set]

/-- Once the correlator is closed no further disconnect begins. -/
theorem Goes.length_disconnections (goes : Goes tr o es o')
    (closed : o.desk.correlator.closed = true) :
    o'.disconnections.length = o.disconnections.length := by
  induction goes with
  | refl => rfl
  | step goes next ih => exact (next.length_disconnections (goes.calls.closed closed)).trans ih

/-- Only the pump changes what it is doing and makes handles. -/
theorem Step.pumping_nextKey (next : Step tr o es o') :
    (o'.pumping = o.pumping ∧ o'.demux.nextKey = o.demux.nextKey) ∨ o.Pumps es o' := by
  -- Only the pump makes handles, and nothing else moves the pump.
  cases next with
  | pump next => exact .inr next
  | use next =>
    refine .inl ⟨next.pumping, ?_⟩
    cases next with
    | read _ reads => cases reads <;> rfl
    | @release h =>
      show (o.demux.release h.id).nextKey = _
      unfold Demux.release
      split <;> rfl
    | _ => rfl
  | leave => exact .inl ⟨rfl, rfl⟩
  | disconnect next =>
    refine .inl ⟨next.pumping, ?_⟩
    cases next <;> rfl

/-- Handles are numbered upwards. -/
theorem Step.nextKey_le (next : Step tr o es o') : o.demux.nextKey ≤ o'.demux.nextKey := by
  rcases next.pumping_nextKey with ⟨-, heq⟩ | next
  · exact Nat.le_of_eq heq.symm
  · cases next with
    | attach => exact Nat.le_succ _
    | _ => exact Nat.le_refl _

/-- No steps take a key back. -/
theorem Goes.nextKey_le (goes : Goes tr o es o') : o.demux.nextKey ≤ o'.demux.nextKey := by
  induction goes with
  | refl => exact Nat.le_refl _
  | step _ next ih => exact Nat.le_trans ih next.nextKey_le

/-! ## Streams that were open for old handles -/

/-- A disconnection has looked which streams are open, and is still to take off all of them that
    are open for one of the first `n` handles. -/
def Striking (n j : Nat) (o : Office) : Prop :=
  ∃ x left, o.disconnections[j]? = some x ∧ x.stage.left? = some left ∧
    ∀ (id : StreamId) (key : Nat), o.demux.opened[id]? = some key → key < n → id ∈ left

/-- A step keeps a disconnection at taking off what it has seen open. -/
theorem Striking.step {n j : Nat} (striking : Striking n j o) (next : Step tr o es o')
    (old : n ≤ o.demux.nextKey) : Striking n j o' := by
  obtain ⟨x, left, hx, hleft, hlisted⟩ := striking
  have hopened : ∀ {id : StreamId} {key : Nat}, o'.demux.opened[id]? = some key → key < n →
      o.demux.opened[id]? = some key := fun ho hlt =>
    (next.opened ho).resolve_right fun ⟨hkey, _⟩ => by omega
  rcases next.stays hx with hsame | step
  · exact ⟨x, left, hsame, hleft, fun id key ho hlt => hlisted id key (hopened ho hlt) hlt⟩
  · -- It is this disconnection that goes on.
    have hset : ∀ x', (o.disconnections.set j x')[j]? = some x' := fun x' =>
      List.getElem?_set_self (List.getElem?_eq_some_iff.1 hx).1
    cases step with
    | close ready | look ready =>
      obtain rfl := Option.some.inj (hx.symm.trans ready)
      cases hleft
    | @strike _ _ id' _ ready =>
      obtain rfl := Option.some.inj (hx.symm.trans ready)
      obtain rfl := Option.some.inj hleft
      refine ⟨_, _, hset _, rfl, fun id key ho hlt => ?_⟩
      obtain ⟨hopen, hne⟩ := Demux.opened_of_erase ho
      exact (List.mem_erase_of_ne hne).2 (hlisted id key hopen hlt)
    -- A listed stream that has been closed otherwise is passed over.
    | @skip _ _ id' ready _ absent =>
      obtain rfl := Option.some.inj (hx.symm.trans ready)
      obtain rfl := Option.some.inj hleft
      refine ⟨_, _, hset _, rfl, fun id key ho hlt => ?_⟩
      refine (List.mem_erase_of_ne ?_).2 (hlisted id key ho hlt)
      rintro rfl
      rw [hopened ho hlt] at absent
      cases absent
    -- Telling a handle, missing it and finishing take nothing off the list.
    | tell ready | miss ready | finish ready =>
      obtain rfl := Option.some.inj (hx.symm.trans ready)
      obtain rfl := Option.some.inj hleft
      exact ⟨_, _, hset _, rfl, hlisted⟩

/-- A disconnection that has finished stays so. -/
theorem Step.stays_finished (next : Step tr o es o') {j : Nat} {reason : String}
    (h : o.disconnections[j]? = some { reason, stage := .finished }) :
    o'.disconnections[j]? = some { reason, stage := .finished } := by
  rcases next.stays h with hsame | step
  · exact hsame
  · cases step with
    | close ready | look ready | strike ready | skip ready | tell ready | miss ready | finish ready =>
      cases Option.some.inj (h.symm.trans ready)

/-- Nothing is told of a stream but to the handle that it is open for. -/
theorem Step.routed (next : Step tr o es o') {id : StreamId} {n : Notification ClientValue}
    {key : Nat} (told : .routed id n (some key) ∈ es) : o.demux.opened[id]? = some key := by
  cases next with
  | pump next =>
    cases next with
    -- Only the pump tells of a route, and it has looked the stream up just then.
    | route _ _ _ found =>
      obtain ⟨rfl, -, hkey⟩ := OfficeEvent.routed.injEq .. ▸ List.mem_singleton.1 told
      exact hkey ▸ found
    | _ => simp at told
  | use next =>
    cases next with
    | call => simp at told
    | @read _ r => cases hn : Demux.Reading.notification? r <;> rw [hn] at told <;> simp at told
    | _ => simp at told
  | leave => cases told
  | disconnect next => cases next <;> simp at told

/-! ## Old handles -/

/-- What is on its way to a handle was so before, or a stream was open for the handle. -/
private theorem Step.brings (next : Step tr o es o') {key : Nat} {n : Notification ClientValue}
    (comes : o'.Brings key n) :
    o.Brings key n ∨ ∃ id : StreamId, o.demux.opened[id]? = some key := by
  -- Whatever is on its way to an inbox was found through an open stream.
  cases comes with
  | sending busy =>
    rcases next.pumping with hsame | step
    · exact .inl (.sending (hsame ▸ busy))
    · cases step with
      | route _ _ _ found =>
        obtain ⟨rfl, -⟩ := Pumping.sending.injEq .. ▸ busy
        exact .inr ⟨_, found⟩
      | _ => cases busy
  | telling busy =>
    rcases next.disconnection busy with hold | ⟨hasked, -⟩ | step
    · exact .inl (.telling hold)
    · cases hasked
    · obtain ⟨id, _, -, found, -⟩ := step.telling busy
      exact .inr ⟨id, found⟩

/-- A handle gets nothing any more: it yields what was left for it, and nothing else. -/
structure Silent (key : Nat) (left : List (Notification ClientValue)) (es : OfficeTrace)
    (o : Office) : Prop where
  unfed : o.demux.Unfed key
  still : ∀ n, ¬o.Brings key n
  yields : es.yields key <+: left
  unread : ∀ box, o.demux.inboxes[key]? = some box → es.yields key ++ box.unread = left

/-- A step tells a handle that is silent nothing but what was left for it. -/
theorem Silent.step {key : Nat} {left : List (Notification ClientValue)} {es es' : OfficeTrace}
    (silent : Silent key left es o) (next : Step tr o es' o') (old : key < o.demux.nextKey) :
    Silent key left (es ++ es') o' := by
  have fills := next.fills key
  have unfed := next.unfed old silent.unfed
  have still : ∀ n, ¬o'.Brings key n := by
    intro n comes
    rcases next.brings comes with hold | ⟨id, ho⟩
    · exact silent.still n hold
    · exact silent.unfed id ho
  -- What it has yielded and what it has not read are together what was left.
  suffices OfficeTrace.yields (es ++ es') key <+: left ∧
      ∀ box, o'.demux.inboxes[key]? = some box → OfficeTrace.yields (es ++ es') key ++ box.unread = left
    from ⟨unfed, still, this.1, this.2⟩
  rw [OfficeTrace.yields_append]
  generalize hb : o.demux.inboxes[key]? = box? at fills
  generalize o'.demux.inboxes[key]? = box?' at fills
  cases fills with
  | rest hsilent =>
    rw [hsilent, List.append_nil]
    exact ⟨silent.yields, fun box hbox => silent.unread box (hb.trans hbox)⟩
  | fresh _ new => omega
  | sent comes => exact absurd comes.brings (silent.still _)
  -- What is yielded was the first of the unread, so the two together stay the same.
  | @yielded h box n unread hkey _ _ waiting =>
    have hyield : OfficeTrace.yields [.yielded h n] key = [n] := by
      simp [OfficeTrace.yields, OfficeEvent.yield?, hkey]
    have hleft := silent.unread box hb
    rw [waiting] at hleft
    rw [hyield]
    refine ⟨⟨unread, by simpa using hleft⟩, fun box' hbox' => ?_⟩
    rw [← Option.some.inj hbox']
    simpa using hleft
  | @ended _ box _ _ _ empty =>
    have hleft := silent.unread box hb
    rw [empty] at hleft
    have hnone : OfficeTrace.yields [] key = [] := rfl
    rw [hnone, List.append_nil]
    refine ⟨silent.yields, fun box' hbox' => ?_⟩
    rw [← Option.some.inj hbox']
    exact hleft
  | gone =>
    have hnone : OfficeTrace.yields [] key = [] := rfl
    rw [hnone, List.append_nil]
    exact ⟨silent.yields, fun _ hbox => by cases hbox⟩

end Office

end StreamRpc
