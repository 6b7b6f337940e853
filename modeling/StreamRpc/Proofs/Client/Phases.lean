import StreamRpc.Proofs.Client.Confined
import StreamRpc.Proofs.Client.Farewell

/-! # The phases of a disconnection

A disconnection fails the calls, looks which streams are open, takes these off, and has finished.
What has been made until it looks is *old*.  This module says what holds of calls, of old handles and
of new ones when it has finished, however the operations on the session overlap with it.

* `Office.Ending`                   a disconnection takes all its steps
* `Office.Ending.phases`            it looks which streams are open before it finishes
* `Office.Phases.ended`             what calls come to that somebody waits for
* `Office.Phases.decided`           and what others come to
* `Office.Phases.finishes_handle`   what a handle yields whose stream was open
* `Office.Phases.silent`            an old handle gets nothing any more
* `Office.Phases.walled`            no program gets a new one
* `Office.Phases.shut`              and no stream stays open
-/

namespace StreamRpc

open Demux (Given)
open Client (callAt callAt_inj)

namespace Office

variable {serverQueue replyTo reason : String} {j : Nat} {tr es es₁ es₂ es' : OfficeTrace}
  {asked looked finished o : Office}

/-! ## The steps of a disconnection -/

/-- A disconnection that goes on to take streams off has looked which are open. -/
private theorem Goes.looks (goes : Goes tr asked es o)
    (begins : asked.disconnections[j]? = some { reason }) :
    ∃ stage, o.disconnections[j]? = some { reason, stage } ∧
      (stage.left? ≠ none → ∃ es₁ es₂ looked, es = es₁ ++ es₂ ∧ Goes tr asked es₁ looked ∧
        looked.disconnections[j]? = some { reason, stage := .streams looked.demux.opened.keys } ∧
        Goes (tr ++ es₁) looked es₂ o) := by
  induction goes with
  | refl => exact ⟨.asked, begins, fun h => absurd rfl h⟩
  | @step es es' o o' goes next ih =>
    obtain ⟨stage, hstage, hsplit⟩ := ih
    -- If it had looked before this step, the step comes after that.
    have hafter : stage.left? ≠ none → ∃ es₁ es₂ looked, es ++ es' = es₁ ++ es₂ ∧
        Goes tr asked es₁ looked ∧
        looked.disconnections[j]? = some { reason, stage := .streams looked.demux.opened.keys } ∧
        Goes (tr ++ es₁) looked es₂ o' := fun h => by
      obtain ⟨es₁, es₂, looked, rfl, before, looks, after⟩ := hsplit h
      refine ⟨es₁, es₂ ++ es', looked, List.append_assoc .., before, looks, after.step ?_⟩
      rwa [List.append_assoc]
    have hset : ∀ x, (o.disconnections.set j x)[j]? = some x := fun x =>
      List.getElem?_set_self (List.getElem?_eq_some_iff.1 hstage).1
    rcases next.stays hstage with hsame | step
    · exact ⟨stage, hsame, hafter⟩
    · cases step with
      | close ready =>
        obtain ⟨rfl, -⟩ := Disconnection.mk.injEq .. ▸ Option.some.inj (hstage.symm.trans ready)
        exact ⟨_, hset _, fun h => absurd rfl h⟩
      | look ready =>
        -- It looks in this step.
        obtain ⟨rfl, -⟩ := Disconnection.mk.injEq .. ▸ Option.some.inj (hstage.symm.trans ready)
        exact ⟨_, hset _, fun _ =>
          ⟨es ++ [], [], _, (List.append_nil _).symm, goes.step next, hset _, .refl⟩⟩
      | strike ready | skip ready | tell ready | miss ready | finish ready =>
        obtain ⟨rfl, rfl⟩ := Disconnection.mk.injEq .. ▸ Option.some.inj (hstage.symm.trans ready)
        exact ⟨_, hset _, fun _ => hafter nofun⟩

/-- All streams that are open are on the list of a disconnection that has just looked. -/
private theorem striking_of_looks
    (looks : looked.disconnections[j]? = some { reason, stage := .streams looked.demux.opened.keys })
    (n : Nat) : Striking n j looked := by
  refine ⟨_, _, looks, rfl, fun id key ho _ => Std.ExtTreeMap.mem_keys.2 ?_⟩
  rw [Std.ExtTreeMap.mem_iff_contains, Std.ExtTreeMap.contains_eq_isSome_getElem?, ho]
  rfl

/-- No stream for an old handle is ever missed. -/
private theorem Striking.goes {n : Nat} (striking : Striking n j asked) (goes : Goes tr asked es o)
    (old : n ≤ asked.demux.nextKey) : Striking n j o := by
  induction goes with
  | refl => exact striking
  | step goes next ih => exact ih.step next (Nat.le_trans old goes.nextKey_le)

/-- A disconnection that has finished takes no more steps. -/
private theorem Goes.stays_finished (goes : Goes tr finished es o)
    (finishes : finished.disconnections[j]? = some { reason, stage := .finished }) :
    o.disconnections[j]? = some { reason, stage := .finished } := by
  induction goes with
  | refl => exact finishes
  | step _ next ih => exact next.stays_finished ih

/-- When a disconnection has finished no stream is open for an old handle. -/
private theorem Striking.shut {n : Nat} (striking : Striking n j o)
    (finishes : o.disconnections[j]? = some { reason, stage := .finished }) {id : StreamId}
    {key : Nat} (ho : o.demux.opened[id]? = some key) : n ≤ key := by
  obtain ⟨x, left, hx, hleft, hlisted⟩ := striking
  obtain rfl := Option.some.inj (finishes.symm.trans hx)
  obtain rfl := Option.some.inj hleft
  exact Nat.not_lt.1 fun hlt => by cases hlisted id key ho hlt

/-- When a disconnection has finished nothing is passed on to an old handle. -/
private theorem Goes.routed {n : Nat} (goes : Goes tr finished es o)
    (striking : Striking n j finished)
    (old : n ≤ finished.demux.nextKey)
    (finishes : finished.disconnections[j]? = some { reason, stage := .finished }) {id : StreamId}
    {x : Notification ClientValue} {key : Nat} (told : .routed id x (some key) ∈ es) : n ≤ key := by
  induction goes with
  | refl => cases told
  | step goes next ih =>
    -- When it is routed, every stream that is open has a handle made since the listing.
    rcases List.mem_append.1 told with told | told
    · exact ih told
    · exact (striking.goes goes old).shut (goes.stays_finished finishes) (next.routed told)

/-- An old handle yields what was left for it, if nothing is on its way to it any more. -/
private theorem Silent.goes {key : Nat} (goes : Goes tr finished es o)
    (old : key < finished.demux.nextKey)
    (unfed : finished.demux.Unfed key) (still : ∀ n, ¬finished.Brings key n) :
    Silent key ((finished.demux.inboxes[key]?.getD {}).unread) es o := by
  induction goes with
  | refl =>
    refine ⟨unfed, still, List.nil_prefix, fun box hbox => ?_⟩
    rw [hbox]
    rfl
  | step goes next ih => exact ih.step next (Nat.lt_of_lt_of_le old goes.nextKey_le)

/-! ## What holds when it has finished -/

/-- All that a handle yields: it has yielded a part of it, and as long as somebody has the handle,
    it yields the rest when it is read, and then comes to its end. -/
structure Finishes (h : Handle) (all : List (Notification ClientValue)) (es : OfficeTrace)
    (o : Office) : Prop where
  yields : es.yields h.key <+: all
  rest : o.demux.held h = true → ∀ m, o.demux.unreadCount h + 2 ≤ m →
    es.yields h.key ++ (o.demux.readUpTo h m).1 = all ∧ (o.demux.readUpTo h m).2.1 = true

/-- A disconnection takes all its steps, while other operations take theirs. -/
structure Ending (serverQueue replyTo reason : String) (j : Nat) (tr es : OfficeTrace)
    (asked finished : Office) : Prop where
  run : Run serverQueue replyTo tr asked
  /-- It was asked whether the session had ended before, and it had not. -/
  begins : asked.disconnections[j]? = some { reason }
  goes : Goes tr asked es finished
  finishes : finished.disconnections[j]? = some { reason, stage := .finished }

/-- The same in two phases: until it looks which streams are open, and from then on. -/
structure Phases (serverQueue replyTo reason : String) (j : Nat) (tr es₁ es₂ : OfficeTrace)
    (asked looked finished : Office) : Prop where
  run : Run serverQueue replyTo tr asked
  begins : asked.disconnections[j]? = some { reason }
  sweeps : Goes tr asked es₁ looked
  looks : looked.disconnections[j]? = some { reason, stage := .streams looked.demux.opened.keys }
  strikes : Goes (tr ++ es₁) looked es₂ finished
  finishes : finished.disconnections[j]? = some { reason, stage := .finished }

/-- Every ending has these phases. -/
theorem Ending.phases (ending : Ending serverQueue replyTo reason j tr es asked finished) :
    ∃ es₁ es₂ looked, es = es₁ ++ es₂ ∧
      Phases serverQueue replyTo reason j tr es₁ es₂ asked looked finished := by
  obtain ⟨run, begins, goes, finishes⟩ := ending
  obtain ⟨stage, hstage, hsplit⟩ := goes.looks begins
  obtain rfl : stage = .finished := by
    obtain ⟨-, heq⟩ := Disconnection.mk.injEq .. ▸ Option.some.inj (hstage.symm.trans finishes)
    exact heq
  obtain ⟨es₁, es₂, looked, heq, sweeps, looks, strikes⟩ := hsplit nofun
  exact ⟨es₁, es₂, looked, heq, { run, begins, sweeps, looks, strikes, finishes }⟩

section

variable (phases : Phases serverQueue replyTo reason j tr es₁ es₂ asked looked finished)
  (after : Goes (tr ++ es₁ ++ es₂) finished es' o) (few : o.desk.makings.length ≤ 2 ^ 64)

include phases

/-- What is known when it is asked whether the session has ended. -/
private theorem Phases.known_asked (few : asked.desk.makings.length ≤ 2 ^ 64) :
    Known replyTo tr asked :=
  phases.run.known few

/-- What is known when it is looked which streams are open. -/
private theorem Phases.known_looked (few : looked.desk.makings.length ≤ 2 ^ 64) :
    Known replyTo (tr ++ es₁) looked :=
  (phases.known_asked (Nat.le_trans phases.sweeps.calls.grows.1 few)).goes phases.sweeps few

/-- What is known when the disconnection has finished. -/
private theorem Phases.known_finished (few : finished.desk.makings.length ≤ 2 ^ 64) :
    Known replyTo (tr ++ es₁ ++ es₂) finished :=
  (phases.known_looked (Nat.le_trans phases.strikes.calls.grows.1 few)).goes phases.strikes few

/-- The calls have been failed when it is looked which streams are open. -/
private theorem Phases.through : looked.desk.Through :=
  (phases.run.leaving.goes phases.sweeps).through j _ _ phases.looks rfl

/-- No stream for an old handle is missed. -/
private theorem Phases.striking : Striking looked.demux.nextKey j finished :=
  (striking_of_looks phases.looks _).goes phases.strikes (Nat.le_refl _)

include after few

/-- A call that somebody waits for when the disconnection begins is ended before it looks which
    streams are open, and comes to what has ended it. -/
theorem Phases.ended {id : CallId} (given : .call (.given id) ∈ tr)
    (waits : (asked.desk.correlator.collect id).1 = .pending) :
    ∃ how later, es₁.calls.attempts id = (how, true) :: later ∧
      (∀ e, how = .failure e → o.Causes e) ∧
      o.desk.correlator.Fate id (OfficeTrace.calls (es₁ ++ es₂ ++ es')) := by
  have fewF := Nat.le_trans after.calls.grows.1 few
  have fewL := Nat.le_trans phases.strikes.calls.grows.1 fewF
  have known := phases.known_asked (Nat.le_trans phases.sweeps.calls.grows.1 fewL)
  have here := (phases.known_finished fewF).leaving.goes after
  obtain ⟨k, rfl, handed⟩ := known.calls.given id (OfficeTrace.mem_calls.2 given)
  obtain ⟨⟨how, later, first⟩, fate⟩ :=
    known.calls.ended phases.sweeps.calls fewL phases.through handed waits
  refine ⟨how, later, first, fun e he => ?_, ?_⟩
  · -- A call is failed by a disconnection.
    have hmem : (how, true) ∈ es₁.calls.attempts (callAt k) := first ▸ List.mem_cons_self
    have hmem := OfficeTrace.mem_calls.1 (CallTrace.mem_attempts.1 hmem)
    refine here.failures (callAt k) e true ?_
    exact he ▸ List.mem_append_left _ (List.mem_append_left _ (List.mem_append_right _ hmem))
  · rw [List.append_assoc, OfficeTrace.calls_append, OfficeTrace.calls_append]
    exact fate _ _ (phases.strikes.calls.trans after.calls) few

/-- A call whose ticket was handed out comes to what was decided when it was looked which streams
    are open. -/
theorem Phases.decided {id : CallId} (given : .call (.given id) ∈ tr ++ es₁ ++ es₂ ++ es') :
    ∃ how, .call (.attempted id how true) ∈ tr ++ es₁ ∧
      (∀ r, .call (.collected id r) ∈ es₂ ++ es' → r = how.outcome) ∧
      (o.desk.correlator.collect id).1 ≠ .pending := by
  have fewF := Nat.le_trans after.calls.grows.1 few
  have known := phases.known_looked (Nat.le_trans phases.strikes.calls.grows.1 fewF)
  have here := (phases.known_finished fewF).goes after few
  obtain ⟨k, rfl, handed⟩ := here.calls.given id (OfficeTrace.mem_calls.2 given)
  -- The correlator has been through with its calls before the streams are looked at.
  obtain ⟨how, attempted, collected, done⟩ := known.calls.decided phases.through
    (phases.strikes.calls.trans after.calls) few handed
  refine ⟨how, OfficeTrace.mem_calls.1 attempted, fun r hr => collected r ?_, done⟩
  rw [← OfficeTrace.calls_append]
  exact OfficeTrace.mem_calls.2 hr

/-- No program gets a handle that was made after it was looked which streams are open. -/
theorem Phases.walled (calm : es₂.Calm looked.demux.nextKey) :
    Walled looked.demux.nextKey (tr ++ es₁ ++ es₂ ++ es') o := by
  have fewF := Nat.le_trans after.calls.grows.1 few
  have known := phases.known_looked (Nat.le_trans phases.strikes.calls.grows.1 fewF)
  have walled := known.sound.walled.goes known phases.through phases.strikes fewF calm
  -- Later on nothing is passed on to an old handle at all.
  refine walled.goes (phases.known_finished fewF) (phases.through.run phases.strikes.calls) after few
    fun id x key told hlt => ?_
  exact absurd hlt (Nat.not_lt.2
    (after.routed phases.striking phases.strikes.nextKey_le phases.finishes told))

/-- No stream is open when nothing is on its way. -/
theorem Phases.shut (calm : es₂.Calm looked.demux.nextKey)
    (foreign : OfficeTrace.Foreign (es₂ ++ es'))
    (quiet : o.Quiet) (id : StreamId) : o.demux.isOpen id = false := by
  have fewF := Nat.le_trans after.calls.grows.1 few
  have known := phases.known_looked (Nat.le_trans phases.strikes.calls.grows.1 fewF)
  have here := (phases.known_finished fewF).goes after few
  have walled := known.sound.walled.goes known phases.through phases.strikes fewF calm
  have anchored := known.sound.anchored.goes known.sound.walled known phases.through phases.strikes
    fewF calm (foreign.mono (List.subset_append_left ..))
  have calm' : OfficeTrace.Calm looked.demux.nextKey es' := fun id x key told hlt =>
    absurd hlt (Nat.not_lt.2
      (after.routed phases.striking phases.strikes.nextKey_le phases.finishes told))
  have anchored' := anchored.goes walled (phases.known_finished fewF)
    (phases.through.run phases.strikes.calls) after few calm'
    (foreign.mono (List.subset_append_right ..))
  refine Bool.eq_false_iff.2 fun hopen => ?_
  obtain ⟨key, ho⟩ := (Demux.isOpen_iff ..).1 hopen
  obtain ⟨box, hbox⟩ := here.sound.fit.inbox id key ho
  -- The stream would be open for an old handle, or for a new one that is gone.
  have hle := (phases.striking.goes after phases.strikes.nextKey_le).shut
    (after.stays_finished phases.finishes) ho
  rw [anchored'.none_left (phases.walled after few calm) here.ticketed few quiet key hle] at hbox
  cases hbox

end

/-- What a handle yields whose stream was open when a disconnection began. -/
theorem Phases.finishes_handle
    (phases : Phases serverQueue replyTo reason j tr es₁ es₂ asked looked finished) {h : Handle}
    (fed : asked.demux.fed h = true) :
    (∃ x ∈ es₁ ++ es₂, x.Closes h ∧ x ≠ .struck j h.id) ∨
      ∃ pre, asked.demux.unreadOf h <+: pre ∧ (∀ n ∈ pre, n.terminal = false) ∧
        ∀ {es' o}, Goes (tr ++ es₁ ++ es₂) finished es' o →
          Finishes h (pre ++ [.error (Disconnection.failure reason)]) (es₁ ++ es₂ ++ es') o := by
  have sound := phases.run.sound
  have opened : asked.demux.opened[h.id]? = some h.key := by simpa [Demux.fed] using fed
  have given : Given tr.made h := sound.fit.opened h.id h.key opened
  have hlt : h.key < asked.demux.nextKey := sound.fit.key_lt opened
  have goes := phases.sweeps.trans phases.strikes
  have fares := (fares_of_opened opened ⟨_, phases.begins⟩).goes sound given goes
  -- Both sweeps take part: the stream may have gone in either of them.
  rcases fares.farewell (Nat.lt_of_lt_of_le hlt phases.sweeps.nextKey_le) phases.striking
    phases.finishes with closed | ⟨pre, begun, plain, told⟩
  · exact .inl closed
  · refine .inr ⟨pre, begun, plain, fun after => ?_⟩
    obtain ⟨hyields, hrest⟩ := (told.goes after (Nat.lt_of_lt_of_le hlt goes.nextKey_le) plain
      rfl).reads plain rfl
    exact ⟨hyields, hrest⟩

/-- An old handle gets nothing any more when the disconnection has finished. -/
theorem Phases.silent
    (phases : Phases serverQueue replyTo reason j tr es₁ es₂ asked looked finished)
    (after : Goes (tr ++ es₁ ++ es₂) finished es' o) {h : Handle}
    (given : Given (OfficeTrace.made (tr ++ es₁)) h) :
    (∀ id x, .routed id x (some h.key) ∉ es') ∧
      ((∀ n, ¬finished.Brings h.key n) → es'.yields h.key <+: finished.demux.unreadOf h ∧
        (o.demux.held h = true →
          es'.yields h.key ++ o.demux.unreadOf h = finished.demux.unreadOf h)) := by
  have hlt : h.key < looked.demux.nextKey := by
    rw [(phases.run.sound.goes phases.sweeps).fit.count]
    exact (List.getElem?_eq_some_iff.1 given).1
  have hle := phases.strikes.nextKey_le
  refine ⟨fun id x told => ?_, fun still => ?_⟩
  -- Nothing is routed to an old handle, since no stream that feeds one is open any more.
  · exact absurd hlt (Nat.not_lt.2 (after.routed phases.striking hle phases.finishes told))
  -- Its inbox takes in nothing, so it only gets shorter.
  · have silent := Silent.goes after (Nat.lt_of_lt_of_le hlt hle)
      (fun id ho => absurd hlt (Nat.not_lt.2 (phases.striking.shut phases.finishes ho))) still
    refine ⟨silent.yields, fun held => ?_⟩
    obtain ⟨box, hbox⟩ := (o.demux.held_iff h).1 held
    rw [Demux.unreadOf, hbox]
    exact silent.unread box hbox

end Office

end StreamRpc
