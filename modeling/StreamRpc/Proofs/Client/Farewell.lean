import StreamRpc.Proofs.Client.Late

/-! # What a handle is told at the end

A handle is followed whose stream is open when its session is about to end.  Until the disconnection
takes the stream off, the handle may get more to read and yield some of it.  Then the failure is on
its way, and arrives after all that is there.  What arrives after the failure is never read, as a
handle that yields the failure has come to its end.  All this unless the stream is closed in another
way in the meantime.

* `Office.Told`         a handle has been told that its stream is over
* `Office.Told.reads`   and what it yields then
* `Office.Fares`        what becomes of a handle while a session ends
* `Office.Fares.farewell`  and what has become of it when the session has ended
-/

namespace StreamRpc

open Demux (Given)

namespace Demux

/-- Reading a handle that has come to its end. -/
private theorem readUpTo_of_done {d : Demux} {h : Handle} {box : Inbox}
    (found : d.inboxes[h.key]? = some box) (done : box.done = true) (n : Nat) :
    d.readUpTo h (n + 1) = ([], true, d) := by
  simp [readUpTo, read, found, done]

/-- Reading a handle that has not yet come to its end. -/
private theorem readUpTo_of_unread {d : Demux} {h : Handle} {box : Inbox}
    {x : Notification ClientValue}
    {xs : List (Notification ClientValue)} (found : d.inboxes[h.key]? = some box)
    (going : box.done = false) (unread : box.unread = x :: xs) (n : Nat) :
    ∃ d' : Demux, d'.inboxes[h.key]? = some { unread := xs, done := x.terminal } ∧
      d.readUpTo h (n + 1) = (x :: (d'.readUpTo h n).1, (d'.readUpTo h n).2) := by
  refine ⟨{ d with inboxes := d.inboxes.insert h.key { unread := xs, done := x.terminal } },
    Std.ExtTreeMap.getElem?_insert_self, ?_⟩
  simp [readUpTo, read, found, going, unread]

/-- A handle that is read often enough yields what it has not read, up to the end of its stream, and
    then comes to an end.  Whatever has arrived after the end is not read. -/
private theorem readUpTo_end {d : Demux} {h : Handle} {box : Inbox}
    {last : Notification ClientValue}
    (xs rest : List (Notification ClientValue)) (found : d.inboxes[h.key]? = some box)
    (going : box.done = false) (unread : box.unread = xs ++ last :: rest)
    (plain : ∀ n ∈ xs, n.terminal = false) (terminal : last.terminal = true) {n : Nat}
    (enough : xs.length + 2 ≤ n) :
    (d.readUpTo h n).1 = xs ++ [last] ∧ (d.readUpTo h n).2.1 = true := by
  induction xs generalizing d box n with
  | nil =>
    obtain ⟨m, rfl⟩ : ∃ m, n = m + 1 + 1 := ⟨n - 2, by simp at enough; omega⟩
    obtain ⟨d', hbox, heq⟩ := readUpTo_of_unread found going unread (m + 1)
    rw [heq, readUpTo_of_done hbox terminal]
    exact ⟨rfl, rfl⟩
  | cons x xs ih =>
    obtain ⟨m, rfl⟩ : ∃ m, n = m + 1 := ⟨n - 1, by omega⟩
    obtain ⟨d', hbox, heq⟩ := readUpTo_of_unread found going unread m
    rw [List.length_cons] at enough
    -- What it yields next is not the end, so it goes on.
    obtain ⟨h1, h2⟩ := ih hbox (plain x List.mem_cons_self) rfl
      (fun n hn => plain n (List.mem_cons_of_mem x hn)) (n := m) (by omega)
    rw [heq, h1]
    exact ⟨rfl, h2⟩

end Demux

namespace Office

variable {tr es es' : OfficeTrace} {o o' : Office} {key : Nat}

/-- Something that ends the stream of a handle has arrived after `pre`, since so much was told. -/
inductive Told (pre : List (Notification ClientValue)) (e : Notification ClientValue) (key : Nat)
    (es : OfficeTrace) (o : Office) : Prop where
  /-- It has not been read yet.  What has arrived after it does not matter. -/
  | waiting {box : Inbox} (rest : List (Notification ClientValue))
      (found : o.demux.inboxes[key]? = some box) (going : box.done = false)
      (waits : es.yields key ++ box.unread = pre ++ e :: rest) (short : es.yields key <+: pre) :
      Told pre e key es o
  | read (all : es.yields key = pre ++ [e])
      (done : ∀ box, o.demux.inboxes[key]? = some box → box.done = true) : Told pre e key es o
  /-- The handle has been dropped before it was read to the end. -/
  | dropped (absent : o.demux.inboxes[key]? = none) (short : es.yields key <+: pre) :
      Told pre e key es o

/-- A single handle yields a single notification. -/
private theorem yields_singleton {h : Handle} (hkey : h.key = key) (n : Notification ClientValue) :
    OfficeTrace.yields [.yielded h n] key = [n] := by
  simp [OfficeTrace.yields, OfficeEvent.yield?, hkey]

/-- What a handle has been told stays the last thing for it. -/
private theorem Told.step {pre : List (Notification ClientValue)} {e : Notification ClientValue}
    (told : Told pre e key es o) (next : Step tr o es' o') (old : key < o.demux.nextKey)
    (plain : ∀ n ∈ pre, n.terminal = false) (last : e.terminal = true) :
    Told pre e key (es ++ es') o' := by
  have fills := next.fills key
  cases told with
  | @waiting box rest found going waits short =>
    rw [found] at fills
    generalize hb : o'.demux.inboxes[key]? = box?' at fills
    cases fills with
    | rest silent =>
      refine .waiting rest hb going ?_ ?_ <;> rw [OfficeTrace.yields_append, silent, List.append_nil]
      · exact waits
      · exact short
    | fresh _ new => omega
    | @sent _ n =>
      refine .waiting (rest ++ [n]) hb going ?_ ?_ <;> rw [List.append_nil]
      · rw [← List.append_assoc, waits]
        simp
      · exact short
    | @yielded h _ n unread hkey _ _ waiting =>
      obtain ⟨t, ht⟩ := short
      rw [waiting, ← ht, List.append_assoc] at waits
      have waits := List.append_cancel_left waits
      have hyields : OfficeTrace.yields (es ++ [.yielded h n]) key = es.yields key ++ [n] := by
        rw [OfficeTrace.yields_append, yields_singleton hkey]
      cases t with
      | nil =>
        -- It is the end that it yields.
        obtain ⟨rfl, -⟩ := List.cons.inj waits
        rw [List.append_nil] at ht
        refine .read (by rw [hyields, ht]) fun box' hbox' => ?_
        rw [hb] at hbox'
        exact Option.some.inj hbox' ▸ last
      | cons m t =>
        obtain ⟨rfl, hunread⟩ := List.cons.inj waits
        -- There was something before the end, and now there is less of it.
        refine .waiting rest hb (plain n ?_) ?_ ?_
        · rw [← ht]
          exact List.mem_append_right _ List.mem_cons_self
        · rw [hyields, ← ht, hunread]
          simp
        · rw [hyields]
          exact ⟨t, by rw [← ht]; simp⟩
    | ended _ _ _ empty =>
      -- It has not come to its end, as there is something to read.
      obtain ⟨t, ht⟩ := short
      rw [empty, ← ht, List.append_assoc] at waits
      have waits := List.append_cancel_left waits
      simp at waits
    | gone =>
      refine .dropped hb ?_
      rw [List.append_nil]
      exact short
  | read all done =>
    have hyields : es'.yields key = [] ∧
        ∀ box, o'.demux.inboxes[key]? = some box → box.done = true := by
      generalize o.demux.inboxes[key]? = box? at fills done
      generalize o'.demux.inboxes[key]? = box?' at fills
      cases fills with
      | rest silent => exact ⟨silent, done⟩
      | fresh _ new => omega
      | @sent box =>
        refine ⟨rfl, fun box' hbox' => ?_⟩
        rw [← Option.some.inj hbox']
        exact done box rfl
      | yielded _ _ going | ended _ _ going =>
        rw [done _ rfl] at going
        cases going
      | gone => exact ⟨rfl, nofun⟩
    refine .read ?_ hyields.2
    rw [OfficeTrace.yields_append, hyields.1, List.append_nil, all]
  | dropped absent short =>
    rw [absent] at fills
    generalize hb : o'.demux.inboxes[key]? = box?' at fills
    cases fills with
    | rest silent =>
      refine .dropped hb ?_
      rw [OfficeTrace.yields_append, silent, List.append_nil]
      exact short
    | fresh _ new => omega

/-- A handle that has been told that its stream is over yields nothing after that.  As long as
    somebody has it, it yields the rest when it is read, and then comes to its end. -/
theorem Told.reads {pre : List (Notification ClientValue)} {e : Notification ClientValue}
    {h : Handle} (told : Told pre e h.key es o) (plain : ∀ n ∈ pre, n.terminal = false)
    (last : e.terminal = true) :
    es.yields h.key <+: pre ++ [e] ∧
      (o.demux.held h = true → ∀ m, o.demux.unreadCount h + 2 ≤ m →
        es.yields h.key ++ (o.demux.readUpTo h m).1 = pre ++ [e] ∧
          (o.demux.readUpTo h m).2.1 = true) := by
  cases told with
  | @waiting box rest found going waits short =>
    refine ⟨short.trans (List.prefix_append ..), fun _ m enough => ?_⟩
    have hunread : o.demux.unreadOf h = box.unread := by rw [Demux.unreadOf, found, Option.getD_some]
    rw [← Demux.length_unreadOf, hunread] at enough
    -- What it has not read yet is what is missing, then the end, then what it will not read.
    obtain ⟨t, rfl⟩ := short
    rw [List.append_assoc] at waits ⊢
    have hbox := List.append_cancel_left waits
    rw [hbox, List.length_append] at enough
    obtain ⟨hall, hended⟩ := Demux.readUpTo_end t rest found going hbox
      (fun n hn => plain n (List.mem_append_right _ hn)) last (n := m) (by omega)
    exact ⟨by rw [hall], hended⟩
  -- It has yielded the end, so a read finds nothing whatever else has arrived.
  | read all done =>
    refine ⟨all ▸ List.prefix_refl _, fun held m enough => ?_⟩
    obtain ⟨box, hbox⟩ := (o.demux.held_iff h).1 held
    obtain ⟨m, rfl⟩ : ∃ m', m = m' + 1 := ⟨m - 1, by omega⟩
    rw [Demux.readUpTo_of_done hbox (done box hbox), List.append_nil]
    exact ⟨all, rfl⟩
  | dropped absent short =>
    refine ⟨short.trans (List.prefix_append ..), fun held => ?_⟩
    obtain ⟨box, hbox⟩ := (o.demux.held_iff h).1 held
    rw [absent] at hbox
    cases hbox

/-! ## While the session ends -/

/-- What has become of a handle since a session was about to end, while the disconnection `j` goes
    on.  It had `start` to read then. -/
inductive Fares (j : Nat) (reason : String) (h : Handle) (start : List (Notification ClientValue))
    (es : OfficeTrace) (o : Office) : Prop where
  /-- Its stream is open. -/
  | going (opened : o.demux.opened[h.id]? = some h.key)
      (mine : ∃ stage, o.disconnections[j]? = some { reason, stage })
      (begun : ∀ box, o.demux.inboxes[h.key]? = some box →
        start <+: es.yields h.key ++ box.unread)
      (plain : ∀ n ∈ es.yields h.key, n.terminal = false) : Fares j reason h start es o
  /-- Its stream has been taken off, and it is told next. -/
  | struck {left : List StreamId} {box : Inbox}
      (busy : o.disconnections[j]? = some { reason, stage := .telling h.key left })
      (found : o.demux.inboxes[h.key]? = some box) (going : box.done = false)
      (begun : start <+: es.yields h.key ++ box.unread)
      (plain : ∀ n ∈ es.yields h.key ++ box.unread, n.terminal = false)
      (kept : ∀ g ∈ o.fallen, g.key ≠ h.key) : Fares j reason h start es o
  | told {pre : List (Notification ClientValue)} (begun : start <+: pre)
      (plain : ∀ n ∈ pre, n.terminal = false)
      (told : Told pre (.error (Disconnection.failure reason)) h.key es o) :
      Fares j reason h start es o
  /-- Its stream was closed in another way. -/
  | otherwise {x : OfficeEvent} (told : x ∈ es) (closes : x.Closes h)
      (another : x ≠ .struck j h.id) : Fares j reason h start es o

/-- What a disconnection does when it takes a stream off. -/
private theorem Step.struck (next : Step tr o es o') {i : Nat} {id : StreamId}
    (told : .struck i id ∈ es) :
    ∃ reason left key, (∃ stage, o.disconnections[i]? = some { reason, stage }) ∧
      o'.disconnections[i]? = some { reason, stage := .telling key left } ∧
      o.demux.opened[id]? = some key ∧ o'.demux.inboxes = o.demux.inboxes ∧
      o'.fallen = o.fallen ∧ es.yields = fun _ => [] := by
  cases next with
  | pump next => cases next <;> simp at told
  | use next =>
    cases next with
    | call => simp at told
    | @read _ r => cases hn : Demux.Reading.notification? r <;> rw [hn] at told <;> simp at told
    | _ => simp at told
  | leave => cases told
  | disconnect next =>
    cases next with
    -- Only a disconnection strikes, and it does nothing else in the same step.
    | strike ready _ found =>
      obtain ⟨rfl, rfl⟩ := OfficeEvent.struck.injEq .. ▸ List.mem_singleton.1 told
      exact ⟨_, _, _, ⟨_, ready⟩, List.getElem?_set_self (List.getElem?_eq_some_iff.1 ready).1,
        found, rfl, rfl, rfl⟩
    | _ => simp at told

/-- A disconnection keeps its reason. -/
private theorem Step.reason (next : Step tr o es o') {j : Nat} {reason : String}
    (mine : ∃ stage, o.disconnections[j]? = some { reason, stage }) :
    ∃ stage, o'.disconnections[j]? = some { reason, stage } := by
  obtain ⟨stage, hstage⟩ := mine
  rcases next.stays hstage with hsame | next
  · exact ⟨stage, hsame⟩
  · obtain ⟨reason', stage₀, stage', ready, heq⟩ := next.disconnections
    obtain ⟨rfl, -⟩ := Disconnection.mk.injEq .. ▸ Option.some.inj (hstage.symm.trans ready)
    exact ⟨stage', heq ▸ List.getElem?_set_self (List.getElem?_eq_some_iff.1 hstage).1⟩

section

variable {j : Nat} {reason : String} {h : Handle} {start : List (Notification ClientValue)}
  (sound : Sound tr o) (next : Step tr o es' o')

include sound next

/-- While the stream is open, only a plain notification can arrive, and the handle yields such. -/
private theorem Sound.feeds (opened : o.demux.opened[h.id]? = some h.key)
    (begun : ∀ box, o.demux.inboxes[h.key]? = some box → start <+: es.yields h.key ++ box.unread)
    (plain : ∀ n ∈ es.yields h.key, n.terminal = false) :
    (∀ box, o'.demux.inboxes[h.key]? = some box →
      start <+: OfficeTrace.yields (es ++ es') h.key ++ box.unread) ∧
    ∀ n ∈ OfficeTrace.yields (es ++ es') h.key, n.terminal = false := by
  have fills := next.fills h.key
  have flows := fun box => sound.flows h.id h.key box opened
  rw [OfficeTrace.yields_append]
  -- The case split is on what this step does to the one inbox.
  generalize o.demux.inboxes[h.key]? = box? at fills begun flows
  generalize o'.demux.inboxes[h.key]? = box?' at fills
  cases fills with
  | rest silent =>
    rw [silent, List.append_nil]
    exact ⟨begun, plain⟩
  | fresh _ new => exact absurd (sound.fit.key_lt opened) (by omega)
  | @sent box n =>
    rw [show OfficeTrace.yields [] h.key = [] from rfl, List.append_nil]
    refine ⟨fun box' hbox' => ?_, plain⟩
    rw [← Option.some.inj hbox', ← List.append_assoc]
    exact (begun box rfl).trans (List.prefix_append ..)
  | @yielded g box n unread hkey _ _ waiting =>
    have hbegun := begun box rfl
    rw [waiting] at hbegun
    rw [yields_singleton hkey]
    refine ⟨fun box' hbox' => ?_, fun m hm => ?_⟩
    · rw [← Option.some.inj hbox', List.append_assoc]
      exact hbegun
    · rcases List.mem_append.1 hm with hm | hm
      · exact plain m hm
      · rw [List.mem_singleton.1 hm]
        exact (flows box rfl).2 n (waiting ▸ List.mem_cons_self)
  -- An inbox ends, or goes, only when its stream is closed.
  | @ended g _ hkey got _ _ unfed =>
    have given : Given tr.made h := sound.fit.opened h.id h.key opened
    have hid : g.id = h.id := by
      have hg := sound.given g .program got
      rw [Given, hkey] at hg
      exact Option.some.inj (hg.symm.trans given)
    exact absurd (hid ▸ opened) unfed
  | @gone g _ hkey fell => exact absurd opened (hkey ▸ sound.fallen g fell h.id)

/-- What becomes of a handle whose stream is open. -/
private theorem Fares.step_going (opened : o.demux.opened[h.id]? = some h.key)
    (mine : ∃ stage, o.disconnections[j]? = some { reason, stage })
    (begun : ∀ box, o.demux.inboxes[h.key]? = some box → start <+: es.yields h.key ++ box.unread)
    (plain : ∀ n ∈ es.yields h.key, n.terminal = false) :
    Fares j reason h start (es ++ es') o' := by
  -- Either the stream stays open, or this step closes it.
  rcases next.stays_open opened with hstays | ⟨x, hx, closes⟩
  · obtain ⟨hbegun, hplain⟩ := sound.feeds next opened begun plain
    exact .going hstays (next.reason mine) hbegun hplain
  · by_cases hmine : x = .struck j h.id
    · -- The disconnection takes the stream off.
      subst hmine
      obtain ⟨reason', left, key, ⟨stage, ready⟩, busy, found, hinboxes, hfallen, hyields⟩ :=
        next.struck hx
      obtain rfl := Option.some.inj (opened.symm.trans found)
      obtain ⟨_, hstage⟩ := mine
      obtain ⟨rfl, -⟩ := Disconnection.mk.injEq .. ▸ Option.some.inj (hstage.symm.trans ready)
      -- The stream was open until now, so there is no end among what it has got.
      obtain ⟨box, hbox⟩ := sound.fit.inbox h.id h.key opened
      obtain ⟨hdone, hunread⟩ := sound.flows h.id h.key box opened hbox
      have hsame : OfficeTrace.yields (es ++ es') h.key = es.yields h.key := by
        rw [OfficeTrace.yields_append, hyields, List.append_nil]
      refine .struck busy (hinboxes ▸ hbox) hdone ?_ ?_ fun g hg hkey => ?_
      · rw [hsame]
        exact begun box hbox
      · rw [hsame]
        exact fun n hn => (List.mem_append.1 hn).elim (plain n) (hunread n)
      · rw [hfallen] at hg
        exact sound.fallen g hg h.id (hkey ▸ opened)
    · exact .otherwise (List.mem_append_right _ hx) closes hmine

/-- What becomes of a handle that is told next. -/
private theorem Fares.step_struck (given : Given tr.made h) {left : List StreamId} {box : Inbox}
    (busy : o.disconnections[j]? = some { reason, stage := .telling h.key left })
    (found : o.demux.inboxes[h.key]? = some box) (going : box.done = false)
    (begun : start <+: es.yields h.key ++ box.unread)
    (plain : ∀ n ∈ es.yields h.key ++ box.unread, n.terminal = false)
    (kept : ∀ g ∈ o.fallen, g.key ≠ h.key) : Fares j reason h start (es ++ es') o' := by
  by_cases hfell : ∃ g ∈ o'.fallen, g.key = h.key
  -- The handle is dropped, which closes its stream as well.
  · obtain ⟨g, hg, hkey⟩ := hfell
    rcases next.from_fallen hg with hg | ⟨hg, rfl, -⟩
    · exact absurd hkey (kept g hg)
    · have hgiven := sound.given g .falling hg
      rw [Given, hkey] at hgiven
      exact .otherwise (List.mem_append_right _ (List.mem_singleton_self _))
        (.released (Option.some.inj (hgiven.symm.trans given))) nofun
  · have kept' : ∀ g ∈ o'.fallen, g.key ≠ h.key := fun g hg hkey => hfell ⟨g, hg, hkey⟩
    rcases next.stays busy with hsame | step
    · -- Somebody else takes a step.
      have fills := next.fills h.key
      rw [found] at fills
      generalize hb : o'.demux.inboxes[h.key]? = box?' at fills
      cases fills with
      | rest silent =>
        refine .struck hsame hb going ?_ ?_ kept' <;>
          rw [OfficeTrace.yields_append, silent, List.append_nil]
        · exact begun
        · exact plain
      | fresh _ new => exact absurd (sound.key_lt found) (by omega)
      | @sent _ n comes =>
        have hplain : n.terminal = false := by
          cases comes with
          | send pumping => exact Bool.eq_false_iff.2 fun last => sound.last pumping last busy
          | tell busy' after =>
            -- Only one disconnection tells the handle, and that is this one.
            obtain rfl := sound.apart busy busy'
            cases Option.some.inj (hsame.symm.trans after)
        rw [List.append_nil]
        refine .struck hsame hb going ?_ (fun m hm => ?_) kept'
        · rw [← List.append_assoc]
          exact begun.trans (List.prefix_append ..)
        · rw [← List.append_assoc] at hm
          rcases List.mem_append.1 hm with hm | hm
          · exact plain m hm
          · exact List.mem_singleton.1 hm ▸ hplain
      | @yielded g _ n unread hkey _ _ waiting =>
        rw [waiting] at begun plain
        have hyields : OfficeTrace.yields (es ++ [.yielded g n]) h.key ++ unread =
            es.yields h.key ++ n :: unread := by
          rw [OfficeTrace.yields_append, yields_singleton hkey, List.append_assoc]
          rfl
        refine .struck hsame hb ?_ ?_ ?_ kept'
        · exact plain n (List.mem_append_right _ List.mem_cons_self)
        · rw [hyields]
          exact begun
        · rw [hyields]
          exact plain
      | ended _ _ _ _ _ still => exact absurd (.telling busy) (still _)
      | gone hkey fell => exact absurd hkey (kept _ fell)
    · -- The disconnection tells it.
      cases step with
      | tell ready hfound =>
        obtain ⟨rfl, hstage⟩ := Disconnection.mk.injEq .. ▸ Option.some.inj (busy.symm.trans ready)
        obtain ⟨rfl, rfl⟩ := Disconnecting.telling.injEq .. ▸ hstage
        obtain rfl := Option.some.inj (found.symm.trans hfound)
        refine .told begun plain (.waiting [] Std.ExtTreeMap.getElem?_insert_self going ?_ ?_) <;>
          rw [List.append_nil]
        · rw [List.append_assoc]
        · exact List.prefix_append ..
      | miss ready absent =>
        obtain ⟨rfl, hstage⟩ := Disconnection.mk.injEq .. ▸ Option.some.inj (busy.symm.trans ready)
        obtain ⟨rfl, rfl⟩ := Disconnecting.telling.injEq .. ▸ hstage
        rw [absent] at found
        cases found
      | close ready | look ready | strike ready | skip ready | finish ready =>
        cases Option.some.inj (busy.symm.trans ready)

/-- What becomes of a handle in one step. -/
private theorem Fares.step (fares : Fares j reason h start es o) (given : Given tr.made h) :
    Fares j reason h start (es ++ es') o' := by
  -- Going on and being struck have their own lemmas; after that nothing changes.
  cases fares with
  | going opened mine begun plain => exact Fares.step_going sound next opened mine begun plain
  | struck busy found going begun plain kept =>
    exact Fares.step_struck sound next given busy found going begun plain kept
  | told begun plain told =>
    have old : h.key < o.demux.nextKey := by
      rw [sound.fit.count]
      exact (List.getElem?_eq_some_iff.1 given).1
    exact .told begun plain (told.step next old plain rfl)
  | otherwise told closes another => exact .otherwise (List.mem_append_left _ told) closes another

end

variable {j : Nat} {reason : String} {h : Handle} {start : List (Notification ClientValue)}

/-- A handle whose stream is open when the session is about to end. -/
theorem fares_of_opened (opened : o.demux.opened[h.id]? = some h.key)
    (mine : ∃ stage, o.disconnections[j]? = some { reason, stage }) :
    Fares j reason h (o.demux.unreadOf h) [] o := by
  refine .going opened mine (fun box hbox => ?_) nofun
  rw [Demux.unreadOf, hbox]
  exact List.prefix_refl _

/-- What becomes of a handle in steps in turn. -/
theorem Fares.goes (fares : Fares j reason h start [] o) (sound : Sound tr o)
    (given : Given tr.made h) (goes : Goes tr o es o') : Fares j reason h start es o' := by
  induction goes with
  | refl => exact fares
  | step goes next ih =>
    refine Fares.step (sound.goes goes) next ih ?_
    rw [OfficeTrace.made_append]
    exact given.mono _

/-- When a disconnection has finished that looked which streams are open, the handle has been told,
    unless its stream was closed in another way. -/
theorem Fares.farewell (fares : Fares j reason h start es o) {n : Nat} (old : h.key < n)
    (striking : Striking n j o)
    (finished : o.disconnections[j]? = some { reason, stage := .finished }) :
    (∃ x ∈ es, x.Closes h ∧ x ≠ .struck j h.id) ∨
      ∃ pre, start <+: pre ∧ (∀ n ∈ pre, n.terminal = false) ∧
        Told pre (.error (Disconnection.failure reason)) h.key es o := by
  -- A disconnection that has finished has struck every stream it listed and is telling nobody.
  cases fares with
  | going opened =>
    obtain ⟨x, left, hx, hleft, hlisted⟩ := striking
    obtain rfl := Option.some.inj (finished.symm.trans hx)
    obtain rfl := Option.some.inj hleft
    cases hlisted h.id h.key opened old
  | struck busy => cases Option.some.inj (busy.symm.trans finished)
  | told begun plain told => exact .inr ⟨_, begun, plain, told⟩
  | otherwise told closes another => exact .inl ⟨_, told, closes, another⟩

/-- What a handle has been told stays the last thing for it throughout. -/
theorem Told.goes {pre : List (Notification ClientValue)} {e : Notification ClientValue}
    (told : Told pre e key es o) (goes : Goes tr o es' o') (old : key < o.demux.nextKey)
    (plain : ∀ n ∈ pre, n.terminal = false) (last : e.terminal = true) :
    Told pre e key (es ++ es') o' := by
  suffices key < o'.demux.nextKey ∧ Told pre e key (es ++ es') o' from this.2
  induction goes with
  | refl => exact ⟨old, by rwa [List.append_nil]⟩
  | step _ next ih =>
    rw [← List.append_assoc]
    exact ⟨Nat.lt_of_lt_of_le ih.1 next.nextKey_le, ih.2.step next ih.1 plain last⟩

end Office

end StreamRpc
