import Mathlib.Data.List.Nodup
import StreamRpc.Proofs.Client.Handles

/-! # What a handle hears

What a handle has yielded and what it has not yet been asked for are together what happened on its
stream, in order: all of it while the stream is open, and after that everything up to an end, which
is the end of the stream or of the session.

* `Demux.Heard`            a part of what happened on a stream, with at most one end
* `Demux.Logs`             every handle hears of its stream
* `Demux.Logs.observe`     when something happens on a stream
* `Demux.Logs.failAll`     when the session ends
* `Demux.Logs.read`        when a handle is read
-/

namespace StreamRpc

namespace Demux

/-! ## One handle -/

/-- These notifications are a part of what happened on a stream, and nothing follows an end.  The
    end of the session is one if there is such. -/
inductive Heard (os : List (Notification WireValue)) (isOver : Prop) :
    List (Notification ClientValue) → Prop where
  | going {ms : List (Notification ClientValue)} (plain : ∀ m ∈ ms, m.terminal = false)
      (told : ms.map (·.onWire) <+: os) : Heard os isOver ms
  | ended {ms : List (Notification ClientValue)} {n : Notification ClientValue}
      (plain : ∀ m ∈ ms, m.terminal = false) (last : n.terminal = true)
      (told : (ms ++ [n]).map (·.onWire) <+: os) : Heard os isOver (ms ++ [n])
  | cut {ms : List (Notification ClientValue)} {reason : String}
      (plain : ∀ m ∈ ms, m.terminal = false) (told : ms.map (·.onWire) <+: os) (gone : isOver) :
      Heard os isOver (ms ++ [.error { kind := .disconnected, message := reason }])

/-- What was heard stays heard as more is observed. -/
private theorem Heard.mono {os os' : List (Notification WireValue)} {isOver isOver' : Prop}
    {ns : List (Notification ClientValue)} (h : Heard os isOver ns) (hos : os <+: os')
    (hover : isOver → isOver') : Heard os' isOver' ns := by
  cases h with
  | going plain told => exact .going plain (told.trans hos)
  | ended plain last told => exact .ended plain last (told.trans hos)
  | cut plain told gone => exact .cut plain (told.trans hos) (hover gone)

/-- A part of what was heard was heard. -/
private theorem Heard.of_initial {os : List (Notification WireValue)} {isOver : Prop}
    {ns ns' : List (Notification ClientValue)} (h : Heard os isOver ns) (hns : ns' <+: ns) :
    Heard os isOver ns' := by
  have hplain : ∀ {ms}, (∀ m ∈ ms, m.terminal = false) → ns' <+: ms →
      ms.map (·.onWire) <+: os → Heard os isOver ns' := fun plain hp told =>
    .going (fun m hm => plain m (hp.subset hm)) ((hp.map _).trans told)
  cases h with
  | going plain told => exact hplain plain hns told
  | ended plain last told =>
    -- Either the end is still among what was heard, or only plain observations are left.
    rcases List.prefix_concat_iff.1 hns with rfl | hp
    · exact .ended plain last told
    · refine hplain plain hp (List.IsPrefix.trans ?_ told)
      rw [List.map_append]
      exact List.prefix_append _ _
  | cut plain told gone =>
    rcases List.prefix_concat_iff.1 hns with rfl | hp
    · exact .cut plain told gone
    · exact hplain plain hp told

/-- What a handle has yielded and what waits in its inbox, if it has not been dropped. -/
structure Log (os : List (Notification WireValue)) (isOver : Prop)
    (ys : List (Notification ClientValue)) (box? : Option Inbox) (isOpen : Prop) : Prop where
  heard : ∀ box, box? = some box → Heard os isOver (ys ++ box.unread)
  whole : ∀ box, box? = some box → isOpen →
    (ys ++ box.unread).map (·.onWire) = os ∧ ∀ n ∈ ys ++ box.unread, n.terminal = false
  ended : ∀ box, box? = some box → ¬ isOpen → ∃ n ∈ ys ++ box.unread, n.terminal = true
  done : ∀ box, box? = some box → (box.done = true ↔ ∃ n ∈ ys, n.terminal = true)
  dropped : box? = none → Heard os isOver ys

variable {os : List (Notification WireValue)} {isOver : Prop} {ys : List (Notification ClientValue)}
  {box? box?' : Option Inbox} {isOpen isOpen' : Prop}

/-- What has to be seen of a handle that is there. -/
private theorem Log.of_box {box : Inbox} (heard : Heard os isOver (ys ++ box.unread))
    (whole : isOpen → (ys ++ box.unread).map (·.onWire) = os ∧
      ∀ n ∈ ys ++ box.unread, n.terminal = false)
    (ended : ¬ isOpen → ∃ n ∈ ys ++ box.unread, n.terminal = true)
    (done : box.done = true ↔ ∃ n ∈ ys, n.terminal = true) :
    Log os isOver ys (some box) isOpen where
  heard box' hbox := by rwa [← Option.some.inj hbox]
  whole box' hbox := by rwa [← Option.some.inj hbox]
  ended box' hbox := by rwa [← Option.some.inj hbox]
  done box' hbox := by rwa [← Option.some.inj hbox]
  dropped hbox := by cases hbox

/-- A handle that is just made has heard nothing. -/
private theorem Log.fresh (isOver : Prop) {isOpen : Prop} (h : isOpen) :
    Log [] isOver [] (some {}) isOpen :=
  .of_box (.going (by simp) List.prefix_rfl) (fun _ => ⟨rfl, by simp⟩) (fun hno => absurd h hno)
    (by simp)

/-- What was yielded was heard, whether the handle is still there or not. -/
theorem Log.yields (h : Log os isOver ys box? isOpen) : Heard os isOver ys := by
  cases box? with
  | none => exact h.dropped rfl
  | some box => exact (h.heard box rfl).of_initial (List.prefix_append _ _)

/-- A handle that is left alone or dropped. -/
private theorem Log.leave (h : Log os isOver ys box? isOpen)
    (kept : ∀ box, box?' = some box → box? = some box ∧ (isOpen' ↔ isOpen)) :
    Log os isOver ys box?' isOpen' where
  heard box hbox := h.heard box (kept box hbox).1
  whole box hbox ho := h.whole box (kept box hbox).1 ((kept box hbox).2.1 ho)
  ended box hbox hn := h.ended box (kept box hbox).1 fun ho => hn ((kept box hbox).2.2 ho)
  done box hbox := h.done box (kept box hbox).1
  dropped _ := h.yields

/-- A log stays one when the session ends. -/
theorem Log.mono_over {isOver' : Prop} (h : Log os isOver ys box? isOpen)
    (hover : isOver → isOver') :
    Log os isOver' ys box? isOpen where
  heard box hbox := (h.heard box hbox).mono List.prefix_rfl hover
  whole := h.whole
  ended := h.ended
  done := h.done
  dropped hbox := (h.dropped hbox).mono List.prefix_rfl hover

/-- Something happens on a stream that is not open. -/
private theorem Log.miss (h : Log os isOver ys box? isOpen) (hn : ¬ isOpen)
    (n : Notification WireValue) :
    Log (os ++ [n]) isOver ys box? isOpen where
  heard box hbox := (h.heard box hbox).mono (List.prefix_append _ _) id
  whole _ _ ho := absurd ho hn
  ended := h.ended
  done := h.done
  dropped hbox := (h.dropped hbox).mono (List.prefix_append _ _) id

/-- Something happens on an open stream, which stays open unless that is its end. -/
private theorem Log.hear {box : Inbox} (h : Log os isOver ys (some box) isOpen) (ho : isOpen)
    {n : Notification ClientValue} (hopen' : isOpen' ↔ n.terminal = false) :
    Log (os ++ [n.onWire]) isOver ys (some { box with unread := box.unread ++ [n] }) isOpen' := by
  -- As the stream was open, nothing is missing and nothing so far was an end.
  obtain ⟨hall, hplain⟩ := h.whole box rfl ho
  have hlist : ys ++ (box.unread ++ [n]) = ys ++ box.unread ++ [n] := (List.append_assoc ..).symm
  have htold : (ys ++ box.unread ++ [n]).map (·.onWire) = os ++ [n.onWire] := by
    rw [List.map_append, hall]
    rfl
  have hplain' : n.terminal = false → ∀ m ∈ ys ++ box.unread ++ [n], m.terminal = false := by
    intro hn m hm
    rcases List.mem_append.1 hm with hm | hm
    · exact hplain m hm
    · rwa [List.mem_singleton.1 hm]
  refine .of_box ?_ (fun ho' => ?_) (fun hno => ⟨n, by simp, ?_⟩) (h.done box rfl)
  · rw [hlist]
    cases hn : n.terminal with
    | true => exact .ended hplain hn (htold ▸ List.prefix_rfl)
    | false => exact .going (hplain' hn) (htold ▸ List.prefix_rfl)
  · rw [hlist]
    exact ⟨htold, hplain' (hopen'.1 ho')⟩
  · cases hn : n.terminal with
    | true => rfl
    | false => exact absurd (hopen'.2 hn) hno

/-- The session ends while a stream is open. -/
private theorem Log.lose {box : Inbox} (h : Log os isOver ys (some box) isOpen) (ho : isOpen)
    (hno : ¬ isOpen') (hover : isOver) (reason : String) :
    Log os isOver ys
      (some { box with
        unread := box.unread ++ [.error { kind := .disconnected, message := reason }] })
      isOpen' := by
  obtain ⟨hall, hplain⟩ := h.whole box rfl ho
  refine .of_box ?_ (fun ho' => absurd ho' hno)
    (fun _ => ⟨.error { kind := .disconnected, message := reason }, by simp, rfl⟩) (h.done box rfl)
  show Heard _ _ (ys ++ (box.unread ++ [_]))
  rw [← List.append_assoc]
  -- All that was observed has arrived, and then the failure cuts it off.
  exact .cut hplain (hall ▸ List.prefix_rfl) hover

/-- A handle yields what waits first. -/
private theorem Log.take {box : Inbox} {n : Notification ClientValue}
    {unread : List (Notification ClientValue)} (h : Log os isOver ys (some box) isOpen)
    (hnd : box.done = false) (hbox : box.unread = n :: unread) :
    Log os isOver (ys ++ [n]) (some { unread, done := n.terminal }) isOpen := by
  -- What was yielded and what waits are together what they were.
  have hsame : (ys ++ [n]) ++ unread = ys ++ box.unread := by
    rw [hbox, List.append_assoc]
    rfl
  have hys : ¬ ∃ m ∈ ys, m.terminal = true := fun hex => by
    rw [(h.done box rfl).2 hex] at hnd
    cases hnd
  refine .of_box ?_ (fun ho => ?_) (fun hno => ?_) ⟨fun hn => ⟨n, by simp, hn⟩, ?_⟩
  · rw [hsame]
    exact h.heard box rfl
  · rw [hsame]
    exact h.whole box rfl ho
  · rw [hsame]
    exact h.ended box rfl hno
  · rintro ⟨m, hm, hlast⟩
    rcases List.mem_append.1 hm with hm | hm
    · exact absurd ⟨m, hm, hlast⟩ hys
    · rwa [List.mem_singleton.1 hm] at hlast

/-! ## All handles -/

/-- Every handle hears of its stream: `os` is what happened on each stream so far, and `ys` what
    each handle has yielded. -/
structure Logs (made : List StreamId) (os : StreamId → List (Notification WireValue)) (isOver : Prop)
    (ys : Nat → List (Notification ClientValue)) (d : Demux) : Prop where
  fit : Fit made d
  nodup : made.Nodup
  log : ∀ (k : Nat) (id : StreamId), made[k]? = some id →
    Log (os id) isOver (ys k) d.inboxes[k]? (d.opened[id]? = some k)

section

variable {made : List StreamId} {os : StreamId → List (Notification WireValue)} {isOver : Prop}
  {ys : Nat → List (Notification ClientValue)} {d : Demux}

/-- The empty demultiplexer keeps the empty log. -/
theorem logs_empty : Logs [] os isOver ys {} where
  fit := fit_empty
  nodup := List.nodup_nil
  log k id h := by simp at h

/-- A stream that is open for some handle is open for its own. -/
theorem Logs.opened_eq (h : Logs made os isOver ys d) {k : Nat} {id : StreamId}
    (hid : made[k]? = some id) {key : Nat} (ho : d.opened[id]? = some key) : key = k := by
  have hkey := h.fit.opened id key ho
  exact (List.getElem?_inj (List.getElem?_eq_some_iff.1 hkey).1 h.nodup).1 (hkey.trans hid.symm)

/-- A stream that was not there before is introduced. -/
private theorem Logs.introduce (h : Logs made os isOver ys d) {id : StreamId} (hnew : id ∉ made)
    (hos : os id = []) (hys : ys made.length = []) :
    Logs (made ++ [id]) os isOver ys (d.introduce id).2 where
  fit := h.fit.introduce id
  nodup := by
    refine List.nodup_append.2 ⟨h.nodup, List.nodup_singleton id, ?_⟩
    intro a ha b hb
    obtain rfl := List.mem_singleton.1 hb
    rintro rfl
    exact hnew ha
  log k other hk := by
    show Log _ _ _ (d.inboxes.insert d.nextKey {})[k]? ((d.opened.insert id d.nextKey)[other]? = _)
    rw [Std.ExtTreeMap.getElem?_insert, Std.ExtTreeMap.getElem?_insert, h.fit.count]
    -- The other handles have other keys, and their streams other numbers.
    by_cases hlt : k < made.length
    · rw [List.getElem?_append_left hlt] at hk
      have hne : ¬ id = other := by
        rintro rfl
        exact hnew (List.mem_of_getElem? hk)
      rw [if_neg (by rw [Std.compare_eq_iff_eq]; omega),
        if_neg fun hc => hne (Std.LawfulEqOrd.eq_of_compare hc)]
      exact h.log k other hk
    -- This is the new handle, and nothing has been observed or yielded for it.
    · have hlen := (List.getElem?_eq_some_iff.1 hk).1
      rw [List.length_append, List.length_singleton] at hlen
      obtain rfl : k = made.length := by omega
      obtain rfl : id = other := by simpa using hk
      rw [Std.compare_self, Std.compare_self, if_pos rfl, if_pos rfl, hos, hys]
      exact Log.fresh isOver rfl

/-- Introducing a list of ids starts a log for each. -/
theorem Logs.introduceAll {ids : List StreamId} (h : Logs made os isOver ys d)
    (nodup : (made ++ ids).Nodup) (hos : ∀ id ∈ ids, os id = [])
    (hys : ∀ k, made.length ≤ k → ys k = []) :
    Logs (made ++ ids) os isOver ys (d.introduceAll ids).2 := by
  induction ids generalizing made d with
  | nil => rwa [List.append_nil]
  | cons id ids ih =>
    -- The log of a stream starts empty, so its id must be new and its inbox unread.
    have hnew : id ∉ made := fun hm =>
      (List.nodup_append.1 nodup).2.2 id hm id List.mem_cons_self rfl
    have h1 := h.introduce hnew (hos id List.mem_cons_self) (hys _ (Nat.le_refl _))
    have hassoc : made ++ id :: ids = (made ++ [id]) ++ ids := by simp
    rw [hassoc] at nodup ⊢
    refine ih h1 nodup (fun i hi => hos i (List.mem_cons_of_mem _ hi)) fun k hk => hys k ?_
    rw [List.length_append] at hk
    omega

/-- Handles are dropped. -/
theorem Logs.dropAll (h : Logs made os isOver ys d) {hs : List Handle}
    (given : ∀ g ∈ hs, Given made g) : Logs made os isOver ys (d.dropAll hs) := by
  obtain ⟨fit, hkept⟩ := h.fit.of_dropAll given
  refine ⟨fit, h.nodup, fun k id hk => (h.log k id hk).leave fun box hbox => ?_⟩
  obtain ⟨h1, h2⟩ := hkept k box hbox
  exact ⟨h1, by rw [h2 h.nodup id hk]⟩

/-- Only the streams to be closed change. -/
theorem Logs.takeReleased (h : Logs made os isOver ys d) :
    Logs made os isOver ys d.takeReleased.2 :=
  ⟨h.fit.takeReleased, h.nodup, h.log⟩

/-- The inboxes and the open streams after something was put into the inbox of an open stream, which
    may have been its end. -/
private theorem Logs.deliver (h : Logs made os isOver ys d) {id : StreamId} {key : Nat}
    (ho : d.opened[id]? = some key) {n : Notification ClientValue}
    {opened : Std.ExtTreeMap StreamId Nat}
    (fit : Fit made { d with opened }) (given : ∀ g ∈ n.handles, Given made g)
    {os' : StreamId → List (Notification WireValue)} {isOver' : Prop} (hover : isOver → isOver')
    (hother : ∀ other, other ≠ id → opened[other]? = d.opened[other]? ∧ os' other = os other)
    (hself : ∀ box, d.inboxes[key]? = some box →
      Log (os' id) isOver' (ys key) (some { box with unread := box.unread ++ [n] })
        (opened[id]? = some key)) :
    Logs made os' isOver' ys (({ d with opened } : Demux).deliver key n).2 := by
  obtain ⟨box, hbox⟩ := h.fit.inbox id key ho
  refine ⟨fit.deliver given, h.nodup, fun k other hk => ?_⟩
  have heq : (({ d with opened } : Demux).deliver key n).2 =
      { d with opened, inboxes := d.inboxes.insert key { box with unread := box.unread ++ [n] } } := by
    simp only [Demux.deliver, hbox]
  rw [heq]
  show Log _ _ _ (d.inboxes.insert key _)[k]? (opened[other]? = some k)
  rw [Std.ExtTreeMap.getElem?_insert]
  -- One inbox changes, and it is that of the handle of this stream.
  by_cases hkey : key = k
  · subst hkey
    obtain rfl : other = id := Option.some.inj (hk.symm.trans (h.fit.opened id key ho))
    rw [Std.compare_self, if_pos rfl]
    exact hself box hbox
  -- Another key is that of another stream.
  · have hne : other ≠ id := by
      rintro rfl
      exact hkey (h.opened_eq hk ho)
    obtain ⟨h1, h2⟩ := hother other hne
    rw [if_neg (by rwa [Std.compare_eq_iff_eq]), h1, h2]
    exact (h.log k other hk).mono_over hover

/-! ## When something happens on a stream -/

/-- Something happens on a stream that was introduced before, and maybe it introduces streams that
    were not. -/
theorem Logs.observe (h : Logs made os isOver ys d) {id : StreamId} (hid : id ∈ made)
    {event : Notification WireValue} (nodup : (made ++ event.ids).Nodup)
    (hos : ∀ i ∈ event.ids, os i = []) (hys : ∀ k, made.length ≤ k → ys k = []) :
    Logs (made ++ event.ids) (fun i => if i = id then os i ++ [event] else os i) isOver ys
      (d.observe id event).2 := by
  have h1 := h.introduceAll nodup hos hys
  have given := (h.fit.introduceAll event.ids).2
  obtain ⟨key, hkey⟩ := List.getElem?_of_mem (List.mem_append_left event.ids hid)
  obtain ⟨b, d', heq, observes⟩ := d.observes id event
  rw [heq]
  cases observes with
  | shut ho =>
    -- The stream is not open: its log misses the event, and what the event introduces is dropped.
    refine ⟨(h1.fit.of_dropAll given).1, nodup, fun k other hk => ?_⟩
    have hlog := (h1.dropAll given).log k other hk
    by_cases ho' : other = id
    · subst ho'
      rw [if_pos rfl]
      refine hlog.miss (fun hopen => ?_) event
      have hsub : ((d.introduceAll event.ids).2.dropAll (d.introduceAll event.ids).1).isOpen other =
          true := by
        rw [isOpen, Std.ExtTreeMap.contains_eq_isSome_getElem?, hopen]
        rfl
      obtain ⟨_, -, -, hclosed⟩ :=
        dropAll_closes (d.introduceAll event.ids).2 (d.introduceAll event.ids).1
      have := ((hclosed other).1 hsub).1
      rw [isOpen, Std.ExtTreeMap.contains_eq_isSome_getElem?, ho] at this
      cases this
    · rw [if_neg ho']
      exact hlog
  | @opened k n _ ho wire handles rest =>
    obtain rfl := h1.opened_eq hkey ho
    rw [← handles] at given
    have hos' : os id ++ [event] = os id ++ [n.onWire] := by rw [wire]
    have hterm : n.terminal = event.terminal := by rw [← wire, Notification.terminal_onWire]
    have hlog := h1.log _ id hkey
    rw [rest]
    -- The stream is open and hears of the event; it stays open unless that was its end.
    cases hlast : event.terminal with
    | true =>
      refine h1.deliver ho (h1.fit.shut id) given (fun hx => hx) (fun other hne => ⟨?_, if_neg hne⟩)
        fun box hbox => ?_
      · show ((d.introduceAll event.ids).2.opened.erase id)[other]? = _
        rw [Std.ExtTreeMap.getElem?_erase, if_neg]
        exact fun hc => hne (Std.LawfulEqOrd.eq_of_compare hc).symm
      · rw [hbox] at hlog
        have hno : ¬ ((d.introduceAll event.ids).2.opened.erase id)[id]? = some k := by simp
        rw [if_pos rfl, hos']
        exact hlog.hear ho ⟨fun hx => absurd hx hno, fun hx => by rw [hterm, hlast] at hx; cases hx⟩
    | false =>
      refine h1.deliver ho h1.fit given (fun hx => hx) (fun other hne => ⟨rfl, if_neg hne⟩)
        fun box hbox => ?_
      rw [hbox] at hlog
      rw [if_pos rfl, hos']
      exact hlog.hear ho ⟨fun _ => hterm.trans hlast, fun _ => ho⟩

/-! ## When the session ends -/

/-- A stream fails.  It is closed first and its handle hears of it then, as with an end. -/
private theorem Logs.failOne (h : Logs made os isOver ys d) (hover : isOver) (reason : String)
    (id : StreamId) :
    Logs made os isOver ys (d.failOne { kind := .disconnected, message := reason } id) := by
  unfold Demux.failOne
  split
  · exact h
  · next key ho =>
    -- A failed stream is closed and gets one notification more, like any other end.
    refine h.deliver ho (h.fit.shut id) (by simp [Notification.handles]) (fun hx => hx)
      (fun other hne => ⟨?_, rfl⟩) fun box hbox => ?_
    · rw [Std.ExtTreeMap.getElem?_erase, if_neg]
      exact fun hc => hne (Std.LawfulEqOrd.eq_of_compare hc).symm
    · have hlog := h.log key id (h.fit.opened id key ho)
      rw [hbox] at hlog
      exact hlog.lose ho (by simp) hover reason

/-- Failing a list of ids is logged as their loss. -/
private theorem Logs.failEach (h : Logs made os isOver ys d) (hover : isOver) (reason : String)
    (ids : List StreamId) :
    Logs made os isOver ys (d.failEach { kind := .disconnected, message := reason } ids) := by
  induction ids generalizing d with
  | nil => exact h
  | cons id ids ih =>
    rw [Demux.failEach_cons]
    exact ih (h.failOne hover reason id)

/-- The session ends. -/
theorem Logs.failAll (h : Logs made os isOver ys d) (reason : String) :
    Logs made os True ys (d.failAll { kind := .disconnected, message := reason }) := by
  have hmono : Logs made os True ys d :=
    ⟨h.fit, h.nodup, fun k id hk => (h.log k id hk).mono_over fun _ => trivial⟩
  exact hmono.failEach trivial reason _

/-! ## When a handle is read -/

/-- What reading a handle comes to, and what is said of it. -/
def Reading.notification? : Reading → Option (Notification ClientValue)
  | .notification n => some n
  | _ => none

/-- A handle whose stream is not open has an end to yield, or has yielded one. -/
private theorem Logs.fed_of_going (h : Logs made os isOver ys d) {g : Handle} (given : Given made g)
    {box : Inbox} (found : d.inboxes[g.key]? = some box) (going : box.done = false)
    (empty : box.unread = []) : ¬ d.opened[g.id]? ≠ some g.key := by
  intro unfed
  have hlog := h.log g.key g.id given
  rw [found] at hlog
  -- If its stream were closed, an end would be among what was yielded.
  obtain ⟨n, hn, hlast⟩ := hlog.ended box rfl unfed
  rw [empty, List.append_nil] at hn
  have := (hlog.done box rfl).2 ⟨n, hn, hlast⟩
  rw [going] at this
  cases this

/-- A handle that belongs to its stream is read.  What it yields is what comes next, and it comes to
    an end only after an end was yielded or the handle was dropped. -/
theorem Logs.read (h : Logs made os isOver ys d) {g : Handle} (given : Given made g) :
    Logs made os isOver
      (fun k => if k = g.key then ys k ++ (Reading.notification? (d.read g).1).toList else ys k)
      (d.read g).2 := by
  have hsame : Logs made os isOver (fun k => if k = g.key then ys k ++ [] else ys k) d := by
    have : (fun k => if k = g.key then ys k ++ [] else ys k) = ys := by
      funext k
      rw [List.append_nil, ite_self]
    rwa [this]
  -- Two of the ways a read can go yield nothing, and then the log is as it was.
  have hlog := h.log g.key g.id given
  obtain ⟨r, d', heq, reads⟩ := d.reads g
  rw [heq]
  cases reads with
  | ended | nothing => exact hsame
  | @item box n unread found going waiting =>
    rw [found] at hlog
    refine ⟨h.fit.fill found fun x hx => ?_, h.nodup, fun k id hk => ?_⟩
    · refine h.fit.unread g.key box found x ?_
      rw [Inbox.held, waiting, List.flatMap_cons]
      exact List.mem_append_right _ hx
    · show Log _ _ _ (d.inboxes.insert g.key _)[k]? (d.opened[id]? = some k)
      -- Only the log of the handle that was read changes.
      rw [Std.ExtTreeMap.getElem?_insert]
      by_cases hkey : g.key = k
      · subst hkey
        obtain rfl : id = g.id := Option.some.inj (hk.symm.trans given)
        rw [Std.compare_self, if_pos rfl, if_pos rfl]
        exact hlog.take going waiting
      · rw [if_neg fun hc => hkey hc.symm, if_neg (by rwa [Std.compare_eq_iff_eq])]
        exact h.log k id hk
  | last found going empty unfed => exact absurd unfed (h.fed_of_going given found going empty)

end

end Demux

end StreamRpc
