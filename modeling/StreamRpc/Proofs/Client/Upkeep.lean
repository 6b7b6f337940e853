import StreamRpc.Proofs.Client.Steps

/-! # What overlapping operations keep up

However the operations on a session overlap, handles fit the streams that were introduced, and an
open stream has not come to its end.  A stream that is closed for a handle is not opened for it again,
so an end that is on its way to an inbox is the last thing to arrive there for good.

* `Office.Sound`      what holds throughout
* `Office.Run.sound`  and that it does
-/

namespace StreamRpc

open Demux (Given Fit)

namespace Demux

/-- An open stream has not come to its end. -/
def Flows (d : Demux) : Prop :=
  ∀ (id : StreamId) (k : Nat) (box : Inbox), d.opened[id]? = some k → d.inboxes[k]? = some box →
    box.done = false ∧ ∀ n ∈ box.unread, n.terminal = false

/-- In the empty demultiplexer nothing is stuck. -/
private theorem flows_empty : Flows {} := by
  intro id k box ho
  simp at ho

/-- The handle of an open stream is not new. -/
theorem Fit.key_lt {made : List StreamId} {d : Demux} (fit : Fit made d) {id : StreamId} {k : Nat}
    (ho : d.opened[id]? = some k) :
    k < d.nextKey := by
  rw [fit.count]
  exact (List.getElem?_eq_some_iff.1 (fit.opened id k ho)).1

end Demux

namespace Office

variable {serverQueue replyTo : String} {tr es : OfficeTrace} {o o' : Office}

/-- What holds of the handles of a session, whatever operations are going on. -/
structure Sound (tr : OfficeTrace) (o : Office) : Prop where
  fit : Fit tr.made o.demux
  flows : o.demux.Flows
  given : ∀ h p, o.At tr h p → Given tr.made h
  fallen : ∀ h ∈ o.fallen, o.demux.Unfed h.key
  /-- Something is on its way to a handle that there is, and an end is the last thing. -/
  comes : ∀ key n, o.Brings key n → key < tr.made.length ∧ (n.terminal = true → o.demux.Unfed key)
  apart : ∀ {i i' : Nat} {reason reason' : String} {key : Nat} {left left' : List StreamId},
    o.disconnections[i]? = some { reason, stage := .telling key left } →
      o.disconnections[i']? = some { reason := reason', stage := .telling key left' } → i = i'
  last : ∀ {key : Nat} {n : Notification ClientValue}, o.pumping = .sending key n →
    n.terminal = true → ∀ {i : Nat} {reason : String} {left : List StreamId},
      o.disconnections[i]? ≠ some { reason, stage := .telling key left }

/-- An office that has just opened is sound. -/
theorem sound_opened (serverQueue replyTo : String) : Sound [] (opened serverQueue replyTo) where
  fit := Demux.fit_empty
  flows := Demux.flows_empty
  -- At first there is no handle anywhere.
  given h p here := by
    cases p with
    | ticket id =>
      obtain ⟨v, ht, -⟩ := here
      simp [opened, Desk.opened] at ht
    | inbox key =>
      obtain ⟨box, hbox, -⟩ := here
      simp [opened] at hbox
    | program => cases here with
      | collected told => cases told
      | yielded told => cases told
    | pump | falling | fallen => cases here
  fallen h hh := by cases hh
  comes key n comes := by
    cases comes with
    | sending busy => cases busy
    | telling busy => cases busy
  apart h := by cases h
  last h := by cases h

section

variable (sound : Sound tr o) (next : Step tr o es o')

include sound

/-- An inbox's key has been given out. -/
theorem Sound.key_lt {key : Nat} {box : Inbox} (h : o.demux.inboxes[key]? = some box) :
    key < o.demux.nextKey :=
  sound.fit.count ▸ sound.fit.keys key box h

/-- A handle that belongs to its stream gets what is told of another one only. -/
theorem Sound.id_of_opened {h : Handle} (given : Given tr.made h) {id : StreamId}
    (ho : o.demux.opened[id]? = some h.key) : id = h.id :=
  Option.some.inj ((sound.fit.opened id _ ho).symm.trans given)

/-- A stream is taken off for good. -/
private theorem Sound.unfed_erase {id : StreamId} {key : Nat}
    (ho : o.demux.opened[id]? = some key) :
    Demux.Unfed { o.demux with opened := o.demux.opened.erase id } key := by
  intro other hother
  obtain ⟨hopen, hne⟩ := Demux.opened_of_erase hother
  exact hne (sound.fit.eq_of_opened hopen ho)

include next

/-- A step keeps the inboxes in line with the handles made. -/
private theorem Sound.step_fit : Fit (OfficeTrace.made (tr ++ es)) o'.demux := by
  rw [OfficeTrace.made_append]
  have hquiet : ∀ {d : Demux}, Fit tr.made d → Fit (tr.made ++ []) d := fun fit => by
    rwa [List.append_nil]
  have fit := sound.fit
  have hput : ∀ {k : Nat} {n : Notification ClientValue} {box : Inbox},
      o.demux.inboxes[k]? = some box → (∀ h ∈ n.handles, Given tr.made h) →
      Fit tr.made { o.demux with
        inboxes := o.demux.inboxes.insert k { box with unread := box.unread ++ [n] } } :=
    fun {k n box} found given => fit.fill found fun h hh =>
      (mem_held_concat.1 hh).elim (fit.unread k box found h) (given h)
  cases next with
  | pump next =>
    cases next with
    | @attach _ _ id => exact fit.introduce id
    | @route id _ _ n =>
      refine hquiet ?_
      cases n.terminal with
      | true => exact fit.shut id
      | false => exact fit
    -- What is sent was made before: the pump holds nothing else.
    | @send key n box busy found =>
      refine hquiet (hput found fun h hh => sound.given h .pump ?_)
      show h ∈ o.pumping.handles
      rwa [busy]
    | _ => exact hquiet fit
  | use next =>
    cases next with
    | call =>
      rw [OfficeTrace.made_map_call]
      exact hquiet fit
    | @read h r d _ reads =>
      have hnone : OfficeTrace.made ((Demux.Reading.notification? r).map (.yielded h)).toList = [] := by
        cases Demux.Reading.notification? r <;> rfl
      rw [hnone]
      exact hquiet (fit.reads reads)
    | @release h => exact hquiet (fit.release h.id)
    | @discard h _ falls => exact hquiet (fit.discard (sound.fallen h falls))
    | part => exact hquiet fit.takeReleased
    | _ => exact hquiet fit
  | leave => exact hquiet fit
  -- A disconnection shuts streams and makes nothing; its notice holds no handle.
  | disconnect next =>
    cases next with
    | @strike _ _ id => exact hquiet (fit.shut id)
    | tell _ found => exact hquiet (hput found fun h hh => by cases hh)
    | _ => exact hquiet fit

/-- A step leaves an inbox that can still be fed without an end. -/
private theorem Sound.step_flows : o'.demux.Flows := by
  intro id key box' ho hbox'
  have fills := next.fills key
  rw [hbox'] at fills
  generalize hb : o.demux.inboxes[key]? = box? at fills
  -- Either the stream was open before, and then its inbox had no end in it, or it is new.
  rcases next.opened ho with hold | ⟨rfl, rfl⟩
  · have hflow := fun box hb => sound.flows id key box hold hb
    cases fills with
    | rest => exact hflow box' hb
    | fresh _ new =>
      have := sound.fit.key_lt hold
      omega
    | @sent box n comes =>
      obtain ⟨hdone, hplain⟩ := hflow box hb
      refine ⟨hdone, fun m hm => ?_⟩
      rcases List.mem_append.1 hm with hm | hm
      · exact hplain m hm
      · -- An end comes only when the stream is open no more.
        rw [List.mem_singleton.1 hm]
        exact Bool.eq_false_iff.2 fun last => (sound.comes key n comes.brings).2 last id hold
    | @yielded _ box n unread _ _ _ waiting =>
      obtain ⟨-, hplain⟩ := hflow box hb
      rw [waiting] at hplain
      exact ⟨hplain n List.mem_cons_self, fun m hm => hplain m (List.mem_cons_of_mem n hm)⟩
    -- A handle ends by itself only when its stream is closed, and this one is open.
    | @ended h _ hkey got _ _ unfed =>
      subst hkey
      exact absurd (sound.id_of_opened (sound.given h .program got) hold ▸ hold) unfed
  · -- The handle has just been made.
    cases fills with
    | rest => exact absurd (sound.key_lt hb) (Nat.lt_irrefl _)
    | fresh => exact ⟨rfl, by simp⟩

/-- After a step every handle in some place was made. -/
private theorem Sound.step_given {h : Handle} {p : Place} (here : o'.At (tr ++ es) h p) :
    Given (OfficeTrace.made (tr ++ es)) h := by
  rw [OfficeTrace.made_append]
  rcases next.from here with here | ⟨-, rfl⟩ | ⟨q, -, here⟩
  · exact (sound.given h p here).mono _
  · obtain ⟨hkey, -⟩ := next.introduced rfl
    show (tr.made ++ [h.id])[h.key]? = some h.id
    rw [hkey, sound.fit.count]
    exact List.getElem?_concat_length
  · exact (sound.given h q here).mono _

/-- After a step a handle that fell out of the map is fed no more. -/
private theorem Sound.step_fallen {h : Handle} (falls : h ∈ o'.fallen) : o'.demux.Unfed h.key := by
  have hlt : ∀ {p}, o.At tr h p → h.key < o.demux.nextKey := fun here => by
    rw [sound.fit.count]
    exact (List.getElem?_eq_some_iff.1 (sound.given h _ here)).1
  rcases next.from_fallen falls with falls | ⟨falls, -, heq⟩
  · exact next.unfed (hlt (p := .fallen) falls) (sound.fallen h falls)
  · intro id ho
    rw [heq] at ho
    obtain ⟨hopen, hne⟩ := Demux.opened_release_eq _ ho
    exact hne (sound.id_of_opened (sound.given h .falling falls) hopen)

/-- After a step what is on its way goes to an inbox made, and an end to one that is fed no more. -/
private theorem Sound.step_comes {key : Nat} {n : Notification ClientValue}
    (comes : o'.Brings key n) :
    key < (OfficeTrace.made (tr ++ es)).length ∧ (n.terminal = true → o'.demux.Unfed key) := by
  have hlength : tr.made.length ≤ (OfficeTrace.made (tr ++ es)).length := by
    rw [OfficeTrace.made_append, List.length_append]
    exact Nat.le_add_right ..
  have hold : o.Brings key n → key < (OfficeTrace.made (tr ++ es)).length ∧
      (n.terminal = true → o'.demux.Unfed key) := fun comes => by
    obtain ⟨hlt, hlast⟩ := sound.comes key n comes
    exact ⟨by omega, fun last => next.unfed (sound.fit.count ▸ hlt) (hlast last)⟩
  cases comes with
  | sending busy =>
    rcases next.pumping with hsame | next
    · exact hold (.sending (hsame ▸ busy))
    · cases next with
      -- An end closes the stream before it is sent, so when it comes nothing feeds the inbox.
      | @route id _ _ n' key' _ _ _ found =>
        obtain ⟨rfl, rfl⟩ := Pumping.sending.injEq .. ▸ busy
        have := sound.fit.key_lt found
        rw [sound.fit.count] at this
        refine ⟨by omega, fun last => ?_⟩
        show Demux.Unfed { o.demux with
          opened := if n'.terminal then o.demux.opened.erase id else o.demux.opened } key'
        rw [if_pos last]
        exact sound.unfed_erase found
      | _ => cases busy
  -- A disconnection too takes the stream off before it tells the handle.
  | @telling i reason left busy =>
    rcases next.disconnection busy with hsame | ⟨hasked, -⟩ | next
    · exact hold (.telling hsame)
    · cases hasked
    · obtain ⟨id, _, -, found, -, -, -, heq⟩ := next.telling busy
      have := sound.fit.key_lt found
      rw [sound.fit.count] at this
      exact ⟨by omega, fun _ => heq ▸ sound.unfed_erase found⟩

/-- After a step no two disconnects tell one handle. -/
private theorem Sound.step_apart {i i' : Nat} {reason reason' : String} {key : Nat}
    {left left' : List StreamId}
    (h : o'.disconnections[i]? = some { reason, stage := .telling key left })
    (h' : o'.disconnections[i']? = some { reason := reason', stage := .telling key left' }) :
    i = i' := by
  -- A stream that is taken off is one of which no handle is told.
  have hclash : ∀ {i : Nat} {id : StreamId} {reason : String} {left : List StreamId},
      o.demux.opened[id]? = some key →
        o.disconnections[i]? ≠ some { reason, stage := .telling key left } := fun found busy =>
    (sound.comes key _ (.telling busy)).2 rfl _ found
  rcases next.disconnection h with hold | ⟨hasked, -⟩ | hnew
  · rcases next.disconnection h' with hold' | ⟨hasked, -⟩ | hnew'
    · exact sound.apart hold hold'
    · cases hasked
    · obtain ⟨id, _, -, found, -⟩ := hnew'.telling h'
      exact absurd hold (hclash found)
  · cases hasked
  · obtain ⟨id, _, hes, found, -⟩ := hnew.telling h
    rcases next.disconnection h' with hold' | ⟨hasked, -⟩ | hnew'
    · exact absurd hold' (hclash found)
    · cases hasked
    · obtain ⟨id', _, hes', -⟩ := hnew'.telling h'
      exact (OfficeEvent.struck.injEq .. ▸ (List.cons.inj (hes.symm.trans hes')).1).1

/-- After a step the pump does not send the end of a handle a disconnect is telling. -/
private theorem Sound.step_last {key : Nat} {n : Notification ClientValue}
    (h : o'.pumping = .sending key n) (last : n.terminal = true) {i : Nat} {reason : String}
    {left : List StreamId} :
    o'.disconnections[i]? ≠ some { reason, stage := .telling key left } := by
  intro h'
  -- Whichever of the two comes second found the stream open, which the first had closed.
  rcases next.pumping with hsame | hnew
  · rcases next.disconnection h' with hold' | ⟨hasked, -⟩ | hnew'
    · exact sound.last (hsame ▸ h) last hold'
    · cases hasked
    · obtain ⟨id, _, -, found, -⟩ := hnew'.telling h'
      exact (sound.comes key n (.sending (hsame ▸ h))).2 last id found
  · cases hnew with
    | @route id _ _ _ _ _ _ _ found =>
      obtain ⟨rfl, rfl⟩ := Pumping.sending.injEq .. ▸ h
      exact (sound.comes _ _ (.telling h')).2 rfl id found
    | _ => cases h

/-- A step keeps an office sound. -/
private theorem Sound.step : Sound (tr ++ es) o' where
  fit := sound.step_fit next
  flows := sound.step_flows next
  given _ _ := sound.step_given next
  fallen _ := sound.step_fallen next
  comes _ _ := sound.step_comes next
  apart := sound.step_apart next
  last := sound.step_last next

end

/-- Any steps keep an office sound. -/
theorem Sound.goes (sound : Sound tr o) (goes : Goes tr o es o') : Sound (tr ++ es) o' := by
  induction goes with
  | refl => rwa [List.append_nil]
  | step _ next ih =>
    rw [← List.append_assoc]
    exact ih.step next

/-- Every run keeps an office sound. -/
theorem Run.sound (run : Run serverQueue replyTo tr o) : Sound tr o := by
  have sound := (sound_opened serverQueue replyTo).goes run
  rwa [List.nil_append] at sound

end Office

end StreamRpc
