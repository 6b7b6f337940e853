import StreamRpc.Proofs.Client.Phases

/-! # A session that has ended stays ended

However the operations on a session overlap with its ending: every call that somebody waited for has
been ended, every handle whose stream was open has been told, unless the stream was closed in another
way, and whatever happens later is without effect.

* `Office.session_stays_over`  what holds when a disconnection has finished
* `Office.end_missed`          what does not hold of every run
-/

namespace StreamRpc

open Demux (Given)
open Client (callAt)

namespace Office

/-- However the operations on a session overlap with its ending, and for whatever reason it ends:
    there is a moment at which it is looked which streams are open, such that

    * a handle whose stream was open when the ending began yields what it had not read then, perhaps
      more of its stream, then the failure, and then nothing, unless something else has closed the
      stream in the meantime;

    and whatever happens after the ending has finished:

    * the session is closed, and no other ending begins;
    * a call that somebody waited for when the ending began comes to what first ended it before that
      moment: the failure with a reason for which the session ends, unless it was answered or given
      up before its turn;
    * no call comes to anything that was not decided at that moment;
    * nothing more is passed on to a handle that had been made by then, and it yields what was left
      for it, unless something was still on its way to it;
    * a program gets only handles that had been made by then, and no stream is open when nothing is
      on its way, provided that none of these handles was passed anything after that moment and
      before the ending has finished that would hand over a new one, and for the streams that no
      observation introduces the stream that it is about. -/
theorem session_stays_over {serverQueue replyTo reason : String} {j : Nat} {tr es : OfficeTrace}
    {asked finished : Office}
    (ending : Ending serverQueue replyTo reason j tr es asked finished) :
    ∃ es₁ es₂ looked, es = es₁ ++ es₂ ∧
      Phases serverQueue replyTo reason j tr es₁ es₂ asked looked finished ∧
      (∀ h, asked.demux.fed h = true → (∃ x ∈ es, x.Closes h ∧ x ≠ .struck j h.id) ∨
        ∃ pre, asked.demux.unreadOf h <+: pre ∧ (∀ n ∈ pre, n.terminal = false) ∧
          ∀ es' o, Goes (tr ++ es) finished es' o →
            Finishes h (pre ++ [.error { kind := .disconnected, message := reason }]) (es ++ es') o) ∧
      ∀ es' o, Goes (tr ++ es) finished es' o → o.desk.correlator.numbered ≤ 2 ^ 64 →
        (o.desk.correlator.closed = true ∧
          o.disconnections.length = finished.disconnections.length) ∧
        (∀ id, .call (.given id) ∈ tr → (asked.desk.correlator.collect id).1 = .pending →
          ∃ how later, es₁.calls.attempts id = (how, true) :: later ∧
            (∀ e, how = .failure e → ∃ x ∈ o.disconnections, e = .connectionLost x.reason) ∧
            o.desk.correlator.Fate id (OfficeTrace.calls (es ++ es'))) ∧
        (∀ id, .call (.given id) ∈ tr ++ es ++ es' →
          ∃ how, .call (.attempted id how true) ∈ tr ++ es₁ ∧
            (∀ r, .call (.collected id r) ∈ es₂ ++ es' → r = how.outcome) ∧
            (o.desk.correlator.collect id).1 ≠ .pending) ∧
        (∀ h, Given (OfficeTrace.made (tr ++ es₁)) h →
          (∀ id x, .routed id x (some h.key) ∉ es') ∧
          ((∀ n, ¬finished.Brings h.key n) → es'.yields h.key <+: finished.demux.unreadOf h ∧
            (o.demux.held h = true →
              es'.yields h.key ++ o.demux.unreadOf h = finished.demux.unreadOf h))) ∧
        (es₂.Calm looked.demux.nextKey →
          (∀ h, OfficeTrace.Got (tr ++ es ++ es') h → Given (OfficeTrace.made (tr ++ es₁)) h) ∧
          (OfficeTrace.Foreign (es₂ ++ es') → o.Quiet → ∀ id, o.demux.isOpen id = false)) := by
  obtain ⟨es₁, es₂, looked, rfl, phases⟩ := ending.phases
  have before := phases.run.sound.goes phases.sweeps
  refine ⟨es₁, es₂, looked, rfl, phases, fun h fed => ?_, fun es' o after few => ?_⟩
  · rw [← List.append_assoc]
    -- Either something else closed the stream while the session ended, or the handle was told.
    rcases phases.finishes_handle fed with closed | ⟨pre, begun, plain, told⟩
    · exact .inl closed
    · exact .inr ⟨pre, begun, plain, fun es' o after => told after⟩
  · rw [← List.append_assoc] at after ⊢
    have numbers : o.desk.makings.length = o.desk.correlator.numbered :=
      ((ending.run.trans ending.goes).trans (by rwa [List.append_assoc] at after)).calls.length_makings
    rw [← numbers] at few
    have closed := (ending.run.leaving.goes ending.goes).closed j _ ending.finishes nofun
    refine ⟨⟨after.calls.closed closed, after.length_disconnections closed⟩,
      fun id given waits => phases.ended after few given waits,
      fun id given => phases.decided after few given, fun h given => phases.silent after given,
      fun calm => ⟨fun h got => ?_, fun foreign quiet id => phases.shut after few calm foreign quiet id⟩⟩
    -- The handle is old, and belongs to the stream that it was made for.
    have hlt := (phases.walled after few calm).program h got
    have given := ((before.goes phases.strikes).goes after).given h .program got
    rw [before.fit.count] at hlt
    rw [Given, List.append_assoc (tr ++ es₁), OfficeTrace.made_append,
      List.getElem?_append_left hlt] at given
    exact given

/-! ## An ending that overlaps with an answer

The answer to a call has come, and the pump has made the handle for the stream in it.  Then the server
departs, and the call is failed before the pump gets to it. -/

namespace Departed

/-- The handle for the stream in the answer. -/
def handle : Handle := ⟨0, ⟨0⟩⟩

/-- The answer. -/
def message : ServerMessage :=
  .reply ⟨0⟩ (.ok (.stream ⟨0⟩))

/-- The calls, when one has been made. -/
def waiting : Correlator :=
  ({ serverQueue := "server", replyTo := "client" } : Correlator).reserve.2

/-- The streams, when the answer has come. -/
def streams : Demux :=
  (({} : Demux).introduce ⟨0⟩).2

/-- The ticket of the call has been handed out. -/
def called : Office where
  desk := { correlator := waiting, makings := [.over (.ok ())] }

/-- The pump has made the handle, and looks for the call next. -/
def ready : Office where
  desk := { correlator := waiting, makings := [.over (.ok ())] }
  demux := streams
  pumping := .attaching message [handle]

/-- A call is made. -/
private theorem run_called :
    ∃ tr, Run "server" "client" tr called ∧ .call (.given (callAt 0)) ∈ tr := by
  have reserved : Goes [] (opened "server" "client") [.call (.reserved ⟨0⟩)]
      { desk := { correlator := waiting, makings := [.reserved "echo" []] } } :=
    Goes.refl.step (.use (.call (.reserve _ "echo" []) rfl (by simp)))
  have permitted : Goes [] (opened "server" "client") _
      { desk := { correlator := waiting, makings := [.permitted "echo" []] } } :=
    reserved.step (.use (.call (.permit (k := 0) rfl) rfl (by simp)))
  have posted := Desk.Step.post (b := { correlator := waiting, makings := [.permitted "echo" []] })
    (k := 0) rfl Desk.serverThere
  rw [Desk.post_serverThere rfl rfl] at posted
  -- Nothing is left over when the request is sent.
  have hquiet : (Desk.postEvents waiting (callAt 0) "echo" []).flatMap
      (CallEvent.leftover waiting) ++ [] = [] := by
    unfold Desk.postEvents
    split <;> rfl
  have sent := permitted.step (.use (.call posted rfl fun id result found => by
    unfold Desk.postEvents
    split <;> simp))
  rw [hquiet] at sent
  have given : Goes [] (opened "server" "client") _ called :=
    sent.step (.use (.call (.give (k := 0) rfl) rfl (by simp)))
  exact ⟨_, given, by simp⟩

/-- The answer comes, and the pump makes the handle in it. -/
private theorem run_ready :
    ∃ tr, Run "server" "client" tr ready ∧ .call (.given (callAt 0)) ∈ tr := by
  obtain ⟨tr, run, given⟩ := run_called
  have took := run.step (.pump (.take rfl message))
  exact ⟨_, took.step (.pump (@Pumps.attach _ message [] ⟨0⟩ rfl rfl)), by simp [given]⟩

/-- The session ends for this reason. -/
def reason : String := "server departed"

/-- The disconnection has begun. -/
def asked : Office :=
  { ready with disconnections := [{ reason }] }

/-- The call has been failed. -/
def failed : Correlator :=
  waiting.close.fail (.connectionLost reason) ⟨0⟩

/-- The disconnection has finished, and the handle falls. -/
def finished : Office where
  desk :=
    { correlator := failed
      makings := [.over (.ok ())]
      sweeps := [{ error := .connectionLost reason, left := some [] }] }
  demux := { streams with
    opened := streams.opened.erase ⟨0⟩
    inboxes := streams.inboxes.insert 0 { unread := [.error (Disconnection.failure reason)] } }
  disconnections := [{ reason, stage := .finished }]
  falling := [handle]

/-- What can be told of the ending. -/
def story : OfficeTrace :=
  [.call (.attempted ⟨0⟩ (.failure (.connectionLost reason)) true),
    .call (.attempted ⟨0⟩ (.answer (.ok (.stream handle))) false), .struck 0 ⟨0⟩]

/-- The call is failed before the pump gets to it, and then the stream is taken off. -/
private theorem goes_finished (tr : OfficeTrace) : Goes tr asked story finished := by
  have closed : Goes tr asked []
      { ready with
        desk :=
          { correlator := waiting.close
            makings := [.over (.ok ())]
            sweeps := [{ error := .connectionLost reason }] }
        disconnections := [{ reason, stage := .calls 0 }] } :=
    Goes.refl.step (.disconnect (i := 0) (.close rfl))
  have looked : Goes tr asked []
      { ready with
        desk :=
          { correlator := waiting.close
            makings := [.over (.ok ())]
            sweeps := [{ error := .connectionLost reason, left := some [⟨0⟩] }] }
        disconnections := [{ reason, stage := .calls 0 }] } :=
    closed.step (.use (.call (.look (i := 0) rfl) rfl (by simp)))
  have lost : Goes tr asked [.call (.attempted ⟨0⟩ (.failure (.connectionLost reason)) true)]
      { ready with
        desk :=
          { correlator := failed
            makings := [.over (.ok ())]
            sweeps := [{ error := .connectionLost reason, left := some [] }] }
        disconnections := [{ reason, stage := .calls 0 }] } :=
    looked.step (.use (.call (@Desk.Step.fail _ 0 _ _ ⟨0⟩ rfl List.mem_cons_self) rfl (by simp)))
  have found : Goes tr asked [.call (.attempted ⟨0⟩ (.failure (.connectionLost reason)) true)]
      { ready with
        desk :=
          { correlator := failed
            makings := [.over (.ok ())]
            sweeps := [{ error := .connectionLost reason, left := some [] }] }
        disconnections := [{ reason, stage := .streams [⟨0⟩] }] } :=
    lost.step (.disconnect (i := 0) (.look rfl rfl))
  -- The reply comes after the failure: its call is gone, and the handle in it falls.
  have answered : Goes tr asked [.call (.attempted ⟨0⟩ (.failure (.connectionLost reason)) true),
        .call (.attempted ⟨0⟩ (.answer (.ok (.stream handle))) false)]
      { desk :=
          { correlator := failed
            makings := [.over (.ok ())]
            sweeps := [{ error := .connectionLost reason, left := some [] }] }
        demux := streams
        disconnections := [{ reason, stage := .streams [⟨0⟩] }]
        falling := [handle] } :=
    found.step (.pump (.answer rfl rfl rfl))
  -- The stream was on the list of the disconnection from before.
  have struck := answered.step (.disconnect
    (@Disconnects.strike _ 0 reason _ ⟨0⟩ 0 rfl List.mem_cons_self rfl))
  have told := struck.step (.disconnect
    (@Disconnects.tell _ 0 reason [] 0 {} rfl rfl))
  exact told.step (.disconnect (@Disconnects.finish _ 0 reason rfl))

/-- The handle has been dropped. -/
def dropped : Office :=
  { finished with
    demux := { finished.demux with inboxes := finished.demux.inboxes.erase 0 }
    falling := [] }

/-- The handle is dropped after the disconnection has finished. -/
private theorem goes_dropped (tr : OfficeTrace) : Goes tr finished [.released handle] dropped := by
  have released : Goes tr finished [.released handle]
      { finished with falling := [], fallen := [handle] } :=
    Goes.refl.step (.use (@Uses.release _ _ handle
      { unread := [.error (Disconnection.failure reason)] } List.mem_cons_self rfl))
  exact released.step (.use (@Uses.discard _ _ handle
    { unread := [.error (Disconnection.failure reason)] } List.mem_cons_self rfl))

/-- Nothing is on its way when the handle has been dropped. -/
private theorem quiet : dropped.Quiet where
  pumping := rfl
  falling := rfl
  fallen := rfl
  makings k m hm := by
    match k, hm with
    | 0, hm => exact ⟨_, (Option.some.inj hm).symm⟩

end Departed

/-- A call whose answer had already come is lost when the server departs; the stream in the answer
    fails, though nobody has its handle yet; and when this has been dropped, no stream is open. -/
theorem session_stays_over_departed : ∃ tr es asked finished es' o,
    Ending "server" "client" "server departed" 0 tr es asked finished ∧
    (∃ h pre, asked.demux.fed h = true ∧ Finishes h
      (pre ++ [.error { kind := .disconnected, message := "server departed" }]) es finished) ∧
    Goes (tr ++ es) finished es' o ∧
    (o.desk.correlator.collect (callAt 0)).1 =
      .outcome (.error (.connectionLost "server departed")) ∧
    ∀ id, o.demux.isOpen id = false := by
  obtain ⟨tr, run, given⟩ := Departed.run_ready
  have run' : Run "server" "client" tr Departed.asked := by
    have asked := run.step (.leave rfl Departed.reason)
    rwa [List.append_nil] at asked
  have ending : Ending "server" "client" Departed.reason 0 tr Departed.story Departed.asked
      Departed.finished :=
    { run := run', begins := rfl, goes := Departed.goes_finished tr, finishes := rfl }
  obtain ⟨es₁, es₂, looked, hes, -, told, rest⟩ := session_stays_over ending
  have after := Departed.goes_dropped (tr ++ Departed.story)
  obtain ⟨-, calls, -, -, calm⟩ := rest _ _ after (by decide)
  -- Nothing is passed on to any handle.
  have unrouted : ∀ {id x key?}, .routed id x key? ∉ es₂ ++ [.released Departed.handle] :=
    fun {id x key?} told => by
      rcases List.mem_append.1 told with told | told
      · have told := List.mem_append_right es₁ told
        rw [← hes] at told
        simp [Departed.story] at told
      · simp at told
  refine ⟨tr, _, _, _, _, _, ending, ⟨Departed.handle, ?_⟩, after, ?_, ?_⟩
  -- The only event that closes a stream here is the disconnection's own.
  · rcases told Departed.handle rfl with ⟨x, hx, closes, another⟩ | ⟨pre, -, -, reads⟩
    · simp only [Departed.story, List.mem_cons, List.not_mem_nil, or_false] at hx
      rcases hx with rfl | rfl | rfl
      · cases closes
      · cases closes
      · exact absurd rfl another
    · have finishes := reads [] _ .refl
      rw [List.append_nil] at finishes
      exact ⟨pre, rfl, finishes⟩
  · obtain ⟨-, -, -, -, fate⟩ := calls (callAt 0) given rfl
    cases fate with
    | pending untried => cases untried
    -- Nobody has collected the outcome or dropped the call, so it can be seen.
    | resolved how later first _ _ shown =>
      obtain ⟨heq, -⟩ := List.cons.inj first
      obtain ⟨rfl, -⟩ := Prod.mk.inj heq
      rcases shown with ⟨taken, -⟩ | ⟨-, shown | ⟨dropped, -⟩⟩
      · cases taken
      · exact shown
      · have dropped := OfficeTrace.mem_calls.1 dropped
        simp [Departed.story] at dropped
  · exact (calm fun id x key told => absurd (List.mem_append_left _ told) unrouted).2
      (fun id x key? told => absurd told unrouted) Departed.quiet

namespace Missed

/-- Nobody has made a call. -/
def silent : Correlator :=
  { serverQueue := "server", replyTo := "client" }

/-- A session of which it has been asked whether it has ended. -/
def asked (c : Correlator) (makings : List Making) (d : Demux) (pumping : Pumping) : Office where
  desk := { correlator := c, makings }
  demux := d
  pumping := pumping
  disconnections := [{ reason := "server departed" }]

/-- A session of which all calls have been failed. -/
def ending (c : Correlator) (makings : List Making) (d : Demux) (pumping : Pumping)
    (stage : Disconnecting) : Office where
  desk :=
    { correlator := c.close
      makings
      sweeps := [{ error := .connectionLost "server departed", left := some [] }] }
  demux := d
  pumping := pumping
  disconnections := [{ reason := "server departed", stage }]

/-- If no call is pending, it is soon looked which streams are open. -/
private theorem goes_looked (tr : OfficeTrace) {c : Correlator} (unused : c.pending.toList = [])
    (makings : List Making) (d : Demux) (pumping : Pumping) :
    Goes tr (asked c makings d pumping) [] (ending c makings d pumping (.streams d.opened.keys)) := by
  have closed : Goes tr (asked c makings d pumping) []
      { asked c makings d pumping with
        desk :=
          { correlator := c.close
            makings
            sweeps := [{ error := .connectionLost "server departed" }] }
        disconnections := [{ reason := "server departed", stage := .calls 0 }] } :=
    Goes.refl.step (.disconnect (i := 0) (.close rfl))
  have looked := closed.step (.use (.call (.look (i := 0) rfl) rfl (by simp)))
  -- No call is pending, so the sweep of the calls is over at once.
  have hpending : c.close.pending.toList = [] := unused
  simp only [hpending] at looked
  exact looked.step (.disconnect (i := 0) (.look rfl rfl))

/-- A stream hands over itself. -/
def own : ServerMessage :=
  .observation ⟨5⟩ (.next (.stream ⟨5⟩))

/-- There is a stream, and its handle has not read what it gets. -/
def fed (id : StreamId) (n : Notification ClientValue) : Demux :=
  { (({} : Demux).introduce id).2 with
    inboxes := (({} : Demux).introduce id).2.inboxes.insert 0 { unread := [n] } }

/-- The session ends before anything came. -/
private theorem own_after_end : Ending "server" "client" "server departed" 0 [] []
      (asked silent [] {} .idle) (ending silent [] {} .idle .finished) ∧
    ∃ es, Goes [] (ending silent [] {} .idle .finished) es
      (ending silent [] (fed ⟨5⟩ (.next (.stream ⟨0, ⟨5⟩⟩))) .idle .finished) := by
  refine ⟨{ run := ?_, begins := rfl, goes := ?_, finishes := rfl }, ?_⟩
  · exact Goes.refl.step (.leave rfl "server departed")
  · exact (goes_looked [] rfl [] {} .idle).step
      (.disconnect (@Disconnects.finish _ 0 "server departed" rfl))
  -- The disconnection is over; the pump has one more observation, which introduces its own stream.
  · have took : Goes [] (ending silent [] {} .idle .finished) _
        (ending silent [] {} (.attaching own []) .finished) := Goes.refl.step (.pump (.take rfl own))
    have attached : Goes [] (ending silent [] {} .idle .finished) _
        (ending silent [] (({} : Demux).introduce ⟨5⟩).2 (.attaching own [⟨0, ⟨5⟩⟩]) .finished) :=
      took.step (.pump (@Pumps.attach _ own [] ⟨5⟩ rfl rfl))
    have routed : Goes [] (ending silent [] {} .idle .finished) _
        (ending silent [] (({} : Demux).introduce ⟨5⟩).2 (.sending 0 (.next (.stream ⟨0, ⟨5⟩⟩)))
          .finished) :=
      attached.step (.pump (@Pumps.route _ ⟨5⟩ _ _ (.next (.stream ⟨0, ⟨5⟩⟩)) 0 rfl rfl rfl rfl))
    exact ⟨_, routed.step (.pump (@Pumps.send _ 0 (.next (.stream ⟨0, ⟨5⟩⟩)) {} rfl rfl))⟩

/-- An answer introduces one stream twice. -/
def twice : ServerMessage :=
  .reply ⟨0⟩ (.ok (.list [.stream ⟨5⟩, .stream ⟨5⟩]))

/-- There are two handles for one stream. -/
def doubled : Demux :=
  ((({} : Demux).introduce ⟨5⟩).2.introduce ⟨5⟩).2

/-- The streams when the disconnection has told the handle that was made last. -/
def struck (d : Demux) (key : Nat) (unread : List (Notification ClientValue)) : Demux :=
  { d with
    opened := d.opened.erase ⟨5⟩
    inboxes := d.inboxes.insert key
      { unread := unread ++ [.error (Disconnection.failure "server departed")] } }

/-- If one stream is open, its handle is told. -/
private theorem goes_struck (tr : OfficeTrace) (c : Correlator) (makings : List Making) {d : Demux}
    (pumping : Pumping) {key : Nat} {unread : List (Notification ClientValue)}
    (opened : d.opened[(⟨5⟩ : StreamId)]? = some key) (found : d.inboxes[key]? = some { unread }) :
    Goes tr (ending c makings d pumping (.streams [⟨5⟩])) [.struck 0 ⟨5⟩]
      (ending c makings (struck d key unread) pumping .finished) := by
  have struck := (@Goes.refl tr _).step (.disconnect
    (@Disconnects.strike (ending c makings d pumping (.streams [⟨5⟩])) 0 "server departed" [⟨5⟩] ⟨5⟩
      key rfl List.mem_cons_self opened))
  -- The stream is taken off first; only then is its handle told.
  have told := struck.step (.disconnect
    (@Disconnects.tell _ 0 "server departed" [] key { unread } rfl found))
  exact told.step (.disconnect (@Disconnects.finish _ 0 "server departed" rfl))

/-- The session ends while the pump holds the handles. -/
private theorem told_once : ∃ tr, tr.made = [⟨5⟩, ⟨5⟩] ∧
    Ending "server" "client" "server departed" 0 tr [.struck 0 ⟨5⟩]
      (asked silent [] doubled (.attaching twice [⟨0, ⟨5⟩⟩, ⟨1, ⟨5⟩⟩]))
      (ending silent [] (struck doubled 1 []) (.attaching twice [⟨0, ⟨5⟩⟩, ⟨1, ⟨5⟩⟩]) .finished) := by
  have took : Run "server" "client" [.took twice]
      { opened "server" "client" with pumping := .attaching twice [] } :=
    Goes.refl.step (.pump (.take rfl twice))
  have first : Run "server" "client" [.took twice, .introduced ⟨0, ⟨5⟩⟩]
      { opened "server" "client" with
        demux := (({} : Demux).introduce ⟨5⟩).2
        pumping := .attaching twice [⟨0, ⟨5⟩⟩] } :=
    took.step (.pump (@Pumps.attach _ twice [] ⟨5⟩ rfl rfl))
  have second : Run "server" "client"
      [.took twice, .introduced ⟨0, ⟨5⟩⟩, .introduced ⟨1, ⟨5⟩⟩]
      { opened "server" "client" with
        demux := doubled
        pumping := .attaching twice [⟨0, ⟨5⟩⟩, ⟨1, ⟨5⟩⟩] } :=
    first.step (.pump (@Pumps.attach _ twice [⟨0, ⟨5⟩⟩] ⟨5⟩ rfl rfl))
  refine ⟨_, rfl, { run := second.step (.leave rfl "server departed"), begins := rfl, goes := ?_,
                    finishes := rfl }⟩
  -- The stream is open for the second handle only.
  exact (@goes_looked _ silent rfl [] doubled _).trans (goes_struck _ silent [] _ rfl rfl)

/-- The answer to a call. -/
def answer : ServerMessage :=
  .reply ⟨0⟩ (.ok (.stream ⟨5⟩))

/-- The calls, when the answer has been collected. -/
def collected : Correlator :=
  ((Departed.waiting.resolve ⟨0⟩ (.ok (.stream ⟨0, ⟨5⟩⟩))).2.2.collect (callAt 0)).2

/-- A program has the handle for the stream. -/
private theorem run_collected : ∃ tr, .call (.collected (callAt 0) (.ok (.stream ⟨0, ⟨5⟩⟩))) ∈ tr ∧
    Run "server" "client" tr
      (asked collected [.over (.ok ())] (({} : Demux).introduce ⟨5⟩).2 .idle) := by
  obtain ⟨tr, run, -⟩ := Departed.run_called
  have took : Run "server" "client" _
      { Departed.called with pumping := .attaching answer [] } := run.step (.pump (.take rfl answer))
  have attached : Run "server" "client" _
      { Departed.called with
        demux := (({} : Demux).introduce ⟨5⟩).2
        pumping := .attaching answer [⟨0, ⟨5⟩⟩] } :=
    took.step (.pump (@Pumps.attach _ answer [] ⟨5⟩ rfl rfl))
  have answered : Run "server" "client" _
      { Departed.called with
        desk :=
          { correlator := (Departed.waiting.resolve ⟨0⟩ (.ok (.stream ⟨0, ⟨5⟩⟩))).2.2
            makings := [.over (.ok ())] }
        demux := (({} : Demux).introduce ⟨5⟩).2 } :=
    attached.step (.pump (@Pumps.answer _ ⟨0⟩ _ _ (.ok (.stream ⟨0, ⟨5⟩⟩)) rfl rfl rfl))
  -- The program has the handle before the server is seen to leave.
  have told : Desk.Step _ [.collected (callAt 0) (.ok (.stream ⟨0, ⟨5⟩⟩))] _ := .collect (b :=
    { correlator := (Departed.waiting.resolve ⟨0⟩ (.ok (.stream ⟨0, ⟨5⟩⟩))).2.2
      makings := [.over (.ok ())] }) (k := 0) rfl
  have taken := answered.step (.use (.call told rfl (by simp)))
  exact ⟨_, by simp, taken.step (.leave rfl "server departed")⟩

/-- The stream hands over another one. -/
def another : ServerMessage :=
  .observation ⟨5⟩ (.next (.stream ⟨7⟩))

/-- What the first handle gets. -/
def handed : Notification ClientValue :=
  .next (.stream ⟨1, ⟨7⟩⟩)

/-- The streams, when the second has been introduced and handed over. -/
def passed : Demux :=
  { ((({} : Demux).introduce ⟨5⟩).2.introduce ⟨7⟩).2 with
    inboxes := ((({} : Demux).introduce ⟨5⟩).2.introduce ⟨7⟩).2.inboxes.insert 0
      { unread := [handed] } }

/-- The streams, when the first handle has yielded the second. -/
def yielded : Demux :=
  { struck passed 0 [handed] with
    inboxes := (struck passed 0 [handed]).inboxes.insert 0
      { unread := [.error (Disconnection.failure "server departed")], done := handed.terminal } }

/-- The pump passes on another stream after it was looked which are open, and before the first is
    taken off. -/
private theorem passed_on : ∃ tr, .call (.collected (callAt 0) (.ok (.stream ⟨0, ⟨5⟩⟩))) ∈ tr ∧
    Ending "server" "client" "server departed" 0 tr
      [.took another, .introduced ⟨1, ⟨7⟩⟩, .routed ⟨5⟩ handed (some 0), .struck 0 ⟨5⟩]
      (asked collected [.over (.ok ())] (({} : Demux).introduce ⟨5⟩).2 .idle)
      (ending collected [.over (.ok ())] (struck passed 0 [handed]) .idle .finished) := by
  obtain ⟨tr, told, run⟩ := run_collected
  refine ⟨tr, told, { run, begins := rfl, goes := ?_, finishes := rfl }⟩
  have looked := @goes_looked tr collected rfl [.over (.ok ())] (({} : Demux).introduce ⟨5⟩).2 .idle
  -- Between the listing and the strike the pump passes on a handle that the list does not have.
  have took : Goes tr _ [.took another]
      (ending collected [.over (.ok ())] (({} : Demux).introduce ⟨5⟩).2 (.attaching another [])
        (.streams [⟨5⟩])) := looked.step (.pump (.take rfl another))
  have attached : Goes tr _ [.took another, .introduced ⟨1, ⟨7⟩⟩]
      (ending collected [.over (.ok ())] ((({} : Demux).introduce ⟨5⟩).2.introduce ⟨7⟩).2
        (.attaching another [⟨1, ⟨7⟩⟩]) (.streams [⟨5⟩])) :=
    took.step (.pump (@Pumps.attach _ another [] ⟨7⟩ rfl rfl))
  have routed : Goes tr _
      [.took another, .introduced ⟨1, ⟨7⟩⟩, .routed ⟨5⟩ handed (some 0)]
      (ending collected [.over (.ok ())] ((({} : Demux).introduce ⟨5⟩).2.introduce ⟨7⟩).2
        (.sending 0 handed) (.streams [⟨5⟩])) :=
    attached.step (.pump (@Pumps.route _ ⟨5⟩ _ _ handed 0 rfl rfl rfl rfl))
  have sent : Goes tr _
      [.took another, .introduced ⟨1, ⟨7⟩⟩, .routed ⟨5⟩ handed (some 0)]
      (ending collected [.over (.ok ())] passed .idle (.streams [⟨5⟩])) :=
    routed.step (.pump (@Pumps.send _ 0 handed {} rfl rfl))
  -- The strike then takes off the one stream that was listed; the other stays open.
  exact sent.trans (goes_struck _ collected [.over (.ok ())] .idle rfl rfl)

/-- The program reads the first handle after that. -/
private theorem goes_yielded {tr : OfficeTrace} (got : tr.Got ⟨0, ⟨5⟩⟩) :
    Goes tr (ending collected [.over (.ok ())] (struck passed 0 [handed]) .idle .finished)
      [.yielded ⟨0, ⟨5⟩⟩ handed] (ending collected [.over (.ok ())] yielded .idle .finished) :=
  Goes.refl.step (.use (@Uses.read _ _ ⟨0, ⟨5⟩⟩ (.notification handed) _
    (got.mono (List.subset_append_left ..))
    (@Demux.Reads.item (struck passed 0 [handed]) ⟨0, ⟨5⟩⟩
      { unread := [handed, .error (Disconnection.failure "server departed")] } handed
      [.error (Disconnection.failure "server departed")] rfl rfl rfl) nofun))

/-- Nothing is on its way in a session with one call that is over. -/
private theorem quiet (c : Correlator) (d : Demux) (stage : Disconnecting) :
    (ending c [.over (.ok ())] d .idle stage).Quiet where
  pumping := rfl
  falling := rfl
  fallen := rfl
  makings k m hm := by
    match k, hm with
    | 0, hm => exact ⟨_, (Option.some.inj hm).symm⟩

end Missed

/-- What does not hold of every run.  A message that comes after the end opens the stream that it
    both introduces and tells of.  Of two handles for one stream, the older one is not told that the
    session has ended.  And a stream that is handed over while the session ends can stay open, with
    a handle that a program gets. -/
theorem end_missed :
    (¬∀ tr es asked finished es' o, Ending "server" "client" "server departed" 0 tr es asked finished →
      Goes (tr ++ es) finished es' o → o.Quiet → ∀ id, o.demux.isOpen id = false) ∧
    (¬∀ tr es asked finished, Ending "server" "client" "server departed" 0 tr es asked finished →
      ∀ h, Given tr.made h → asked.demux.held h = true → asked.demux.isOpen h.id = true →
        ∃ xs, finished.demux.unreadOf h =
          xs ++ [.error { kind := .disconnected, message := "server departed" }]) ∧
    ¬∀ tr es asked finished es' o, Ending "server" "client" "server departed" 0 tr es asked finished →
      OfficeTrace.Foreign (es ++ es') → Goes (tr ++ es) finished es' o → o.Quiet →
        ∀ h, OfficeTrace.Got (tr ++ es ++ es') h → o.demux.isOpen h.id = false := by
  refine ⟨fun h => ?_, fun h => ?_, fun h => ?_⟩
  -- The message is taken after the end, when nobody fails streams any more.
  · obtain ⟨ending, es', after⟩ := Missed.own_after_end
    have shut := h _ _ _ _ _ _ ending after ⟨rfl, rfl, rfl, nofun⟩ ⟨5⟩
    have reopened : (Missed.fed ⟨5⟩ (.next (.stream ⟨0, ⟨5⟩⟩))).isOpen ⟨5⟩ = true := by decide +kernel
    exact Bool.false_ne_true (shut.symm.trans reopened)
  -- The older handle has nothing to read, not even the failure.
  · obtain ⟨tr, made, ending⟩ := Missed.told_once
    obtain ⟨xs, hxs⟩ := h _ _ _ _ ending ⟨0, ⟨5⟩⟩ (by rw [made]; rfl) (by decide +kernel)
      (by decide +kernel)
    have none : (Missed.struck Missed.doubled 1 []).unreadOf ⟨0, ⟨5⟩⟩ = [] := rfl
    have hxs := none.symm.trans hxs
    simp at hxs
  -- The new stream was not among those that it saw.
  · obtain ⟨tr, told, ending⟩ := Missed.passed_on
    have got : OfficeTrace.Got (tr ++ [.took Missed.another, .introduced ⟨1, ⟨7⟩⟩,
        .routed ⟨5⟩ Missed.handed (some 0), .struck 0 ⟨5⟩]) ⟨0, ⟨5⟩⟩ :=
      .collected (List.mem_append_left _ told) List.mem_cons_self
    have shut := h _ _ _ _ _ _ ending (fun id x key? routed g hg hid => ?_) (Missed.goes_yielded got)
      (Missed.quiet ..) ⟨1, ⟨7⟩⟩
      (.yielded (List.mem_append_right _ (List.mem_singleton_self _)) List.mem_cons_self)
    · have open7 : Missed.yielded.isOpen ⟨7⟩ = true := by decide +kernel
      exact Bool.false_ne_true (shut.symm.trans open7)
    · simp only [List.mem_append, List.mem_cons, List.not_mem_nil, or_false, reduceCtorEq, false_or,
        OfficeEvent.routed.injEq] at routed
      obtain ⟨rfl, rfl, -⟩ := routed
      rw [List.mem_singleton.1 hg] at hid
      cases hid

end Office

end StreamRpc
