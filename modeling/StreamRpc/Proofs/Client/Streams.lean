import StreamRpc.Proofs.Client.Answers

/-! # The streams of a session

A server introduces each stream once, before it tells of it.  A session to which this is done keeps
open what was introduced to it, has not come to its end and was not released; and each of its handles
hears of its own stream.

* `Client.Run.books`   which streams are open
* `Client.Run.logs`    what the handles hear
-/

namespace StreamRpc

/-- Every stream is introduced once, before anything is told of it. -/
structure Orderly (ms : List ServerMessage) : Prop where
  nodup : (introductions ms).Nodup
  first : ∀ pre id event post, ms = pre ++ .observation id event :: post → id ∈ introductions pre

/-- Ids introduced are read off the messages piece by piece. -/
@[simp] theorem introductions_append (ms ms' : List ServerMessage) :
    introductions (ms ++ ms') = introductions ms ++ introductions ms' :=
  List.flatMap_append

/-- Observations are read off the messages piece by piece. -/
@[simp] theorem observations_append (ms ms' : List ServerMessage) (id : StreamId) :
    observations (ms ++ ms') id = observations ms id ++ observations ms' id :=
  List.filterMap_append

/-- One message introduces its own ids. -/
private theorem introductions_singleton (m : ServerMessage) : introductions [m] = m.introduces := by
  simp [introductions]

namespace Orderly

variable {ms ms' : List ServerMessage}

/-- The first of an orderly stream of messages are orderly. -/
theorem of_append (h : Orderly (ms ++ ms')) : Orderly ms where
  nodup := by
    have := h.nodup
    rw [introductions_append] at this
    exact (List.nodup_append.1 this).1
  first pre id event post hms := by
    refine h.first pre id event (post ++ ms') ?_
    rw [hms, List.append_assoc]
    rfl

/-- What is observed in an orderly stream was introduced in it. -/
private theorem observed (h : Orderly ms) {id : StreamId} (hid : observations ms id ≠ []) :
    id ∈ introductions ms := by
  obtain ⟨event, hevent⟩ := List.exists_mem_of_ne_nil _ hid
  obtain ⟨pre, post, rfl⟩ := List.append_of_mem (mem_observations.1 hevent)
  rw [introductions_append]
  exact List.mem_append_left _ (h.first pre id event post rfl)

/-- A message introduces no stream twice, and none that was introduced before. -/
private theorem nodup_introduces {m : ServerMessage} (h : Orderly (ms ++ [m])) :
    (introductions ms ++ m.introduces).Nodup := by
  rw [← introductions_singleton, ← introductions_append]
  exact h.nodup

/-- The streams that a message introduces are new. -/
private theorem new {m : ServerMessage} (h : Orderly (ms ++ [m])) {id : StreamId}
    (hid : id ∈ m.introduces) : id ∉ introductions ms ∧ observations ms id = [] := by
  have hnew : id ∉ introductions ms := fun hm =>
    (List.nodup_append.1 h.nodup_introduces).2.2 id hm id hid rfl
  refine ⟨hnew, ?_⟩
  by_contra hne
  exact hnew (h.of_append.observed hne)

/-- The stream that a message tells of is not. -/
private theorem known {id : StreamId} {event : Notification WireValue}
    (h : Orderly (ms ++ [.observation id event])) : id ∈ introductions ms :=
  h.first ms id event [] rfl

end Orderly

namespace Demux

/-! ## Which streams are open -/

/-- An id is open when it has a registration. -/
theorem isOpen_iff (d : Demux) (id : StreamId) :
    d.isOpen id = true ↔ ∃ k, d.opened[id]? = some k := by
  rw [isOpen, Std.ExtTreeMap.contains_eq_isSome_getElem?, Option.isSome_iff_exists]

/-- Introducing ids opens them and queues nothing. -/
theorem introduceAll_opens (d : Demux) (ids : List StreamId) :
    (d.introduceAll ids).2.released = d.released ∧
      ∀ id, (d.introduceAll ids).2.isOpen id = true ↔ d.isOpen id = true ∨ id ∈ ids := by
  induction ids generalizing d with
  | nil => exact ⟨rfl, by simp [introduceAll]⟩
  | cons i ids ih =>
    obtain ⟨h1, h2⟩ := ih (d.introduce i).2
    refine ⟨h1, fun id => (h2 id).trans ?_⟩
    have hopen : (d.introduce i).2.isOpen id = true ↔ i = id ∨ d.isOpen id = true := by
      show (d.opened.insert i d.nextKey).contains id = true ↔ _
      rw [Std.ExtTreeMap.contains_insert, Bool.or_eq_true, beq_iff_eq,
        Std.LawfulEqCmp.compare_eq_iff_eq]
      rfl
    -- A stream open in the end was open before, or is the first, or is among the others.
    rw [hopen, List.mem_cons]
    constructor
    · rintro ((rfl | h) | h)
      · exact .inr (.inl rfl)
      · exact .inl h
      · exact .inr (.inr h)
    · rintro (h | rfl | h)
      · exact .inl (.inr h)
      · exact .inl (.inl rfl)
      · exact .inr h

/-- A registration removed closes its id only. -/
private theorem isOpen_erase (d : Demux) (id other : StreamId) :
    isOpen { d with opened := d.opened.erase id } other = true ↔
      d.isOpen other = true ∧ other ≠ id := by
  show (d.opened.erase id).contains other = true ↔ _
  rw [Std.ExtTreeMap.contains_erase, Bool.and_eq_true, and_comm]
  refine and_congr_right fun _ => ?_
  rw [bne_iff_ne, ne_eq, Std.LawfulEqCmp.compare_eq_iff_eq, eq_comm]

/-- Putting something into an inbox that is there opens and closes nothing. -/
private theorem deliver_opens {made : List StreamId} {d : Demux} (fit : d.Fit made) {id : StreamId}
    {key : Nat} (ho : d.opened[id]? = some key) (opened : Std.ExtTreeMap StreamId Nat)
    (n : Notification ClientValue) :
    (({ d with opened } : Demux).deliver key n).2.opened = opened ∧
      (({ d with opened } : Demux).deliver key n).2.released = d.released := by
  obtain ⟨box, hbox⟩ := fit.inbox id key ho
  simp only [deliver, hbox, and_self]

/-- What happens on a stream opens what it introduces, unless that is dropped at once, and closes the
    stream if it is its end. -/
private theorem observe_opens {made : List StreamId} {d : Demux} (fit : d.Fit made) {id : StreamId}
    (event : Notification WireValue) (hid : id ∉ event.ids) :
    ∃ new, (d.observe id event).2.released = d.released ++ new ∧
      (∀ i ∈ new, d.isOpen i = true ∨ i ∈ event.ids) ∧
      ∀ i, (d.observe id event).2.isOpen i = true ↔
        ((d.isOpen i = true ∨ i ∈ event.ids) ∧ i ∉ new) ∧ ¬ (i = id ∧ event.terminal = true) := by
  obtain ⟨hreleased, hopens⟩ := d.introduceAll_opens event.ids
  have fit' := (fit.introduceAll event.ids).1
  obtain ⟨b, d', heq, observes⟩ := d.observes id event
  rw [heq]
  cases observes with
  | shut ho =>
    -- Nobody gets what happens on a stream that is not open, and its handles are dropped.
    obtain ⟨new, h1, h2, h3⟩ :=
      dropAll_closes (d.introduceAll event.ids).2 (d.introduceAll event.ids).1
    refine ⟨new, by rw [h1, hreleased], fun i hi => (hopens i).1 (h2 i hi), fun i => ?_⟩
    rw [h3, hopens]
    refine (and_iff_left_of_imp ?_).symm
    rintro ⟨hi, -⟩ ⟨rfl, -⟩
    obtain ⟨k, hk⟩ := (isOpen_iff _ _).1 ((hopens i).2 hi)
    rw [ho] at hk
    cases hk
  | @opened key n opened ho wire handles rest =>
    obtain ⟨h1, h2⟩ := deliver_opens fit' ho opened n
    refine ⟨[], by rw [h2, hreleased, List.append_nil], nofun, fun i => ?_⟩
    have hopened : opened.contains i = true ↔
        (d.isOpen i = true ∨ i ∈ event.ids) ∧ ¬ (i = id ∧ event.terminal = true) := by
      rw [rest]
      -- An end closes its stream; any other event leaves it open.
      cases event.terminal with
      | true => exact (isOpen_erase _ id i).trans (by rw [hopens]; simp)
      | false => exact (hopens i).trans (by simp)
    rw [isOpen, h1, hopened]
    simp

/-- A read opens and queues nothing. -/
theorem read_opens (d : Demux) (h : Handle) :
    (d.read h).2.opened = d.opened ∧ (d.read h).2.released = d.released := by
  obtain ⟨r, d', heq, reads⟩ := d.reads h
  rw [heq]
  cases reads <;> exact ⟨rfl, rfl⟩

end Demux

namespace Client

open ClientTrace (messages_append yields_append parted_append messages_took made_took yields_took
  made_of_messages messages_yielded parted_yielded yields_yielded)

/-! ## One step -/

/-- A message adds what it observes. -/
private theorem observations_took (tr : ClientTrace) {e : Envelope} {m : ServerMessage}
    (h : e.serverMessage? = some m) (id : StreamId) :
    observations (ClientTrace.messages (tr ++ [.took e])) id =
      observations tr.messages id ++ observations [m] id := by
  rw [messages_append, messages_took h, observations_append]

/-- Which streams are open, and which are to be closed, in a session that goes on. -/
def Books (tr : ClientTrace) (d : Demux) : Prop :=
  ∀ id, d.isOpen id = true ↔ id ∈ tr.made ∧
    (∀ n ∈ observations tr.messages id, n.terminal = false) ∧ id ∉ tr.parted ++ d.released

/-- A step that takes no message and opens nothing keeps the books. -/
private theorem Books.of_quiet {tr es : ClientTrace} {d d' : Demux} (books : Books tr d)
    (messages : es.messages = []) (hopen : ∀ id, d'.isOpen id = d.isOpen id)
    (hparted : ∀ id, id ∈ (tr ++ es).parted ++ d'.released ↔ id ∈ tr.parted ++ d.released) :
    Books (tr ++ es) d' := by
  intro id
  rw [hopen, books id, hparted, made_of_messages tr messages, messages_append, messages,
    List.append_nil]

/-- The books after a message that introduces streams, ends one maybe, and closes some. -/
private theorem Books.of_message {tr : ClientTrace} {d d' : Demux} {e : Envelope}
    {m : ServerMessage}
    (books : Books tr d) (holds : ∀ id ∈ tr.parted ++ d.released, id ∈ tr.made)
    (hm : e.serverMessage? = some m) (orderly : Orderly (tr.messages ++ [m]))
    {new : List StreamId} (hreleased : d'.released = d.released ++ new)
    (hopen : ∀ id, d'.isOpen id = true ↔
      ((d.isOpen id = true ∨ id ∈ m.introduces) ∧ id ∉ new) ∧
        ∀ n ∈ observations [m] id, n.terminal = false) :
    Books (tr ++ [.took e]) d' := by
  intro id
  have hparted : ClientTrace.parted (tr ++ [.took e]) = tr.parted := by
    rw [parted_append]
    simp [ClientTrace.parted, ClientEvent.parted]
  have hforall : (∀ n ∈ observations tr.messages id ++ observations [m] id, n.terminal = false) ↔
      (∀ n ∈ observations tr.messages id, n.terminal = false) ∧
        ∀ n ∈ observations [m] id, n.terminal = false := by
    simp only [List.mem_append, or_imp, forall_and]
  have hclosed : id ∈ tr.parted ++ (d.released ++ new) ↔ id ∈ tr.parted ++ d.released ∨ id ∈ new := by
    rw [← List.append_assoc, List.mem_append]
  have hmem : id ∈ tr.made ++ m.introduces ↔ id ∈ tr.made ∨ id ∈ m.introduces := List.mem_append
  -- Both sides are now about the trace before the message, and about the message.
  rw [hopen, books id, made_took tr hm, hparted, hreleased, observations_took tr hm, hforall,
    hclosed, hmem]
  -- A stream that the message introduces is new: nothing was told of it, and nobody has left it.
  by_cases hid : id ∈ m.introduces
  · obtain ⟨hnew, hnone⟩ := orderly.new hid
    have hfree : id ∉ tr.parted ++ d.released := fun h => hnew (holds id h)
    have hall : ∀ n ∈ observations tr.messages id, n.terminal = false := by simp [hnone]
    grind
  · grind

/-- A step of a live client keeps the books of an orderly server. -/
private theorem Books.step {tr es : ClientTrace} {isOver : Prop} {d d' : Demux} (books : Books tr d)
    (fit : d.Fit tr.made) (hparted : ∀ id ∈ tr.parted, id ∈ tr.made)
    (next : DemuxStep tr isOver d es d') (live : ¬ isOver)
    (orderly : Orderly (ClientTrace.messages (tr ++ es))) : Books (tr ++ es) d' := by
  have hmade : ∀ id ∈ tr.parted ++ d.released, id ∈ tr.made := by
    intro id hid
    rcases List.mem_append.1 hid with hid | hid
    · exact hparted id hid
    · exact fit.released id hid
  cases next with
  | rest messages _ parted =>
    refine books.of_quiet messages (fun _ => rfl) fun id => ?_
    rw [parted_append, parted, List.append_nil]
  | @answer e id r message =>
    obtain ⟨h1, h2⟩ := d.introduceAll_opens (ServerMessage.reply id r).introduces
    rw [messages_append, messages_took message] at orderly
    have hreleased : (d.introduceAll (ServerMessage.reply id r).introduces).2.released =
        d.released ++ [] := by rw [h1, List.append_nil]
    refine books.of_message hmade message orderly hreleased fun i => ?_
    simp [h2, observations_reply]
  | @observe e id event message =>
    rw [messages_append, messages_took message] at orderly
    have hids := (ServerMessage.introduces_observation id event).symm
    -- A message does not introduce the stream that it tells of, which is known.
    have hid : id ∉ event.ids := fun h => (orderly.new (hids ▸ h)).1 orderly.known
    obtain ⟨new, h1, -, h3⟩ := Demux.observe_opens fit event hid
    refine books.of_message hmade message orderly h1 fun i => ?_
    rw [h3, hids, observations_observation]
    refine and_congr_right fun _ => ?_
    by_cases hi : i = id <;> simp [hi]
  | @drop hs given =>
    obtain ⟨new, h1, h2, h3⟩ := d.dropAll_closes hs
    intro id
    have hmem : id ∈ tr.parted ++ (d.released ++ new) ↔
        id ∈ tr.parted ++ d.released ∨ id ∈ new := by
      rw [← List.append_assoc, List.mem_append]
    rw [List.append_nil, h1, hmem, h3, books id]
    -- A dropped handle's stream goes from the open ones to the queue.
    grind
  -- The session is alive, so nothing has been failed.
  | fail reason gone => exact absurd gone live
  | part messages _ parted =>
    refine books.of_quiet messages (fun _ => rfl) fun id => ?_
    rw [parted_append, parted]
    simp [Demux.takeReleased]
  | @read g given =>
    obtain ⟨h1, h2⟩ := d.read_opens g
    refine books.of_quiet (messages_yielded g _) (fun id => ?_) fun id => ?_
    · simp only [Demux.isOpen, h1]
    · rw [parted_append, parted_yielded, List.append_nil, h2]

/-- Events that neither bring a message nor yield anything are nothing to the logs. -/
private theorem logs_of_quiet {tr es : ClientTrace} {isOver : Prop} {d : Demux}
    (logs : d.Logs tr.made (observations tr.messages) isOver tr.yields) (messages : es.messages = [])
    (yields : ∀ k, es.yields k = []) :
    d.Logs (ClientTrace.made (tr ++ es)) (observations (ClientTrace.messages (tr ++ es))) isOver
      (ClientTrace.yields (tr ++ es)) := by
  have hyields : ClientTrace.yields (tr ++ es) = tr.yields := by
    funext k
    rw [yields_append, yields, List.append_nil]
  rw [made_of_messages tr messages, messages_append, messages, List.append_nil, hyields]
  exact logs

/-- A step keeps the logs of an orderly server. -/
private theorem logs_step {tr es : ClientTrace} {isOver isOver' : Prop} {d d' : Demux}
    (logs : d.Logs tr.made (observations tr.messages) isOver tr.yields)
    (silent : ∀ k, tr.made.length ≤ k → tr.yields k = [])
    (next : DemuxStep tr isOver' d es d') (hover : isOver → isOver')
    (orderly : Orderly (ClientTrace.messages (tr ++ es))) :
    d'.Logs (ClientTrace.made (tr ++ es)) (observations (ClientTrace.messages (tr ++ es))) isOver'
      (ClientTrace.yields (tr ++ es)) := by
  -- Logs only get more lenient when the session ends.
  have hover' : d.Logs tr.made (observations tr.messages) isOver' tr.yields :=
    ⟨logs.fit, logs.nodup, fun k id hk => (logs.log k id hk).mono_over hover⟩
  cases next with
  | rest messages yields _ => exact logs_of_quiet hover' messages yields
  | part messages yields _ => exact logs_of_quiet hover'.takeReleased messages yields
  | drop given =>
    rw [List.append_nil]
    exact hover'.dropAll given
  | fail reason gone =>
    rw [List.append_nil]
    have hgone : isOver' = True := eq_true gone
    rw [hgone] at hover' ⊢
    exact hover'.failAll reason
  | @answer e id r message =>
    -- An answer says nothing of what happens on streams; it introduces some that are new.
    have hobs : observations (ClientTrace.messages (tr ++ [.took e])) =
        observations tr.messages := by
      funext i
      rw [observations_took tr message, observations_reply, List.append_nil]
    rw [messages_append, messages_took message] at orderly
    rw [made_took tr message, hobs, yields_took]
    exact hover'.introduceAll orderly.nodup_introduces (fun i hi => (orderly.new hi).2) silent
  | @observe e id event message =>
    have hids := ServerMessage.introduces_observation id event
    have hobs : observations (ClientTrace.messages (tr ++ [.took e])) = fun i =>
        if i = id then observations tr.messages i ++ [event] else observations tr.messages i := by
      funext i
      rw [observations_took tr message, observations_observation]
      by_cases hi : i = id <;> simp [hi]
    rw [messages_append, messages_took message] at orderly
    rw [made_took tr message, hids, hobs, yields_took]
    exact hover'.observe orderly.known (hids ▸ orderly.nodup_introduces)
      (fun i hi => (orderly.new (hids.symm ▸ hi)).2) silent
  | @read g given =>
    rw [made_of_messages tr (messages_yielded g _), yields_yielded, messages_append,
      messages_yielded, List.append_nil]
    exact hover'.read given

section

variable {c₀ c : Client} {tr : ClientTrace} (fresh : c₀.Fresh) (run : Run c₀ tr c)
  (orderly : Orderly tr.messages)

include fresh run orderly

/-- Which streams are open in a session that goes on. -/
theorem Run.books (live : c.connected = true) : Books tr c.demux := by
  induction run with
  | refl =>
    intro id
    rw [fresh.demux]
    simp [Demux.isOpen, ClientTrace.made, ClientTrace.messages, introductions]
  | @step tr es c c' run next ih =>
    have holds := run.holds fresh
    have effect := next.effect holds
    have orderly' := orderly
    rw [messages_append] at orderly'
    -- A session that goes on went on before, and so did the messages that came in order.
    refine (ih orderly'.of_append (effect.kept.connected live)).step holds.fit holds.parted
      effect.demux ?_ orderly
    simpa [connected] using live

/-- What the handles of a session hear. -/
theorem Run.logs : c.demux.Logs tr.made (observations tr.messages)
    (c.correlator.closed = true) tr.yields := by
  induction run with
  | refl =>
    rw [fresh.demux]
    exact Demux.logs_empty
  | @step tr es c c' run next ih =>
    have holds := run.holds fresh
    have effect := next.effect holds
    have orderly' := orderly
    rw [messages_append] at orderly'
    -- The logs follow what the step does to the demultiplexer and to the session.
    exact logs_step (ih orderly'.of_append) holds.silent effect.demux effect.kept.session.closed
      orderly

end

end Client

end StreamRpc
