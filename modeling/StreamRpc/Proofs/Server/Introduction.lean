import StreamRpc.Proofs.Server.Messages

/-! # A stream is introduced before anything is told of it

Whatever happens around a server, no client is told of a stream that it was not told about before,
no stream is handed over twice, and a stream in a message that did not reach its queue is never
heard of again.

* `introduced_once_and_first`   these three, of every run

What is sent is read off the trace, and what the trace tells of it is what a step does to the
transport: `Stage.Talks` says so of each task, and `Stage.Step.sent` of every step.
-/

namespace StreamRpc

namespace ServerEvent

/-- The message that a client's queue took. -/
def acceptedFor? (client : String) : ServerEvent → Option ServerMessage
  | sent _ target e true => if target = client then e.serverMessage? else none
  | _ => none

/-- The message that some queue took. -/
def accepted? : ServerEvent → Option ServerMessage
  | sent _ _ e true => e.serverMessage?
  | _ => none

/-- The message that was sent, whether its queue took it or not. -/
def said? : ServerEvent → Option ServerMessage
  | sent _ _ e _ => e.serverMessage?
  | _ => none

/-- The message that could not be written, or that its queue refused. -/
def undelivered? : ServerEvent → Option ServerMessage
  | unwritable _ _ m _ => some m
  | sent _ _ e false => e.serverMessage?
  | _ => none

end ServerEvent

namespace ServerTrace

/-- The messages that a client's queue took, in order. -/
def acceptedFor (tr : ServerTrace) (client : String) : List ServerMessage :=
  tr.filterMap (ServerEvent.acceptedFor? client)

/-- The messages that queues took, in order. -/
def accepted (tr : ServerTrace) : List ServerMessage :=
  tr.filterMap ServerEvent.accepted?

/-- The messages that were sent, in order. -/
def said (tr : ServerTrace) : List ServerMessage :=
  tr.filterMap ServerEvent.said?

end ServerTrace

open ServerEvent

/-- A message got through to a client when it was sent there, taken, and can be read. -/
theorem acceptedFor_eq_some {client : String} {x : ServerEvent} {m : ServerMessage}
    (h : x.acceptedFor? client = some m) :
    ∃ w e, x = .sent w client e true ∧ e.serverMessage? = some m := by
  unfold acceptedFor? at h
  split at h
  · next w target e =>
    split at h
    · next hto =>
      subst hto
      exact ⟨w, e, rfl, h⟩
    · cases h
  · cases h

/-- A server that was just started has not done anything yet. -/
theorem Server.fresh_of_launch {router : Router} {config : ServerConfig} {t t' : Transport}
    {s : Server} (h : Server.launch router config t = (.ok s, t')) (sources : Sources) :
    ({ server := s, sources, transport := t' } : Stage).Fresh := by
  unfold Server.launch at h
  split at h
  · simp at h
  split at h
  · simp at h
  split at h
  · simp at h
  -- Each of the three steps before this may fail, and then there is no server.
  · obtain ⟨hs, -⟩ := Prod.mk.injEq .. ▸ h
    obtain rfl := Except.ok.inj hs
    exact ⟨rfl, rfl, rfl⟩

namespace Stage

/-- What is introduced to a client stands in a message that its queue took. -/
private theorem Introduced.accepted {tr : ServerTrace} {client : String} {id : StreamId}
    (h : Introduced tr client id) : ∃ m ∈ tr.acceptedFor client, id ∈ m.introduces := by
  obtain ⟨w, e, he, hid⟩ := h
  unfold Envelope.introduces at hid
  cases hm : e.serverMessage? with
  | none => simp [hm] at hid
  | some m =>
    rw [hm] at hid
    refine ⟨m, List.mem_filterMap.2 ⟨_, he, ?_⟩, hid⟩
    simp [acceptedFor?, hm]

variable {st₀ st : Stage} {tr : ServerTrace}

/-- What happened on a stream is told to those only to whom it was introduced. -/
theorem Run.observed_after_introduced (fresh : st₀.Fresh) (run : Run st₀ tr st) {client : String}
    {pre post : List ServerMessage} {id : StreamId} {event : Notification WireValue}
    (h : tr.acceptedFor client = pre ++ .observation id event :: post) :
    ∃ m ∈ pre, id ∈ m.introduces := by
  -- The place of the message among the messages is a place among the events.
  obtain ⟨tr₁, tr₂, rfl, hpre, hpost⟩ := List.filterMap_eq_append_iff.1 h
  obtain ⟨front, x, back, rfl, hfront, hx, -⟩ := List.filterMap_eq_cons_iff.1 hpost
  obtain ⟨w, e, rfl, hm⟩ := acceptedFor_eq_some hx
  have hsplit : tr₁ ++ (front ++ .sent w client e true :: back) =
      (tr₁ ++ front) ++ .sent w client e true :: back := (List.append_assoc _ _ _).symm
  rcases run.of_sent fresh hsplit with ⟨n, cid, result, -, he⟩ | ⟨n, sub, event', -, hi, he⟩
  -- An answer is no notification.
  · rw [ServerMessage.serverMessage_of he] at hm
    cases hm
  · rw [ServerMessage.serverMessage_of he] at hm
    injection hm with hm
    injection hm with hid
    obtain ⟨m, hmem, hids⟩ := hi.accepted
    have hnone : front.filterMap (acceptedFor? client) = [] :=
      List.filterMap_eq_nil_iff.2 hfront
    rw [ServerTrace.acceptedFor, List.filterMap_append, hpre, hnone, List.append_nil] at hmem
    exact ⟨m, hmem, hid ▸ hids⟩

/-- The ids introduced by what got through are part of the ids carried. -/
private theorem introduces_accepted_sublist (tr : ServerTrace) :
    (tr.accepted.flatMap ServerMessage.introduces).Sublist tr.carried := by
  -- By the events: what is accepted is carried, and so is what is refused or cannot be written.
  induction tr with
  | nil => exact .slnil
  | cons x tr ih =>
    rw [ServerTrace.carried_cons]
    cases hx : x.accepted? with
    | none =>
      rw [ServerTrace.accepted, List.filterMap_cons_none hx]
      exact ih.trans (List.sublist_append_right _ _)
    | some m =>
      rw [ServerTrace.accepted, List.filterMap_cons_some hx, List.flatMap_cons]
      have hcarried : x.carried = m.introduces := by
        unfold accepted? at hx
        split at hx
        · next w target e => simp [carried, Envelope.introduces, hx]
        · cases hx
      rw [hcarried]
      exact (List.Sublist.refl _).append ih

/-- No stream is handed over twice. -/
theorem Run.nodup_introduced (fresh : st₀.Fresh) (run : Run st₀ tr st)
    (few : st.server.mux.numbered ≤ 2 ^ 64) :
    (tr.accepted.flatMap ServerMessage.introduces).Nodup :=
  (introduces_accepted_sublist tr).nodup (run.nodup_carried fresh few)

/-- What was not delivered carried the ids it would have introduced. -/
private theorem carried_of_undelivered {x : ServerEvent} {m : ServerMessage}
    (h : x.undelivered? = some m) : x.carried = m.introduces := by
  unfold undelivered? at h
  split at h
  · obtain rfl := Option.some.inj h
    rfl
  · simp [carried, Envelope.introduces, h]
  · cases h

/-- A stream in a message that did not reach its queue is never heard of again. -/
private theorem Run.silent_after_undelivered (fresh : st₀.Fresh) (run : Run st₀ tr st)
    (few : st.server.mux.numbered ≤ 2 ^ 64) {pre post : ServerTrace} {x : ServerEvent}
    (h : tr = pre ++ x :: post) {m : ServerMessage} (hx : x.undelivered? = some m)
    {id : StreamId} (hid : id ∈ m.introduces) : ∀ m' ∈ post.said, id ∉ m'.mentions := by
  -- No stream is carried twice, so what comes later does not carry this one.
  have hcarried := run.nodup_carried fresh few
  rw [h, ServerTrace.carried_append, ServerTrace.carried_cons, carried_of_undelivered hx]
    at hcarried
  have hpost : id ∉ ServerTrace.carried post := by
    have := (List.nodup_append.1 (List.nodup_append.1 hcarried).2.1).2.2
    exact fun hmem => this id hid id hmem rfl
  intro m' hm' hment
  obtain ⟨y, hy, hsaid⟩ := List.mem_filterMap.1 hm'
  obtain ⟨w, client, e, accepted, rfl, he⟩ : ∃ w client e accepted,
      y = .sent w client e accepted ∧ e.serverMessage? = some m' := by
    unfold said? at hsaid
    split at hsaid
    · exact ⟨_, _, _, _, rfl, hsaid⟩
    · cases hsaid
  -- A later message that introduced it would carry it.
  have hslots : id ∉ m'.introduces := by
    intro hslot
    refine hpost (List.mem_flatMap.2 ⟨_, hy, ?_⟩)
    simpa [carried, Envelope.introduces, he] using hslot
  obtain ⟨post₁, post₂, rfl⟩ := List.append_of_mem hy
  have hsplit : tr = (pre ++ x :: post₁) ++ .sent w client e accepted :: post₂ := by
    rw [h, List.append_assoc, List.cons_append]
  rcases run.of_sent fresh hsplit with ⟨n, cid, result, -, hr⟩ | ⟨n, sub, event, -, hi, hr⟩
  · -- An answer speaks of the streams in it and of no others.
    rw [ServerMessage.serverMessage_of hr] at he
    obtain rfl := Option.some.inj he
    exact hslots hment
  · rw [ServerMessage.serverMessage_of hr] at he
    obtain rfl := Option.some.inj he
    rcases List.mem_cons.1 hment with rfl | hment
    · -- The message that introduced the stream was taken, so it is not the one that was not.
      obtain ⟨w', e', hmem, hids⟩ := hi
      have hx' : x ∈ tr := by simp [h]
      have hmem' : .sent w' client e' true ∈ tr := by
        rw [hsplit]
        exact List.mem_append_left _ hmem
      have heq := run.eq_of_carried fresh few hx' hmem' (by rwa [carried_of_undelivered hx]) hids
      rw [heq] at hx
      cases hx
    · exact hslots hment

end Stage

/-- Of every run of a server that was started, whatever its clients send, its methods and sources
    yield and its queues refuse: what happened on a stream is told to a client only after a message
    that its queue took and that has the stream in a slot; over all clients, no stream stands in two
    slots of messages that queues took; and a stream in a message that could not be written, or that
    its queue refused, is not spoken of in any message after that. -/
theorem introduced_once_and_first {router : Router} {config : ServerConfig} {t t' : Transport}
    {s : Server} (up : Server.launch router config t = (.ok s, t')) {sources : Sources}
    {tr : ServerTrace} {st : Stage}
    (run : Stage.Run { server := s, sources, transport := t' } tr st)
    (few : st.server.mux.numbered ≤ 2 ^ 64) :
    (∀ client pre id event post, tr.acceptedFor client = pre ++ .observation id event :: post →
        ∃ m ∈ pre, id ∈ m.introduces) ∧
      (tr.accepted.flatMap ServerMessage.introduces).Nodup ∧
        ∀ pre x post m, tr = pre ++ x :: post → x.undelivered? = some m →
          ∀ id ∈ m.introduces, ∀ m' ∈ ServerTrace.said post, id ∉ m'.mentions := by
  have fresh := Server.fresh_of_launch up sources
  refine ⟨?_, run.nodup_introduced fresh few, ?_⟩
  · intro client pre id event post h
    exact run.observed_after_introduced fresh h
  · intro pre x post m h hx id hid
    exact run.silent_after_undelivered fresh few h hx hid

/-! ## A run with one stream -/

namespace Counting

/-- A method that answers with a stream of two numbers. -/
def router : Router :=
  .ofList [("count", fun _ => .ends (.returned (.stream (.counting 2))))]

/-- A client makes its queue and asks for the numbers. -/
def ask (t : Transport) : Transport :=
  match (ClientMessage.request
    { replyTo := "rpc.client.a", id := ⟨0⟩, method := "count", args := [] }).toEnvelope with
  | .ok e => ((t.createQueue "rpc.client.a").2.send "rpc.server" e).2
  | .error _ => t

/-- The request is answered, and the stream is passed on to its end. -/
def moves : List Stage.Move :=
  .meanwhile ask :: .serve :: List.replicate 6 (.handle 0 0) ++ List.replicate 18 (.forward 1)

def run : ServerTrace × Stage :=
  (Stage.launched router).play moves

/-- The moves make a run. -/
private theorem run_of_moves : Stage.Run (.launched router) run.1 run.2 :=
  Stage.play_run _ moves

end Counting

/-- The answer comes first, then the two numbers, and then the end. -/
theorem introduced_once_and_first_counting :
    (Counting.run.1.acceptedFor "rpc.client.a").length = 4 ∧
      (∀ client pre id event post,
          Counting.run.1.acceptedFor client = pre ++ .observation id event :: post →
          ∃ m ∈ pre, id ∈ m.introduces) ∧
        (Counting.run.1.accepted.flatMap ServerMessage.introduces).Nodup ∧
          ∀ pre x post m, Counting.run.1 = pre ++ x :: post → x.undelivered? = some m →
            ∀ id ∈ m.introduces, ∀ m' ∈ ServerTrace.said post, id ∉ m'.mentions := by
  refine ⟨by decide +kernel, ?_⟩
  have few : Counting.run.2.server.mux.numbered ≤ 2 ^ 64 := by decide +kernel
  exact introduced_once_and_first (Server.launch_launched Counting.router) Counting.run_of_moves few

end StreamRpc
