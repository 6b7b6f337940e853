import StreamRpc.Server.Basic

/-! # Answering a request

An answer that cannot be written is replaced by a failure that says so.  The streams in an answer
are started once the queue has taken it, and abandoned if it never gets there.

* `Reply.remaining_step`   an answer gets nearer to its end with every step
-/

namespace StreamRpc

/-- A message that could not be written. -/
def Failure.unwritable (what : String) (e : CodecError) : Failure :=
  { kind := .protocolViolation, message := what ++ " could not be encoded: " ++ e.message }

namespace Reply

/-- One step of an answer: the next phase, or how it ended. -/
def step (client : String) (id : CallId) (st : Stage) :
    Reply → (Reply ⊕ Except CallError Unit) × Stage
  | answered (.ok v) =>
    let (wire, subs, st) := st.expose client v
    (.inl (exposed (.ok wire) subs), st)
  | answered (.error f) => (.inl (exposed (.error f) []), st)
  | exposed result subs =>
    match (ServerMessage.reply id result).toEnvelope with
    | .ok e => (.inl (encoded e subs), st)
    | .error err =>
      -- The failure that takes the place of the answer has no streams in it.
      let st := st.abandon subs
      match (ServerMessage.reply id (.error (.unwritable "reply" err))).toEnvelope with
      | .ok e => (.inl (encoded e []), st)
      | .error err => (.inr (.error (.codec err)), st)
  | encoded e subs =>
    match st.send client e with
    | (.ok (), st) => (.inl (accepted subs), st)
    | (.error err, st) => (.inl (refused err subs), st)
  | accepted subs => (.inr (.ok ()), st.start client subs)
  | refused err subs => (.inr (.error (.transport err)), st.abandon subs)

/-- How many phases are still to come at most. -/
def remaining : Reply → Nat
  | answered _ => 3
  | exposed _ _ => 2
  | encoded _ _ => 1
  | _ => 0

/-- A reply that has not finished has strictly less left to do after a step. -/
theorem remaining_step {client : String} {id : CallId} {st st' : Stage} {r r' : Reply}
    (h : r.step client id st = (.inl r', st')) : r'.remaining < r.remaining := by
  unfold step at h
  repeat' split at h
  all_goals
    simp only [Prod.mk.injEq, Sum.inl.injEq, reduceCtorEq, false_and] at h
    try (obtain ⟨rfl, -⟩ := h; simp [remaining])

/-- Takes an answer to its end without a pause. -/
def finish (client : String) (id : CallId) (r : Reply) (st : Stage) :
    Except CallError Unit × Stage :=
  match _moved : r.step client id st with
  | (.inl r', st') => r'.finish client id st'
  | (.inr outcome, st') => (outcome, st')
termination_by r.remaining
decreasing_by exact remaining_step _moved

end Reply

/-- Sends the answer to a request and starts the streams in it, without a pause. -/
def Stage.reply (st : Stage) (client : String) (id : CallId)
    (result : Except Failure ServerValue) : Except CallError Unit × Stage :=
  (Reply.answered result).finish client id st

end StreamRpc
