import StreamRpc.Proofs.Server.Service

/-! # One answer to each request

A server is sent anything at all, and everybody around it does what they like in whatever order.  What
holds then of every request, and of everything that is no request, is brought together here.

* `Stage.Answers`                what is promised to those who send requests
* `every_request_answered_once`  a server that was started keeps it, whatever the schedule

An attempt to answer is a send that the trace tells of.  It is the send that the step makes of the
transport, with the answer that the queue gives (`Stage.Talks`, `Stage.Step.sent`).
-/

namespace StreamRpc

open Wire (Bytes)

/-- What a server that goes on by a schedule promises to those who send requests.  This is told when
    the schedule is carried out, and this is what it leaves. -/
structure Stage.Answers (st₀ : Stage) (ts : List Stage.Turn) (tr : ServerTrace) (st : Stage) :
    Prop where
  /-- The requests among the envelopes that were read are given to tasks, in order, and nothing
      else is. -/
  tasks : tr.requests.map Prod.snd = tr.intake.filterMap Envelope.request?
  /-- Each has a task of its own. -/
  distinct : (tr.requests.map Prod.fst).Nodup
  /-- Nobody else sends replies. -/
  repliers : ∀ w client e accepted id wire, .sent w client e accepted ∈ tr →
    e.serverMessage? = some (.reply id wire) → ∃ n, w = .handling n
  /-- What a task sends is the reply to its request, and settles it with the methods that the server
      has when the request has its first turn. -/
  settled : ∀ n client e, (client, e) ∈ tr.attempts n → ∃ r wire, (n, r) ∈ tr.requests ∧
    client = r.replyTo ∧ e.serverMessage? = some (.reply r.id wire) ∧
      ∃ router, st₀.FirstTurn ts n r router ∧ Settles tr n r router wire
  /-- No task sends a second one. -/
  once : ∀ n, (tr.attempts n).length ≤ 1
  /-- A task that is over has sent one. -/
  answered : ∀ n r, (n, r) ∈ tr.requests → st.server.handlings[n]? = none → tr.Measured →
    (tr.attempts n).length = 1
  /-- With streams in its arguments no method is called. -/
  uncalled : ∀ n r id rest, (n, r) ∈ tr.requests → r.args.flatMap Value.slots = id :: rest →
    tr.invocations n = []
  /-- In its first turn a request is settled, if there is something wrong with it, and else handed
      to its method. -/
  first : ∀ (n : Nat) h args clock, st.server.handlings[n]? = some h → h.phase = .received args →
    ∃ p, (st.turn (.handle clock n)).2.server.handlings[n]? = some { h with phase := p } ∧
      (p.Ended ∨ ∃ handler plain, st.server.router.handlers[h.method]? = some handler ∧
        args = plain.map Value.widen ∧
          p = .running (handler { client := h.client, method := h.method, args := plain }))
  /-- Once its method has ended, five turns are enough for it, whatever happens between them. -/
  soon : ∀ (n : Nat) h, st.server.handlings[n]? = some h → h.phase.Ended →
    ∀ ts', 5 ≤ ts'.countP (Turn.ofRequest n) →
      (st₀.carry (ts ++ ts')).2.server.handlings[n]? = none ∧
        ((st₀.carry (ts ++ ts')).1.Measured →
          ((st₀.carry (ts ++ ts')).1.attempts n).length = 1)
  /-- What can be read on the server's queue is read in order, one message in each turn of the
      server. -/
  read : ∀ ts', (∀ t ∈ ts', t ≠ .halt) → st.awaiting.length ≤ ts'.countP Turn.isServe →
    st.awaiting <+: (st.carry ts').1.intake.filter Envelope.legible
  /-- What cannot be read may come in anywhere and be passed over at any time: all else that is told
      is the same, and so is all that is left. -/
  noise : ∀ ts', ts'.filter Turn.telling = ts.filter Turn.telling →
    (st₀.carry ts').1.filter ServerEvent.telling = tr.filter ServerEvent.telling ∧
      (st₀.carry ts').2.server = st.server ∧ (st₀.carry ts').2.cleansed = st.cleansed

/-- Whatever comes in on the queue of a server that was started, and in whatever order its tasks and
    everybody else have their turns: each request that can be read is given to one task, which sends
    one reply once its method has ended; nothing else is replied to; and what cannot be read changes
    nothing. -/
theorem every_request_answered_once {router : Router} {config : ServerConfig} {t t' : Transport}
    {s : Server} (up : Server.launch router config t = (.ok s, t')) (sources : Sources)
    (ts : List Stage.Turn) :
    let st₀ : Stage := { server := s, sources, transport := t' }
    st₀.Answers ts (st₀.carry ts).1 (st₀.carry ts).2 := by
  intro st₀
  have fresh : st₀.Fresh := Server.fresh_of_launch up sources
  have used : st₀.InUse := Server.inUse_of_launch up sources
  -- What a schedule does is a run of the server, so all that holds of runs holds of it.
  have run := st₀.carry_run ts
  constructor
  case tasks => rw [ServerTrace.map_snd_requests, run.asked]
  case distinct => exact run.nodup_requests fresh
  case repliers =>
    intro w client e accepted id wire sent he
    obtain ⟨n, r, hw, -⟩ := run.of_reply fresh sent he
    exact ⟨n, hw⟩
  case settled =>
    intro n client e sent
    obtain ⟨r, wire, requested, rest⟩ := st₀.carry_settles fresh ts sent
    exact ⟨r, wire, ServerTrace.mem_requests.2 requested, rest⟩
  case once => exact run.attempts_le fresh
  case answered =>
    intro n r requested gone measured
    exact run.attempts_of_over fresh measured (ServerTrace.mem_requests.1 requested) gone
  case uncalled =>
    intro n r id rest requested first
    exact run.uncalled fresh (ServerTrace.mem_requests.1 requested) first
  case first =>
    intro n h args clock found phase
    exact Stage.turn_received found phase clock
  case soon =>
    intro n h found ended ts' enough
    obtain ⟨r, requested⟩ := run.requested_of_handling fresh found
    -- The method is over, so at most five turns of its task are left.
    have ending : (st₀.carry ts).2.Ending n 5 := by
      intro h' hh'
      obtain rfl : h = h' := Option.some.inj (found.symm.trans hh')
      exact ⟨ended, h.phase.remaining_le⟩
    have gone := run.over_of_turns fresh requested ending ts' enough
    -- To carry on is to carry out one longer schedule, and the earlier request is in that too.
    have run' := st₀.carry_run (ts ++ ts')
    rw [Stage.carry_append] at run' ⊢
    exact ⟨gone, fun measured => run'.attempts_of_over fresh measured
      (List.mem_append_left _ requested) gone⟩
  case read =>
    intro ts' going enough
    exact Stage.awaiting_served (used.carry ts) going (List.prefix_refl _) enough
  case noise =>
    intro ts' same
    obtain ⟨htold, hleft⟩ := st₀.carry_noise same
    have hserver : (st₀.carry ts').2.cleansed.server = (st₀.carry ts).2.cleansed.server :=
      congrArg Stage.server hleft
    exact ⟨htold, hserver, hleft⟩

namespace Counting

/-- The server when it has been started. -/
def start : Stage :=
  .launched router

/-- The bytes in which a message comes in. -/
def payload (m : ClientMessage) : Bytes :=
  match m.toEnvelope with
  | .ok e => e.toBytes.toOption.getD []
  | .error _ => []

/-- An envelope with no message in it. -/
def junk : Bytes :=
  ({ body := [255] } : Envelope).toBytes.toOption.getD []

/-- A request that comes in. -/
def call : Bytes :=
  payload (.request { replyTo := "rpc.client.a", id := ⟨7⟩, method := "count", args := [] })

/-- One request, among payloads that do not parse or have no message in them. -/
def noisy : List Stage.Turn :=
  [.deed (.create "rpc.client.a"), .arrive [1, 2, 3], .arrive junk, .arrive call, .serve,
    .handle 0 0, .handle 0 0, .handle 0 0, .arrive [], .serve,
    .handle 0 0, .handle 0 0, .handle 0 0]

end Counting

/-- The server keeps its promise there: of the two envelopes that it reads one is a request, which is
    answered, as it is without the other one. -/
theorem every_request_answered_once_noisy :
    Counting.start.Answers Counting.noisy (Counting.start.carry Counting.noisy).1
        (Counting.start.carry Counting.noisy).2 ∧
      (Counting.start.carry Counting.noisy).1.intake.length = 2 ∧
      (Counting.start.carry Counting.noisy).1.requests.map (fun p => (p.1, p.2.key)) =
        [(0, "rpc.client.a", ⟨7⟩)] ∧
      ((Counting.start.carry Counting.noisy).1.attempts 0).map Prod.fst = ["rpc.client.a"] ∧
      (Counting.start.carry (Counting.noisy.filter Stage.Turn.telling)).2.server =
        (Counting.start.carry Counting.noisy).2.server := by
  have answers := every_request_answered_once
    (Server.launch_launched Counting.router) {} Counting.noisy
  -- Leaving out the payloads that say nothing is one choice of what to leave out.
  have quiet := answers.noise (Counting.noisy.filter Stage.Turn.telling)
    (by rw [List.filter_filter]; simp)
  exact ⟨answers, by decide +kernel, by decide +kernel, by decide +kernel, quiet.2.1⟩

end StreamRpc
