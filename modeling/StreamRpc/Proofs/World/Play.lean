import StreamRpc.Proofs.World.Run

/-! # Carrying out runs of a world

A run can be carried out move by move, as long as the moves can be made.

* `World.play_run`   what is carried out is a run
-/

namespace StreamRpc

namespace World

/-- A choice of what happens next. -/
inductive Move where
  | task (t : Task)
  | connect (settings : ClientConfig) (token : UInt64)
  | submit (i : Nat) (method : String) (args : List PlainValue)
  | close (i : Nat)
  | dropClient (i : Nat)
  | read (i : Nat) (h : Handle)
  | dropHandle (i : Nat) (h : Handle)
  | publish (p : PublisherId) (v : DraftValue)
  | complete (p : PublisherId)

/-- Whether a client with these settings may come. -/
def Welcome (config : ServerConfig) (w : World) (settings : ClientConfig) (token : UInt64) : Prop :=
  settings.serverQueue = config.queue ∧
    addressMatches config.clientPattern (settings.replyAddress token) = true ∧
      ∀ c ∈ w.clients, c.address ≠ settings.replyAddress token

instance (config : ServerConfig) (w : World) (settings : ClientConfig) (token : UInt64) :
    Decidable (Welcome config w settings token) :=
  inferInstanceAs (Decidable (_ ∧ _ ∧ _))

instance (tr : ClientTrace) (h : Handle) : Decidable (tr.Given h) :=
  inferInstanceAs (Decidable (tr.made[h.key]? = some h.id))

/-- Makes a move, if it can be made. -/
def move? (config : ServerConfig) (tr : WorldTrace) (w : World) :
    Move → Option (WorldTrace × World)
  | .task t => (w.run? t).map fun w' => (w.events t, w')
  | .connect settings token =>
    if Welcome config w settings token then
      match w.connect settings token with
      | (.ok _, w') => some ([], w')
      | (.error _, _) => none
    else none
  | .submit i method args => w.clients[i]?.map fun c =>
    (w.clientEvents i fun c => c.submitEvents method args w.transport,
      (w.submit i c method args).2)
  | .close i => w.clients[i]?.map fun c => ([], (w.close i c).2)
  | .dropClient i => w.clients[i]?.map fun c => ([], w.dropClient i c true)
  | .read i h =>
    if (tr.client i).Given h then
      some ((w.readHandle i h none).1.map fun n => .client i (.yielded h n),
        (w.readHandle i h none).2.2)
    else none
  | .dropHandle i h => if (tr.client i).Given h then some ([], w.dropHandle i h) else none
  | .publish p v =>
    some ([], { w with sources := ((w.sources.build v).2.publish p (w.sources.build v).1).2 })
  | .complete p => some ([], { w with sources := (w.sources.finish p .completed).2 })

/-- Makes moves in turn, and stops at the first that cannot be made. -/
def play (config : ServerConfig) (tr : WorldTrace) (w : World) : List Move → WorldTrace × World
  | [] => (tr, w)
  | m :: ms =>
    match w.move? config tr m with
    | none => (tr, w)
    | some (es, w') => play config (tr ++ es) w' ms

/-- The world in which a server is launched with these methods, and nothing else has happened. -/
def launched (router : Router) : World :=
  (({} : World).launch router {}).2

/-- The launch comes to a server, whatever its methods are. -/
theorem launch_launched (router : Router) :
    ({} : World).launch router {} = (.ok 0, launched router) := rfl

variable {config : ServerConfig} {tr es : WorldTrace} {w₀ w w' : World}

/-- A move of a play is a step of the world. -/
theorem move_step {m : Move} (h : w.move? config tr m = some (es, w')) :
    Step config tr w es w' := by
  -- A move is made exactly when the step that it is has what it asks for.
  cases m with
  | task t =>
    obtain ⟨_, go, heq⟩ := Option.map_eq_some_iff.1 h
    obtain ⟨rfl, rfl⟩ := Prod.mk.injEq .. ▸ heq
    exact .task go
  | connect settings token =>
    simp only [move?] at h
    split at h
    · next welcome =>
      obtain ⟨queue, covered, apart⟩ := welcome
      split at h
      · next go =>
        obtain ⟨rfl, rfl⟩ := Prod.mk.injEq .. ▸ Option.some.inj h
        exact .connect go queue covered apart
      · cases h
    · cases h
  | submit i method args =>
    obtain ⟨_, found, heq⟩ := Option.map_eq_some_iff.1 h
    obtain ⟨rfl, rfl⟩ := Prod.mk.injEq .. ▸ heq
    exact .submit found method args
  | close i =>
    obtain ⟨_, found, heq⟩ := Option.map_eq_some_iff.1 h
    obtain ⟨rfl, rfl⟩ := Prod.mk.injEq .. ▸ heq
    exact .close found
  | dropClient i =>
    obtain ⟨_, found, heq⟩ := Option.map_eq_some_iff.1 h
    obtain ⟨rfl, rfl⟩ := Prod.mk.injEq .. ▸ heq
    exact .dropClient found
  | read i h' =>
    simp only [move?] at h
    split at h
    · next given =>
      obtain ⟨rfl, rfl⟩ := Prod.mk.injEq .. ▸ Option.some.inj h
      exact .read given none
    · cases h
  | dropHandle i h' =>
    simp only [move?] at h
    split at h
    · next given =>
      obtain ⟨rfl, rfl⟩ := Prod.mk.injEq .. ▸ Option.some.inj h
      exact .dropHandle given
    · cases h
  -- The two ways to feed a channel are always possible.
  | publish p v =>
    obtain ⟨rfl, rfl⟩ := Prod.mk.injEq .. ▸ Option.some.inj h
    exact .feed (.publish p v)
  | complete p =>
    obtain ⟨rfl, rfl⟩ := Prod.mk.injEq .. ▸ Option.some.inj h
    exact .feed (.complete p)

/-- What is carried out is a run. -/
theorem play_run (run : Run config w₀ tr w) (ms : List Move) :
    Run config w₀ (w.play config tr ms).1 (w.play config tr ms).2 := by
  -- By the moves, from the first; the run so far goes along.
  induction ms generalizing tr w with
  | nil => exact run
  | cons m ms ih =>
    unfold play
    split
    · exact run
    · next h => exact ih (run.step (move_step h))

end World

end StreamRpc
