import StreamRpc.Scenario.Answer

/-! # Steps with a tracker -/

namespace StreamRpc.Tracker

/-- What is done to a tracker. -/
inductive Step where
  | register (id : StreamId) (client : String)
  | retire (id : StreamId)
  | retireClient (client : String)
  /-- Looks at the signal of a registration. -/
  | look (signal : SignalId)
  | isActive (id : StreamId)
  | activeFor (client : String)
  deriving DecidableEq, Repr, Inhabited

/-- Takes a step. -/
def take (t : Tracker) : Step → Answer × Tracker
  | .register id client =>
    let (s, t) := t.register id client
    (.count s.index, t)
  | .retire id =>
    let (was, t) := t.retire id
    (.flag was, t)
  | .retireClient client =>
    let (n, t) := t.retireClient client
    (.count n, t)
  | .look s =>
    let (x, t) := t.takeSignal s
    (.signal x, t)
  | .isActive id => (.flag (t.isActive id), t)
  | .activeFor client => (.count (t.activeFor client), t)

end StreamRpc.Tracker
