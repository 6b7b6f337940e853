import Std.Data.ExtTreeSet
import StreamRpc.Id

/-! # Which streams are active

A tracker knows the streams that are active on a server, and whose they are.  Each registration
comes with a signal that goes off when the stream is retired; the task that feeds the stream waits
for it.

* `Tracker.active_retire`   retiring takes out one stream and no other
-/

namespace StreamRpc

/-- A set of streams. -/
abbrev StreamSet := Std.ExtTreeSet StreamId

/-- What the holder of a registration sees. -/
inductive Signal where
  /-- Nothing has happened. -/
  | armed
  /-- The stream has been retired. -/
  | fired
  /-- Nothing will happen any more: the signal has been taken, or the registration was replaced
      before it went off. -/
  | spent
  deriving DecidableEq, Repr, Inhabited

/-- Refers to the signal of one registration. -/
structure SignalId where
  index : Nat
  deriving DecidableEq, Repr, Inhabited

/-- An active stream. -/
structure Registration where
  client : String
  signal : SignalId
  deriving DecidableEq, Repr, Inhabited

/-- The active streams, by number and by client. -/
structure Tracker where
  active : Std.ExtTreeMap StreamId Registration := ∅
  /-- The streams of each client that has any. -/
  owned : Std.ExtTreeMap String StreamSet := ∅
  /-- The signal of every registration so far, in order. -/
  signals : List Signal := []

namespace Tracker

def isActive (t : Tracker) (id : StreamId) : Bool :=
  t.active.contains id

/-- How many streams are active. -/
def activeCount (t : Tracker) : Nat :=
  t.active.size

/-- The streams of a client. -/
def ownedBy (t : Tracker) (client : String) : StreamSet :=
  t.owned[client]?.getD ∅

/-- How many streams a client has. -/
def activeFor (t : Tracker) (client : String) : Nat :=
  (t.ownedBy client).size

/-- How many clients have streams. -/
def clientCount (t : Tracker) : Nat :=
  t.owned.size

/-- What a signal shows. -/
def signal (t : Tracker) (s : SignalId) : Signal :=
  t.signals[s.index]?.getD .spent

/-- Sets off or silences a signal. -/
def setSignal (t : Tracker) (s : SignalId) (x : Signal) : Tracker :=
  { t with signals := t.signals.set s.index x }

/-- Looks at a signal; one that has gone off is seen once. -/
def takeSignal (t : Tracker) (s : SignalId) : Signal × Tracker :=
  match t.signal s with
  | .armed => (.armed, t)
  | x => (x, t.setSignal s .spent)

/-- Makes a stream active for a client.  A registration that it had before is replaced, and its
    signal never goes off. -/
def register (t : Tracker) (id : StreamId) (client : String) : SignalId × Tracker :=
  let t := match t.active[id]? with
    | some old => t.setSignal old.signal .spent
    | none => t
  let signal : SignalId := ⟨t.signals.length⟩
  (signal,
    { active := t.active.insert id { client, signal }
      owned := t.owned.insert client ((t.ownedBy client).insert id)
      signals := t.signals ++ [.armed] })

/-- Takes a stream off the list of a client, and the client off the books with its last one. -/
def disown (owned : Std.ExtTreeMap String StreamSet) (client : String) (id : StreamId) :
    Std.ExtTreeMap String StreamSet :=
  match owned[client]? with
  | none => owned
  | some ids =>
    let ids := ids.erase id
    if ids.isEmpty then owned.erase client else owned.insert client ids

/-- Ends a stream, and says whether it was active. -/
def retire (t : Tracker) (id : StreamId) : Bool × Tracker :=
  match t.active[id]? with
  | none => (false, t)
  | some r =>
    (true,
      ({ t with
        active := t.active.erase id
        owned := disown t.owned r.client id }).setSignal r.signal .fired)

/-- Ends streams one after another, and counts those that were active. -/
def retireAll (t : Tracker) : List StreamId → Nat × Tracker
  | [] => (0, t)
  | id :: ids =>
    let (was, t) := t.retire id
    let (n, t) := retireAll t ids
    (n + was.toNat, t)

/-- Takes streams off the active ones without looking at whose they are. -/
def expire (t : Tracker) : List StreamId → Nat × Tracker
  | [] => (0, t)
  | id :: ids =>
    match t.active[id]? with
    | none => t.expire ids
    | some r =>
      let (n, t) := expire ({ t with active := t.active.erase id }.setSignal r.signal .fired) ids
      (n + 1, t)

/-- Ends all streams of a client, and counts them. -/
def retireClient (t : Tracker) (client : String) : Nat × Tracker :=
  match t.owned[client]? with
  | none => (0, t)
  | some ids => { t with owned := t.owned.erase client }.expire ids.toList

/-! ## What retiring does -/

/-- Raising a signal retires nothing. -/
@[simp] theorem isActive_setSignal (t : Tracker) (s : SignalId) (x : Signal) (id : StreamId) :
    (t.setSignal s x).isActive id = t.isActive id := rfl

/-- Retiring an id makes it inactive and leaves the others as they were. -/
theorem isActive_retire (t : Tracker) (id other : StreamId) :
    (t.retire id).2.isActive other = (t.isActive other && other != id) := by
  simp only [retire]
  cases h : t.active[id]? with
  | none =>
    by_cases ho : other = id
    · subst ho
      simp [isActive, Std.ExtTreeMap.contains_eq_isSome_getElem?, h]
    · simp [ho]
  | some r =>
    by_cases ho : other = id
    · subst ho
      simp [isActive, setSignal]
    · have hc : ¬ compare id other = .eq := by
        intro hc; exact ho (Std.LawfulEqOrd.eq_of_compare hc).symm
      have hn : (compare id other != .eq) = true := by simpa using hc
      have ho' : (other != id) = true := by simpa using ho
      simp only [isActive, setSignal, Std.ExtTreeMap.contains_erase, hn, ho', Bool.true_and,
        Bool.and_true]

/-- A retirement says whether the id was active. -/
theorem retire_fst (t : Tracker) (id : StreamId) : (t.retire id).1 = t.isActive id := by
  simp only [retire, isActive, Std.ExtTreeMap.contains_eq_isSome_getElem?]
  cases t.active[id]? <;> rfl

end Tracker

end StreamRpc
