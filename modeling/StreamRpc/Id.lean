import Std.Data.ExtTreeMap

/-! # Numbers of calls and streams

A client numbers its calls, and a server numbers the streams it pushes.  Both are 64-bit words of
a type of their own, ordered by their number so that maps can be keyed by them.
-/

namespace StreamRpc

/-- The number a client gives to one of its calls. -/
structure CallId where
  val : UInt64
  deriving DecidableEq, Repr, Inhabited

/-- The number a server gives to one stream. -/
structure StreamId where
  val : UInt64
  deriving DecidableEq, Repr, Inhabited

namespace CallId

/-- How a call number is shown. -/
def display (id : CallId) : String :=
  "rpc-" ++ Nat.repr id.val.toNat

instance : Ord CallId := ⟨fun a b => compare a.val b.val⟩

instance : Std.TransOrd CallId :=
  inferInstanceAs (Std.TransCmp (compareOn CallId.val))

instance : Std.LawfulEqOrd CallId where
  eq_of_compare {a b} h := by
    have hv : a.val = b.val := Std.LawfulEqOrd.eq_of_compare h
    cases a; cases b; simpa using hv

end CallId

namespace StreamId

/-- How a stream number is shown. -/
def display (id : StreamId) : String :=
  "obs-" ++ Nat.repr id.val.toNat

/-- The number after this one. -/
def next (id : StreamId) : StreamId :=
  ⟨id.val + 1⟩

instance : Ord StreamId := ⟨fun a b => compare a.val b.val⟩

instance : Std.TransOrd StreamId :=
  inferInstanceAs (Std.TransCmp (compareOn StreamId.val))

instance : Std.LawfulEqOrd StreamId where
  eq_of_compare {a b} h := by
    have hv : a.val = b.val := Std.LawfulEqOrd.eq_of_compare h
    cases a; cases b; simpa using hv

end StreamId

end StreamRpc
