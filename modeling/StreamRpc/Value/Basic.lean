import StreamRpc.Id
import StreamRpc.Wire.Tag

/-! # Values

A `Value` is what calls, replies and stream items carry.  It is generic in what stands in its
*slots*, the places where a stream is handed over: on the wire a slot holds a `StreamId`, on the
server the source that feeds the stream, on the client the handle that receives it.  A value
without slots has the empty type there.

* `Value.traverse`   rebuilds a value with an effect at each slot, depth first
* `Value.slots`      lists the slots in the same order
-/

namespace StreamRpc

open Wire (Bytes)

/-- A value with slots in `σ`. -/
inductive Value (σ : Type) where
  | unit
  | bool (b : Bool)
  | u64 (n : UInt64)
  | s64 (n : Int64)
  /-- A float, held as its 64 bits. -/
  | f64 (bits : UInt64)
  | str (s : String)
  | bytes (b : Bytes)
  | list (items : List (Value σ))
  /-- Named fields in order. -/
  | record (fields : List (String × Value σ))
  | absent
  | present (v : Value σ)
  | variant (name : String) (v : Value σ)
  /-- A stream handed over in this slot. -/
  | stream (slot : σ)
  deriving Repr, Inhabited

/-- A value as it crosses the wire. -/
abbrev WireValue := Value StreamId

/-- A value that hands over no stream. -/
abbrev PlainValue := Value Empty

namespace Value

variable {σ τ : Type} {m : Type → Type} [Monad m]

mutual

/-- Rebuilds a value, replacing every slot; effects happen depth first in the order of the
    slots. -/
def traverse (f : σ → m τ) : Value σ → m (Value τ)
  | unit => pure unit
  | bool b => pure (bool b)
  | u64 n => pure (u64 n)
  | s64 n => pure (s64 n)
  | f64 n => pure (f64 n)
  | str s => pure (str s)
  | bytes b => pure (bytes b)
  | list items => do return list (← traverseItems f items)
  | record fields => do return record (← traverseFields f fields)
  | absent => pure absent
  | present v => do return present (← traverse f v)
  | variant name v => do return variant name (← traverse f v)
  | stream slot => do return stream (← f slot)

/-- `traverse` on each item in turn. -/
def traverseItems (f : σ → m τ) : List (Value σ) → m (List (Value τ))
  | [] => pure []
  | v :: items => do
    let v ← traverse f v
    return v :: (← traverseItems f items)

/-- `traverse` on each field in turn. -/
def traverseFields (f : σ → m τ) : List (String × Value σ) → m (List (String × Value τ))
  | [] => pure []
  | (name, v) :: fields => do
    let v ← traverse f v
    return (name, v) :: (← traverseFields f fields)

end

/-- Replaces every slot. -/
def map (f : σ → τ) (v : Value σ) : Value τ :=
  Id.run (v.traverse fun slot => pure (f slot))

mutual

/-- The slots of a value, depth first. -/
def slots : Value σ → List σ
  | list items => slotsOfItems items
  | record fields => slotsOfFields fields
  | present v => slots v
  | variant _ v => slots v
  | stream slot => [slot]
  | _ => []

/-- The slots of items in turn. -/
def slotsOfItems : List (Value σ) → List σ
  | [] => []
  | v :: items => slots v ++ slotsOfItems items

/-- The slots of fields in turn. -/
def slotsOfFields : List (String × Value σ) → List σ
  | [] => []
  | (_, v) :: fields => slots v ++ slotsOfFields fields

end

/-- How many slots a value has. -/
def slotCount (v : Value σ) : Nat :=
  v.slots.length

/-! ## Views -/

def asStr? : Value σ → Option String
  | str s => some s
  | _ => none

def asU64? : Value σ → Option UInt64
  | u64 n => some n
  | _ => none

def asList? : Value σ → Option (List (Value σ))
  | list items => some items
  | _ => none

/-- The slot of a value that is nothing but a stream. -/
def asStream? : Value σ → Option σ
  | stream slot => some slot
  | _ => none

/-! ## Values without slots -/

/-- A value without slots is a value with any slots. -/
def widen (v : PlainValue) : Value σ :=
  v.map Empty.elim

/-- The same value without slots, or the first slot it has. -/
def toPlain (v : Value σ) : Except σ PlainValue :=
  v.traverse fun slot => throw slot

/-! ## Equality as floats compare -/

/-- Whether the bits are those of a NaN. -/
def isNaN (bits : UInt64) : Bool :=
  decide (0x7FF0000000000000 < bits &&& 0x7FFFFFFFFFFFFFFF)

/-- Floats are equal by value: a NaN differs from itself, and the two zeros are equal. -/
def floatEq (a b : UInt64) : Bool :=
  !isNaN a && !isNaN b && (a == b || (a ||| b) &&& 0x7FFFFFFFFFFFFFFF == 0)

mutual

/-- Whether two values are equal, with floats compared as floats. -/
def sameAs [BEq σ] : Value σ → Value σ → Bool
  | unit, unit => true
  | bool a, bool b => a == b
  | u64 a, u64 b => a == b
  | s64 a, s64 b => a == b
  | f64 a, f64 b => floatEq a b
  | str a, str b => a == b
  | bytes a, bytes b => a == b
  | list xs, list ys => sameItems xs ys
  | record xs, record ys => sameFields xs ys
  | absent, absent => true
  | present a, present b => sameAs a b
  | variant m a, variant n b => m == n && sameAs a b
  | stream a, stream b => a == b
  | _, _ => false

/-- `sameAs` on items pairwise. -/
def sameItems [BEq σ] : List (Value σ) → List (Value σ) → Bool
  | [], [] => true
  | a :: xs, b :: ys => sameAs a b && sameItems xs ys
  | _, _ => false

/-- `sameAs` on fields pairwise, names included. -/
def sameFields [BEq σ] : List (String × Value σ) → List (String × Value σ) → Bool
  | [], [] => true
  | (m, a) :: xs, (n, b) :: ys => m == n && sameAs a b && sameFields xs ys
  | _, _ => false

end

end Value

end StreamRpc
