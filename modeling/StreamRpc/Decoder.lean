import StreamRpc.Failure
import StreamRpc.Wire.Reader

/-! # Reading messages

A `Decoder` reads bytes like a `Wire.Reader`, but fails with a `CodecError`.  This file has the
ways to put readers together: on a body of its own, to the very end, and over all items or
entries of a body.
-/

namespace StreamRpc

open Wire (Bytes Reader WireError)

/-- A read that fails with a codec error. -/
abbrev Decoder (α : Type) := Reader CodecError α

namespace Decoder

/-- A wire read, with its errors wrapped. -/
def ofReader {α : Type} (r : Reader WireError α) : Decoder α := fun bs =>
  match r bs with
  | .ok a rest => .ok a rest
  | .error e rest => .error (.wire e) rest

instance : MonadLift (Reader WireError) (Reader CodecError) := ⟨ofReader⟩

/-- A result that was reached without reading. -/
def ofExcept {α : Type} (r : Except CodecError α) : Decoder α := fun bs =>
  match r with
  | .ok a => .ok a bs
  | .error e => .error e bs

/-- Runs a decoder on bytes of its own and leaves the unread bytes alone. -/
def run {α : Type} (d : Decoder α) (body : Bytes) : Except CodecError α :=
  match d body with
  | .ok a _ => .ok a
  | .error e _ => .error e

/-- Reads and then makes sure that nothing is left. -/
def exactly {α : Type} (d : Decoder α) : Decoder α := do
  let a ← d
  Reader.finish
  return a

/-- Reads every item of a list body, each from its own bytes. -/
def items {α : Type} (d : Decoder α) (body : Bytes) : Except CodecError (List α) :=
  match _h : Reader.nextItem body with
  | .error e _ => .error (.wire e)
  | .ok none _ => .ok []
  | .ok (some found) rest =>
    match d.run found with
    | .error e => .error e
    | .ok a =>
      match items d rest with
      | .error e => .error e
      | .ok as => .ok (a :: as)
termination_by body.length
decreasing_by exact Reader.nextItem_length _h

/-- Reads every entry of a map body, each value from its own bytes in the way its name says. -/
def entries {α : Type} (d : String → Decoder α) (body : Bytes) :
    Except CodecError (List (String × α)) :=
  match _h : Reader.nextEntry body with
  | .error e _ => .error (.wire e)
  | .ok none _ => .ok []
  | .ok (some (name, found)) rest =>
    match (d name).run found with
    | .error e => .error e
    | .ok a =>
      match entries d rest with
      | .error e => .error e
      | .ok as => .ok ((name, a) :: as)
termination_by body.length
decreasing_by exact Reader.nextEntry_length _h

end Decoder

end StreamRpc
