import StreamRpc.Decoder
import StreamRpc.Value.Basic
import StreamRpc.Wire.Writer

/-! # Values on the wire

Writing and reading of values, argument lists and failures.  Both directions count the levels of
nesting: the value itself is on level 0, what is inside of it one level further down, and nothing
may lie below `maxDepth`.  An argument list is a level of its own.
-/

namespace StreamRpc

open Wire (Bytes Reader Writer WireError)

/-- The deepest level a value may reach. -/
def maxDepth : Nat := 64

/-- A wire call whose error is wrapped. -/
def ofWire {α : Type} (r : Except WireError α) : Except CodecError α :=
  r.mapError .wire

namespace Value

mutual

/-- Writes a value that may take up to `room` levels. -/
def writeWithin (v : WireValue) (room : Nat) (w : Writer) : Except CodecError Writer :=
  match room with
  | 0 => .error .nestingTooDeep
  | room + 1 =>
    match v with
    | unit => ofWire w.unit
    | bool b => ofWire (w.bool b)
    | u64 n => ofWire (w.u64 n)
    | s64 n => ofWire (w.s64 n)
    | f64 bits => ofWire (w.f64 bits)
    | str s => ofWire (w.str s)
    | bytes b => ofWire (w.blobBytes b)
    | list items => do
      let w ← ofWire w.listBegin
      let w ← writeItems items room w
      ofWire w.listEnd
    | record fields => do
      let w ← ofWire w.mapBegin
      let w ← writeFields fields room w
      ofWire w.mapEnd
    | absent => ofWire w.optionNone
    | present v => do
      let w ← ofWire w.someBegin
      let w ← writeWithin v room w
      ofWire w.someEnd
    | variant name v => do
      let w ← ofWire (w.variantBegin name)
      let w ← writeWithin v room w
      ofWire w.variantEnd
    | stream id => ofWire (w.handle id.val)

/-- Writes items one after another. -/
def writeItems (items : List WireValue) (room : Nat) (w : Writer) : Except CodecError Writer :=
  match items with
  | [] => .ok w
  | v :: items => do
    let w ← writeWithin v room w
    writeItems items room w

/-- Writes fields one after another, each as a variant that bears its name. -/
def writeFields (fields : List (String × WireValue)) (room : Nat) (w : Writer) :
    Except CodecError Writer :=
  match fields with
  | [] => .ok w
  | (name, v) :: fields => do
    let w ← ofWire (w.variantBegin name)
    let w ← writeWithin v room w
    let w ← ofWire w.variantEnd
    writeFields fields room w

end

/-- Writes a value. -/
def write (v : WireValue) (w : Writer) : Except CodecError Writer :=
  v.writeWithin (maxDepth + 1) w

/-- Writes an argument list. -/
def writeList (vs : List WireValue) (w : Writer) : Except CodecError Writer := do
  let w ← ofWire w.listBegin
  let w ← writeItems vs maxDepth w
  ofWire w.listEnd

/-- Reads a value that may take up to `room` levels.  The payload of an option, of a variant and
    of a record field must be one value and nothing more. -/
def readWithin : Nat → Decoder WireValue
  | 0 => throw .nestingTooDeep
  | room + 1 => do
    match ← Reader.peek with
    | .unit => Reader.unit; return unit
    | .boolTrue | .boolFalse => return bool (← Reader.bool)
    | .u64 => return u64 (← Reader.u64)
    | .s64 => return s64 (← Reader.s64)
    | .f64 => return f64 (← Reader.f64)
    | .handle => return stream ⟨← Reader.handle⟩
    | .string => return str (← Reader.str)
    | .bytes => return bytes (← Reader.bytes)
    | .list =>
      let body ← Reader.list
      return list (← Decoder.ofExcept (Decoder.items (readWithin room) body))
    | .map =>
      let body ← Reader.map
      return record (← Decoder.ofExcept (Decoder.entries (fun _ => (readWithin room).exactly) body))
    | .optionNone | .optionSome =>
      match ← Reader.option with
      | none => return absent
      | some body => return present (← Decoder.ofExcept ((readWithin room).exactly.run body))
    | .variant =>
      let (name, body) ← Reader.variant
      return variant name (← Decoder.ofExcept ((readWithin room).exactly.run body))
    | .resultOk | .resultErr =>
      throw (.protocolViolation "result container in value position")

/-- Reads a value. -/
def read : Decoder WireValue :=
  readWithin (maxDepth + 1)

/-- Reads an argument list. -/
def readList : Decoder (List WireValue) := do
  let body ← Reader.list
  Decoder.ofExcept (Decoder.items (readWithin maxDepth) body)

end Value

namespace Failure

/-- Writes a failure as a variant named for its kind. -/
def write (f : Failure) (w : Writer) : Except CodecError Writer := do
  let w ← ofWire (w.variantBegin f.kind.name)
  let w ← ofWire (w.str f.message)
  ofWire w.variantEnd

/-- Reads a failure. -/
def read : Decoder Failure := do
  let (name, body) ← Reader.variant
  let message ← Decoder.ofExcept ((Decoder.ofReader Reader.str).exactly.run body)
  Decoder.ofExcept (Failure.ofName name message)

end Failure

end StreamRpc
