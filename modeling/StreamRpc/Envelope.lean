import StreamRpc.Value.Codec

/-! # Envelopes

An envelope is what queues carry: a few named attributes and a body of bytes.  Messages put their
scalar parts into attributes, so that they can be routed without reading the body.  For the queues
an envelope is flattened into bytes: a map of the attributes in the order of their names, then the
body.

* `Envelope.attribute_set`   setting an attribute changes that one and no other
-/

namespace StreamRpc

open Wire (Bytes Reader Writer Tag)

/-- The value of an attribute. -/
inductive Attribute where
  | u64 (n : UInt64)
  | str (s : String)
  deriving DecidableEq, Repr, Inhabited

/-- Named attributes and a body. -/
structure Envelope where
  attributes : Std.ExtTreeMap String Attribute := ∅
  body : Bytes := []

namespace Envelope

/-- Sets an attribute, replacing what it was. -/
def set (e : Envelope) (name : String) (a : Attribute) : Envelope :=
  { e with attributes := e.attributes.insert name a }

/-- The attribute of this name. -/
def attribute? (e : Envelope) (name : String) : Option Attribute :=
  e.attributes[name]?

/-- Setting an attribute changes what is read under its own name only. -/
@[simp] theorem attribute_set (e : Envelope) (name other : String) (a : Attribute) :
    (e.set name a).attribute? other = if name = other then some a else e.attribute? other := by
  simp [set, attribute?, Std.ExtTreeMap.getElem?_insert]

/-- A number that must be there. -/
def u64 (e : Envelope) (name : String) : Except CodecError UInt64 :=
  match e.attribute? name with
  | some (.u64 n) => .ok n
  | some (.str _) => .error (.attributeType name "u64")
  | none => .error (.missingAttribute name)

/-- A text that must be there. -/
def str (e : Envelope) (name : String) : Except CodecError String :=
  match e.attribute? name with
  | some (.str s) => .ok s
  | some (.u64 _) => .error (.attributeType name "string")
  | none => .error (.missingAttribute name)

/-! ## As bytes -/

/-- Writes the value of an attribute. -/
def Attribute.write (a : Attribute) (w : Writer) : Except CodecError Writer :=
  match a with
  | .u64 n => ofWire (w.u64 n)
  | .str s => ofWire (w.str s)

/-- Writes attributes one after another. -/
def writeAttributes : List (String × Attribute) → Writer → Except CodecError Writer
  | [], w => .ok w
  | (name, a) :: rest, w => do
    let w ← ofWire (w.variantBegin name)
    let w ← Attribute.write a w
    let w ← ofWire w.variantEnd
    writeAttributes rest w

/-- The flattened envelope. -/
def toBytes (e : Envelope) : Except CodecError Bytes := do
  let w ← ofWire (Writer.mapBegin {})
  let w ← writeAttributes e.attributes.toList w
  let w ← ofWire w.mapEnd
  let w ← ofWire (w.blobBytes e.body)
  ofWire w.bytes

/-- Reads the value of the attribute of this name. -/
def readAttribute (name : String) : Decoder Attribute := do
  match ← Reader.peek with
  | .u64 => return .u64 (← Reader.u64)
  | .string => return .str (← Reader.str)
  | found =>
    throw (.protocolViolation
      ("attribute '" ++ name ++ "' has unsupported type " ++ found.name))

/-- Reads a flattened envelope.  Of two attributes with one name the later one counts. -/
def read : Decoder Envelope := do
  let entries ← Reader.map
  let attributes ←
    Decoder.ofExcept (Decoder.entries (fun name => (readAttribute name).exactly) entries)
  let body ← Reader.bytes
  return { attributes := .ofList attributes, body }

/-- The envelope that was flattened into these bytes. -/
def ofBytes (bs : Bytes) : Except CodecError Envelope :=
  read.exactly.run bs

end Envelope

end StreamRpc
