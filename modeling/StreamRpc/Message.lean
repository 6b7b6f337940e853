import StreamRpc.Envelope

/-! # Messages

What clients and servers say to each other, and how each message is put into an envelope.  A
client asks for a call or says which streams it no longer wants.  A server answers a call or
passes on what happened on a stream.  Reading refuses every message that is not exactly as it
would have been written.
-/

namespace StreamRpc

open Wire (Bytes Reader Writer)

/-- What happens on a stream.  Nothing follows an error or the completion. -/
inductive Notification (α : Type) where
  | next (a : α)
  | error (f : Failure)
  | completed
  deriving Repr, Inhabited

namespace Notification

/-- Whether the stream ends here. -/
def terminal {α : Type} : Notification α → Bool
  | next _ => false
  | _ => true

/-- The name of the kind of notification on the wire. -/
def kind {α : Type} : Notification α → String
  | next _ => "next"
  | error _ => "error"
  | completed => "completed"

end Notification

/-- A call that a client asks for. -/
structure Request where
  /-- The queue the answer goes to. -/
  replyTo : String
  id : CallId
  method : String
  args : List WireValue
  deriving Repr, Inhabited

/-- What a client says to a server. -/
inductive ClientMessage where
  | request (r : Request)
  /-- These streams are no longer wanted. -/
  | closed (ids : List StreamId)
  deriving Repr, Inhabited

/-- What a server says to a client. -/
inductive ServerMessage where
  | reply (id : CallId) (result : Except Failure WireValue)
  | observation (id : StreamId) (event : Notification WireValue)
  deriving Inhabited

/-! ## Names of attributes and numbers of messages -/

namespace Attribute

/-- Says which message it is. -/
def tagName : String := "tag"

def callName : String := "rpc-id"

def streamName : String := "observable-id"

def methodName : String := "method-name"

def replyToName : String := "reply-to"

end Attribute

namespace ClientMessage

def requestTag : UInt64 := 0

def closedTag : UInt64 := 1

/-- Writes stream numbers one after another. -/
def writeIds : List StreamId → Writer → Except CodecError Writer
  | [], w => .ok w
  | id :: ids, w => do
    let w ← ofWire (w.u64 id.val)
    writeIds ids w

/-- The envelope of a message. -/
def toEnvelope : ClientMessage → Except CodecError Envelope
  | request r => do
    let w ← Value.writeList r.args {}
    let body ← ofWire w.bytes
    return ({ body } : Envelope)
      |>.set Attribute.tagName (.u64 requestTag)
      |>.set Attribute.callName (.u64 r.id.val)
      |>.set Attribute.methodName (.str r.method)
      |>.set Attribute.replyToName (.str r.replyTo)
  | closed ids => do
    let w ← ofWire (Writer.listBegin {})
    let w ← writeIds ids w
    let w ← ofWire w.listEnd
    let body ← ofWire w.bytes
    return ({ body } : Envelope).set Attribute.tagName (.u64 closedTag)

/-- Reads the stream numbers of a close message. -/
def readIds : Decoder (List StreamId) := do
  let body ← Reader.list
  let ids ← Decoder.ofExcept (Decoder.items (Decoder.ofReader Reader.u64) body)
  return ids.map StreamId.mk

/-- The message in an envelope. -/
def ofEnvelope (e : Envelope) : Except CodecError ClientMessage := do
  let tag ← e.u64 Attribute.tagName
  if tag = requestTag then
    let replyTo ← e.str Attribute.replyToName
    let id ← e.u64 Attribute.callName
    let method ← e.str Attribute.methodName
    let args ← Value.readList.exactly.run e.body
    return request { replyTo, id := ⟨id⟩, method, args }
  else if tag = closedTag then
    return closed (← readIds.exactly.run e.body)
  else
    throw (.unknownVariant ("client message tag " ++ Nat.repr tag.toNat))

end ClientMessage

namespace ServerMessage

def replyTag : UInt64 := 0

def observationTag : UInt64 := 1

/-- Writes the outcome of a call. -/
def writeResult (result : Except Failure WireValue) (w : Writer) : Except CodecError Writer := do
  let w ← match result with
    | .ok v => do v.write (← ofWire w.okBegin)
    | .error f => do f.write (← ofWire w.errBegin)
  ofWire w.resultEnd

/-- Writes what happened on a stream. -/
def writeEvent (event : Notification WireValue) (w : Writer) : Except CodecError Writer := do
  let w ← ofWire (w.variantBegin event.kind)
  let w ← match event with
    | .next v => v.write w
    | .error f => f.write w
    | .completed => ofWire w.unit
  ofWire w.variantEnd

/-- The envelope of a message. -/
def toEnvelope : ServerMessage → Except CodecError Envelope
  | reply id result => do
    let w ← writeResult result {}
    let body ← ofWire w.bytes
    return ({ body } : Envelope)
      |>.set Attribute.tagName (.u64 replyTag)
      |>.set Attribute.callName (.u64 id.val)
  | observation id event => do
    let w ← writeEvent event {}
    let body ← ofWire w.bytes
    return ({ body } : Envelope)
      |>.set Attribute.tagName (.u64 observationTag)
      |>.set Attribute.streamName (.u64 id.val)

/-- Reads the outcome of a call. -/
def readResult : Decoder (Except Failure WireValue) := do
  match ← Reader.result with
  | .ok body => return .ok (← Decoder.ofExcept (Value.read.exactly.run body))
  | .error body => return .error (← Decoder.ofExcept (Failure.read.exactly.run body))

/-- Reads what happened on a stream, from the body of a variant with this name. -/
def readEventNamed (kind : String) : Decoder (Notification WireValue) := do
  if kind = "next" then
    return .next (← Value.read)
  else if kind = "error" then
    return .error (← Failure.read)
  else if kind = "completed" then
    Reader.unit
    return .completed
  else
    throw (.unknownVariant ("notification kind " ++ kind))

/-- Reads what happened on a stream. -/
def readEvent : Decoder (Notification WireValue) := do
  let (kind, body) ← Reader.variant
  Decoder.ofExcept ((readEventNamed kind).exactly.run body)

/-- The message in an envelope. -/
def ofEnvelope (e : Envelope) : Except CodecError ServerMessage := do
  let tag ← e.u64 Attribute.tagName
  if tag = replyTag then
    let id ← e.u64 Attribute.callName
    return reply ⟨id⟩ (← readResult.exactly.run e.body)
  else if tag = observationTag then
    let id ← e.u64 Attribute.streamName
    return observation ⟨id⟩ (← readEvent.exactly.run e.body)
  else
    throw (.unknownVariant ("server message tag " ++ Nat.repr tag.toNat))

end ServerMessage

end StreamRpc
