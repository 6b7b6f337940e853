import StreamRpc.Wire.Error
import StreamRpc.Wire.Item

/-! # Writing items

A `Writer` takes items one call at a time and keeps the containers that are still open.  Each
open container collects its own body, so its length is known when it closes and the whole
container goes into the one around it.  A call that is refused changes nothing: it gives an error
and no new writer.

* `Frame.body_push`   what is written last stands last
-/

namespace StreamRpc.Wire

/-- A container under construction, or the space outside of all containers. -/
structure Frame where
  scope : Scope
  /-- How many items it has. -/
  count : Nat := 0
  /-- What has been written into it, newest piece first. -/
  pieces : List Bytes := []
  deriving Repr, Inhabited

namespace Frame

/-- The bytes written so far. -/
def body (f : Frame) : Bytes :=
  f.pieces.reverse.flatten

/-- Adds one finished item. -/
def push (f : Frame) (item : Bytes) : Frame :=
  { f with count := f.count + 1, pieces := item :: f.pieces }

/-- A pushed item's bytes go to the end of the frame. -/
@[simp] theorem body_push (f : Frame) (item : Bytes) : (f.push item).body = f.body ++ item := by
  simp [body, push]

/-- Pushing an item does not change what kind of frame it is in. -/
@[simp] theorem scope_push (f : Frame) (item : Bytes) : (f.push item).scope = f.scope := rfl

/-- Pushing an item counts it. -/
@[simp] theorem count_push (f : Frame) (item : Bytes) : (f.push item).count = f.count + 1 := rfl

/-- What stands in the way of writing an item with this tag here: a map takes named entries only,
    and a scope for a single item takes no second one. -/
def refuses (f : Frame) (t : Tag) : Option WireError :=
  if f.scope = .map then
    if t = .variant then none else some .invalidMapEntry
  else if f.scope.single ∧ 1 ≤ f.count then some (.tooManyItems f.scope)
  else none

end Frame

/-- A writer with its open containers, innermost first, each waiting under the tag that the
    container inside of it will be written with. -/
structure Writer where
  top : Frame := { scope := .root }
  outer : List (Tag × Frame) := []
  deriving Repr, Inhabited

namespace Writer

/-- How many containers are open. -/
def depth (w : Writer) : Nat :=
  w.outer.length

/-- Writes a finished item under the given tag. -/
def put (w : Writer) (t : Tag) (item : Bytes) : Except WireError Writer :=
  match w.top.refuses t with
  | some e => .error e
  | none => .ok { w with top := w.top.push item }

/-- Writes a tag with a length-prefixed body. -/
def putBlob (w : Writer) (t : Tag) (body : Bytes) : Except WireError Writer :=
  if body.length < blobLimit then w.put t (blob t body) else .error (.blobTooLarge body.length)

/-- Opens a container. -/
def begin (w : Writer) (t : Tag) (scope : Scope) : Except WireError Writer :=
  match w.top.refuses t with
  | some e => .error e
  | none => .ok { top := { scope }, outer := (t, w.top) :: w.outer }

/-- Closes the innermost container, which must be of the given kind and complete. -/
def close (w : Writer) (expected : Scope) : Except WireError Writer :=
  match w.outer with
  | [] => .error .scopeUnderflow
  | (t, parent) :: outer =>
    if w.top.scope ≠ expected then .error (.scopeMismatch expected w.top.scope)
    else if w.top.scope.single ∧ w.top.count = 0 then .error (.emptyScope w.top.scope)
    else if w.top.body.length < blobLimit then
      .ok { top := parent.push (blob t w.top.body), outer }
    else .error (.blobTooLarge w.top.body.length)

/-- The bytes written, once every container is closed. -/
def bytes (w : Writer) : Except WireError Bytes :=
  if w.outer.isEmpty then .ok w.top.body else .error .scopeStillOpen

/-! ## The calls -/

def unit (w : Writer) : Except WireError Writer :=
  w.put .unit (marker .unit)

def bool (w : Writer) (b : Bool) : Except WireError Writer :=
  let t : Tag := if b then .boolTrue else .boolFalse
  w.put t (marker t)

def optionNone (w : Writer) : Except WireError Writer :=
  w.put .optionNone (marker .optionNone)

def u64 (w : Writer) (n : UInt64) : Except WireError Writer :=
  w.put .u64 (wide .u64 n.toNat)

/-- Signed numbers are written in two's complement. -/
def s64 (w : Writer) (n : Int64) : Except WireError Writer :=
  w.put .s64 (wide .s64 n.toUInt64.toNat)

/-- Floats are written as their bits. -/
def f64 (w : Writer) (bits : UInt64) : Except WireError Writer :=
  w.put .f64 (wide .f64 bits.toNat)

def handle (w : Writer) (n : UInt64) : Except WireError Writer :=
  w.put .handle (wide .handle n.toNat)

def str (w : Writer) (s : String) : Except WireError Writer :=
  w.putBlob .string (utf8 s)

def blobBytes (w : Writer) (b : Bytes) : Except WireError Writer :=
  w.putBlob .bytes b

def listBegin (w : Writer) : Except WireError Writer :=
  w.begin .list .list

def listEnd (w : Writer) : Except WireError Writer :=
  w.close .list

def mapBegin (w : Writer) : Except WireError Writer :=
  w.begin .map .map

def mapEnd (w : Writer) : Except WireError Writer :=
  w.close .map

def someBegin (w : Writer) : Except WireError Writer :=
  w.begin .optionSome .option

def someEnd (w : Writer) : Except WireError Writer :=
  w.close .option

def okBegin (w : Writer) : Except WireError Writer :=
  w.begin .resultOk .result

def errBegin (w : Writer) : Except WireError Writer :=
  w.begin .resultErr .result

def resultEnd (w : Writer) : Except WireError Writer :=
  w.close .result

/-- Opens a variant and writes its name, which does not count as its item. -/
def variantBegin (w : Writer) (name : String) : Except WireError Writer := do
  let w ← w.begin .variant .variant
  let w ← w.str name
  return { w with top := { w.top with count := 0 } }

def variantEnd (w : Writer) : Except WireError Writer :=
  w.close .variant

end Writer

end StreamRpc.Wire
