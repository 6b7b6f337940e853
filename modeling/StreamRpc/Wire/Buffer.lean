import StreamRpc.Wire.Call

/-! # Writing into one buffer

A `Buffer` takes the same calls as a writer, but puts everything it is given at the end of one
stretch of bytes.  The length of a container is not known before it closes, so a gap is left for it
and filled then.  Calls have effects on the buffer, and one that is refused keeps those it had
before.

A buffer can always be told from the writer that got the same calls: see
`StreamRpc.Proofs.Wire.Patching`.
-/

namespace StreamRpc.Wire

/-- A container that is open, or the space outside of all containers. -/
structure Mark where
  /-- Where its body starts. -/
  start : Nat := 0
  scope : Scope
  /-- How many items it has. -/
  count : Nat := 0
  deriving DecidableEq, Repr, Inhabited

/-- What stands in the way of writing an item with this tag here. -/
def Mark.refuses (m : Mark) (t : Tag) : Option WireError :=
  ({ scope := m.scope, count := m.count } : Frame).refuses t

/-- A stretch of bytes with its open containers, innermost first. -/
structure Buffer where
  written : Bytes := []
  top : Mark := { scope := .root }
  outer : List Mark := []
  deriving DecidableEq, Repr, Inhabited

/-- Work on a buffer. -/
abbrev Writing := EStateM WireError Buffer Unit

namespace Buffer

/-- How many containers are open. -/
def depth (b : Buffer) : Nat :=
  b.outer.length

/-- Stands where a length will be. -/
def gap : Bytes := [0, 0, 0, 0]

/-- Fills the gap before the body that starts here with a length. -/
def fill (bs : Bytes) (start len : Nat) : Bytes :=
  bs.take (start - gap.length) ++ Word.digits gap.length len ++ bs.drop start

/-! ## Steps -/

/-- Puts bytes at the end. -/
def append (bs : Bytes) : Writing :=
  modify fun b => { b with written := b.written ++ bs }

/-- Counts one more item in the innermost container. -/
def count : Writing :=
  modify fun b => { b with top := { b.top with count := b.top.count + 1 } }

/-- Writes a tag, if an item with this tag may stand here. -/
def tag (t : Tag) : Writing := do
  match (← get).top.refuses t with
  | some e => throw e
  | none => append [t.byte]

/-- Writes an item that is nothing but its tag. -/
def marker (t : Tag) : Writing := do
  tag t
  count

/-- Writes a tag and an eight-byte number. -/
def wide (t : Tag) (n : Nat) : Writing := do
  tag t
  append (Word.digits 8 n)
  count

/-- Writes a tag, a length and that many bytes. -/
def blob (t : Tag) (body : Bytes) : Writing := do
  if body.length < blobLimit then
    tag t
    append (Word.digits 4 body.length)
    append body
    count
  else throw (.blobTooLarge body.length)

/-- Opens a container. -/
def begin (t : Tag) (scope : Scope) : Writing := do
  tag t
  append gap
  modify fun b => { b with top := { start := b.written.length, scope }, outer := b.top :: b.outer }

/-- Closes the innermost container, which must be of the given kind and complete.  A container that
    is too long for its length is not open any more after the error. -/
def close (expected : Scope) : Writing := do
  let b ← get
  match b.outer with
  | [] => throw .scopeUnderflow
  | parent :: outer =>
    if b.top.scope ≠ expected then throw (.scopeMismatch expected b.top.scope)
    else if b.top.scope.single ∧ b.top.count = 0 then throw (.emptyScope b.top.scope)
    else
      -- The container is closed before its length is looked at.
      set { b with top := parent, outer }
      let len := b.written.length - b.top.start
      if len < blobLimit then
        modify fun b' => { b' with written := fill b'.written b.top.start len }
        count
      else throw (.blobTooLarge len)

/-! ## The calls -/

def leaf : Leaf → Writing
  | .unit => marker .unit
  | .bool b => marker (if b then .boolTrue else .boolFalse)
  | .none => marker .optionNone
  | .u64 n => wide .u64 n.toNat
  | .s64 n => wide .s64 n.toUInt64.toNat
  | .f64 bits => wide .f64 bits.toNat
  | .handle n => wide .handle n.toNat
  | .str s => blob .string (utf8 s)
  | .bytes b => blob .bytes b

/-- The name of a variant is written like an item, and does not count as one. -/
def opens : Opening → Writing
  | .variant name => do
    begin .variant .variant
    blob .string (utf8 name)
    modify fun b => { b with top := { b.top with count := 0 } }
  | o => begin o.tag o.scope

/-- Makes a call. -/
def call : Call → Writing
  | .leaf l => leaf l
  | .opens o => opens o
  | .closes c => close c.scope

/-- The bytes written, once every container is closed. -/
def bytes (b : Buffer) : Except WireError Bytes :=
  if b.outer.isEmpty then .ok b.written else .error .scopeStillOpen

end Buffer

instance : Recorder Buffer where
  attempt b c :=
    match Buffer.call c b with
    | .ok () b' => (none, b')
    | .error e b' => (some e, b')
  depth := Buffer.depth

end StreamRpc.Wire
