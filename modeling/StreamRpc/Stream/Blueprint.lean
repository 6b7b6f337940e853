import StreamRpc.Stream.Source

/-! # Descriptions of sources

A method says what its answer is before there are any sources: the slots of its value hold
blueprints.  Building one makes the sources in the order in which they stand in the value, depth
first, those in the items of a source before the source itself.  Channels get their publishers in
this order.
-/

namespace StreamRpc

/-- What a source is to be. -/
inductive Blueprint where
  /-- These items, each with a stream that is retired when the item is asked for, if any. -/
  | listed (items : List (Option StreamId × Except Failure (Value Blueprint)))
  /-- The numbers below `stop`. -/
  | counting (stop : UInt64)
  | channel
  deriving Inhabited

/-- A value as a method describes it. -/
abbrev DraftValue := Value Blueprint

namespace Blueprint

/-- These values, then the completion. -/
def ofValues (values : List DraftValue) : Blueprint :=
  listed (values.map fun v => (none, .ok v))

/-- A failure at once. -/
def failed (f : Failure) : Blueprint :=
  listed [(none, .error f)]

mutual

/-- Makes a source. -/
def build : Blueprint → Sources → SourceRef × Sources
  | listed items, s =>
    let (items, s) := buildItems items s
    s.insert (.listed items)
  | counting stop, s => s.insert (.counting 0 stop)
  | channel, s => s.openChannel

/-- Makes the sources in items in turn. -/
def buildItems : List (Option StreamId × Except Failure (Value Blueprint)) → Sources →
    List Emission × Sources
  | [], s => ([], s)
  | (retires, .error f) :: items, s =>
    let (items, s) := buildItems items s
    ({ outcome := .error f, retires } :: items, s)
  | (retires, .ok v) :: items, s =>
    let (v, s) := buildValue v s
    let (items, s) := buildItems items s
    ({ outcome := .ok v, retires } :: items, s)

/-- Makes the sources in a value. -/
def buildValue : Value Blueprint → Sources → ServerValue × Sources
  | .unit, s => (.unit, s)
  | .bool b, s => (.bool b, s)
  | .u64 n, s => (.u64 n, s)
  | .s64 n, s => (.s64 n, s)
  | .f64 n, s => (.f64 n, s)
  | .str t, s => (.str t, s)
  | .bytes b, s => (.bytes b, s)
  | .list items, s =>
    let (items, s) := buildValues items s
    (.list items, s)
  | .record fields, s =>
    let (fields, s) := buildFields fields s
    (.record fields, s)
  | .absent, s => (.absent, s)
  | .present v, s =>
    let (v, s) := buildValue v s
    (.present v, s)
  | .variant name v, s =>
    let (v, s) := buildValue v s
    (.variant name v, s)
  | .stream b, s =>
    let (r, s) := build b s
    (.stream r, s)

/-- Makes the sources in values in turn. -/
def buildValues : List (Value Blueprint) → Sources → List ServerValue × Sources
  | [], s => ([], s)
  | v :: vs, s =>
    let (v, s) := buildValue v s
    let (vs, s) := buildValues vs s
    (v :: vs, s)

/-- Makes the sources in fields in turn. -/
def buildFields : List (String × Value Blueprint) → Sources → List (String × ServerValue) × Sources
  | [], s => ([], s)
  | (name, v) :: fields, s =>
    let (v, s) := buildValue v s
    let (fields, s) := buildFields fields s
    ((name, v) :: fields, s)

end

end Blueprint

/-- Makes the sources that a value describes. -/
def Sources.build (s : Sources) (v : DraftValue) : ServerValue × Sources :=
  Blueprint.buildValue v s

end StreamRpc
