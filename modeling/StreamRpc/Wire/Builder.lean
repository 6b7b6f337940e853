import StreamRpc.Wire.Call

/-! # Building trees call by call

A `Builder` takes the calls that a writer takes, and builds the trees that they describe.  It knows
nothing of bytes: a container that is open holds the items that it has so far, and becomes an item
of the one around it when it closes.

* `Builder.Room`   when every length in what has been built fits its prefix
-/

namespace StreamRpc.Wire

/-- A container with the items that it has so far. -/
inductive Sapling where
  | list (items : List Item)
  | map (entries : List (String × Item))
  | some (item : Option Item)
  | ok (item : Option Item)
  | err (item : Option Item)
  | variant (name : String) (item : Option Item)
  deriving Inhabited

/-- A container that has just been opened. -/
def Opening.sapling : Opening → Sapling
  | list => .list []
  | map => .map []
  | some => .some none
  | ok => .ok none
  | err => .err none
  | variant name => .variant name none

namespace Sapling

/-- What the container is to whoever closes it. -/
def scope : Sapling → Scope
  | list _ => .list
  | map _ => .map
  | some _ => .option
  | ok _ => .result
  | err _ => .result
  | variant _ _ => .variant

/-- What is wrong with one more item: a map takes variants only, and an option, a result or a
    variant takes one item only. -/
def refuses (isVariant : Bool) : Sapling → Option WireError
  | list _ => Option.none
  | map _ => if isVariant then Option.none else Option.some .invalidMapEntry
  | some item => item.map fun _ => .tooManyItems .option
  | ok item => item.map fun _ => .tooManyItems .result
  | err item => item.map fun _ => .tooManyItems .result
  | variant _ item => item.map fun _ => .tooManyItems .variant

/-- The container with one more item that it does not refuse. -/
def add (item : Item) : Sapling → Sapling
  | list items => list (items ++ [item])
  | map entries =>
    match item with
    | .variant name value => map (entries ++ [(name, value)])
    | _ => map entries
  | some _ => some (Option.some item)
  | ok _ => ok (Option.some item)
  | err _ => err (Option.some item)
  | variant name _ => variant name (Option.some item)

/-- The finished container; none, if its item is missing. -/
def finish? : Sapling → Option Item
  | list items => Option.some (.list items)
  | map entries => Option.some (.map entries)
  | some item => item.map .some
  | ok item => item.map .ok
  | err item => item.map .err
  | variant name item => item.map (.variant name)

end Sapling

/-- Trees that are being built. -/
structure Builder where
  /-- The trees that are finished, in order. -/
  roots : List Item := []
  /-- The containers that are open, innermost first. -/
  opened : List Sapling := []
  deriving Inhabited

namespace Builder

/-- What is wrong with one more item here; outside of all containers there may be any. -/
def refuses (b : Builder) (isVariant : Bool) : Option WireError :=
  match b.opened with
  | [] => none
  | s :: _ => s.refuses isVariant

/-- Adds an item. -/
def add (b : Builder) (item : Item) : Builder :=
  match b.opened with
  | [] => { b with roots := b.roots ++ [item] }
  | s :: opened => { b with opened := s.add item :: opened }

def leaf (b : Builder) (l : Leaf) : Except WireError Builder :=
  match b.refuses false with
  | some e => .error e
  | none => .ok (b.add l.item)

def opens (b : Builder) (o : Opening) : Except WireError Builder :=
  match b.refuses (o.scope = .variant) with
  | some e => .error e
  | none => .ok { b with opened := o.sapling :: b.opened }

def closes (b : Builder) (c : Closing) : Except WireError Builder :=
  match b.opened with
  | [] => .error .scopeUnderflow
  | s :: opened =>
    if s.scope ≠ c.scope then .error (.scopeMismatch c.scope s.scope)
    else
      match s.finish? with
      | none => .error (.emptyScope s.scope)
      | some item => .ok (({ b with opened } : Builder).add item)

/-- Makes a call. -/
def call (b : Builder) : Call → Except WireError Builder
  | .leaf l => b.leaf l
  | .opens o => b.opens o
  | .closes c => b.closes c

end Builder

instance : Recorder Builder where
  attempt b c :=
    match b.call c with
    | .ok b' => (none, b')
    | .error e => (some e, b)
  depth b := b.opened.length

/-! ## Bytes of what has been built -/

/-- The bytes that stand in the body of a container so far. -/
def Sapling.body : Sapling → Bytes
  | list items => Item.encodeAll items
  | map entries => Item.encodeEntries entries
  | some item => item.elim [] Item.encode
  | ok item => item.elim [] Item.encode
  | err item => item.elim [] Item.encode
  | variant name item => blob .string (utf8 name) ++ item.elim [] Item.encode

/-- The text or bytes that a call brings along fit a length prefix, and so does the body of the
    container that it closes. -/
def Builder.Room (b : Builder) : Call → Prop
  | .leaf (.str s) => (utf8 s).length < blobLimit
  | .leaf (.bytes bs) => bs.length < blobLimit
  | .leaf _ => True
  | .opens (.variant name) => (utf8 name).length < blobLimit
  | .opens _ => True
  | .closes _ => ∀ s ∈ b.opened.head?, s.body.length < blobLimit

instance (b : Builder) : (c : Call) → Decidable (b.Room c)
  | .leaf (.str s) => inferInstanceAs (Decidable ((utf8 s).length < blobLimit))
  | .leaf (.bytes bs) => inferInstanceAs (Decidable (bs.length < blobLimit))
  | .leaf .unit | .leaf (.bool _) | .leaf .none | .leaf (.u64 _) | .leaf (.s64 _) | .leaf (.f64 _)
  | .leaf (.handle _) => inferInstanceAs (Decidable True)
  | .opens (.variant name) => inferInstanceAs (Decidable ((utf8 name).length < blobLimit))
  | .opens .list | .opens .map | .opens .some | .opens .ok | .opens .err =>
    inferInstanceAs (Decidable True)
  | .closes _ => inferInstanceAs (Decidable (∀ s ∈ b.opened.head?, s.body.length < blobLimit))

end StreamRpc.Wire
