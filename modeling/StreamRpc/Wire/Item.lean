import StreamRpc.Wire.Text
import StreamRpc.Wire.Word

/-! # Items as trees

`Item` is the shape of everything the format can say, and `Item.encode` writes a whole tree at
once.  The writer and the reader work piece by piece; the tree form is what their work adds up to.
-/

namespace StreamRpc.Wire

/-- The three layouts an item can have. -/
def marker (t : Tag) : Bytes :=
  [t.byte]

/-- A tag and an eight-byte number. -/
def wide (t : Tag) (n : Nat) : Bytes :=
  t.byte :: Word.digits 8 n

/-- A tag, a four-byte length and that many bytes. -/
def blob (t : Tag) (body : Bytes) : Bytes :=
  t.byte :: (Word.digits 4 body.length ++ body)

/-- The longest body a length prefix can announce is one byte shorter than this. -/
def blobLimit : Nat := Word.capacity 4

/-- One item with everything inside it. -/
inductive Item where
  | unit
  | bool (b : Bool)
  | none
  | u64 (n : UInt64)
  | s64 (n : Int64)
  /-- A float, held as its 64 bits. -/
  | f64 (bits : UInt64)
  /-- A number that refers to something outside of the bytes. -/
  | handle (n : UInt64)
  | str (s : String)
  | bytes (b : Bytes)
  | list (items : List Item)
  | map (entries : List (String × Item))
  | some (item : Item)
  | ok (item : Item)
  | err (item : Item)
  | variant (name : String) (item : Item)
  deriving Repr, Inhabited

namespace Item

mutual

/-- The bytes of an item. -/
def encode : Item → Bytes
  | unit => marker .unit
  | bool true => marker .boolTrue
  | bool false => marker .boolFalse
  | none => marker .optionNone
  | u64 n => wide .u64 n.toNat
  | s64 n => wide .s64 n.toUInt64.toNat
  | f64 n => wide .f64 n.toNat
  | handle n => wide .handle n.toNat
  | str s => blob .string (utf8 s)
  | bytes b => blob .bytes b
  | list items => blob .list (encodeAll items)
  | map entries => blob .map (encodeEntries entries)
  | some item => blob .optionSome (encode item)
  | ok item => blob .resultOk (encode item)
  | err item => blob .resultErr (encode item)
  | variant name item => blob .variant (blob .string (utf8 name) ++ encode item)

/-- The bytes of items one after another. -/
def encodeAll : List Item → Bytes
  | [] => []
  | item :: items => encode item ++ encodeAll items

/-- The bytes of map entries one after another; an entry is written like a variant. -/
def encodeEntries : List (String × Item) → Bytes
  | [] => []
  | (name, item) :: entries =>
    blob .variant (blob .string (utf8 name) ++ encode item) ++ encodeEntries entries

end

/-- The encoding of two lists in a row is the two encodings in a row. -/
theorem encodeAll_append (xs ys : List Item) :
    encodeAll (xs ++ ys) = encodeAll xs ++ encodeAll ys := by
  induction xs with
  | nil => rfl
  | cons x xs ih => simp [encodeAll, ih]

/-- The encoding of two entry lists in a row is the two encodings in a row. -/
theorem encodeEntries_append (xs ys : List (String × Item)) :
    encodeEntries (xs ++ ys) = encodeEntries xs ++ encodeEntries ys := by
  induction xs with
  | nil => rfl
  | cons x xs ih => obtain ⟨name, item⟩ := x; simp [encodeEntries, ih]

end Item

end StreamRpc.Wire
