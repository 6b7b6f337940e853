import StreamRpc.Wire.Reader

/-! # Reading what was written

An item whose lengths all fit their prefixes can be read back, whatever follows it: taken whole by
`Reader.item`, or by the typed read it was written for.

* `Reader.item_encode`      an item is taken whole
* `Reader.nextItem_encode`  the items of a list body come off one by one
* `Reader.nextEntry_append` and so do the entries of a map body
-/

namespace StreamRpc.Wire

namespace Item

mutual

/-- Every length prefix in the item can say the length it has to. -/
def Fits : Item → Prop
  | str s => (utf8 s).length < blobLimit
  | bytes b => b.length < blobLimit
  | list items => (encodeAll items).length < blobLimit ∧ AllFit items
  | map entries => (encodeEntries entries).length < blobLimit ∧ EntriesFit entries
  | some item => (encode item).length < blobLimit ∧ Fits item
  | ok item => (encode item).length < blobLimit ∧ Fits item
  | err item => (encode item).length < blobLimit ∧ Fits item
  | variant name item =>
    (utf8 name).length < blobLimit ∧
      (blob .string (utf8 name) ++ encode item).length < blobLimit ∧ Fits item
  | _ => True

/-- `Fits` for each item in turn. -/
def AllFit : List Item → Prop
  | [] => True
  | item :: items => Fits item ∧ AllFit items

/-- `Fits` for each entry in turn, as if it were a variant. -/
def EntriesFit : List (String × Item) → Prop
  | [] => True
  | (name, item) :: entries =>
    ((utf8 name).length < blobLimit ∧
      (blob .string (utf8 name) ++ encode item).length < blobLimit ∧ Fits item) ∧
      EntriesFit entries

end

end Item

namespace Reader

/-! ## Layouts -/

/-- A reader that succeeds passes its result and the rest on. -/
theorem bind_of_ok {ε α β : Type} {x : Reader ε α} {f : α → Reader ε β} {bs mid : Bytes} {a : α}
    (h : x bs = .ok a mid) : (x >>= f) bs = f a mid := by
  simp only [bind, EStateM.bind, h]

/-- A reader that fails ends the sequence. -/
theorem bind_of_error {ε α β : Type} {x : Reader ε α} {f : α → Reader ε β} {bs left : Bytes} {e : ε}
    (h : x bs = .error e left) : (x >>= f) bs = .error e left := by
  simp only [bind, EStateM.bind, h]

/-- What is read whatever comes after it is read where nothing does. -/
theorem alone {ε α : Type} {x : Reader ε α} {bs : Bytes} {a : α}
    (h : ∀ rest, x (bs ++ rest) = .ok a rest) : x bs = .ok a [] := by
  have hnil := h []
  rwa [List.append_nil] at hnil

/-- A marker's tag is seen. -/
theorem peek_marker (t : Tag) (rest : Bytes) :
    peek (marker t ++ rest) = .ok t (marker t ++ rest) :=
  peek_cons t rest

/-- A wide number's tag is seen. -/
theorem peek_wide (t : Tag) (n : Nat) (rest : Bytes) :
    peek (Wire.wide t n ++ rest) = .ok t (Wire.wide t n ++ rest) :=
  peek_cons t _

/-- A blob's tag is seen. -/
theorem peek_blob (t : Tag) (body rest : Bytes) :
    peek (Wire.blob t body ++ rest) = .ok t (Wire.blob t body ++ rest) :=
  peek_cons t _

/-- One byte is taken off the front. -/
private theorem take_one (b : UInt8) (rest : Bytes) : take 1 (b :: rest) = .ok [b] rest := by
  simp [take]

/-- A number is read back from its digits. -/
private theorem number_append (k n : Nat) (rest : Bytes) (h : n < Word.capacity k) :
    number k (Word.digits k n ++ rest) = .ok n rest := by
  have ht := take_append (Word.digits k n) rest
  rw [Word.length_digits] at ht
  rw [number, bind_of_ok ht, Word.value_digits h]
  rfl

/-- A wide number is read back from its encoding. -/
theorem wide_append (t : Tag) (n : UInt64) (rest : Bytes) :
    wide t (Wire.wide t n.toNat ++ rest) = .ok n rest := by
  have hn : n.toNat < Word.capacity 8 := n.toNat_lt
  rw [wide, Wire.wide, List.cons_append, bind_of_ok (tag_cons t _),
    bind_of_ok (number_append 8 n.toNat rest hn)]
  simp [pure, EStateM.pure]

/-- A marker is one item. -/
theorem item_marker {t : Tag} (ht : t.width? = some 0) (rest : Bytes) :
    item (marker t ++ rest) = .ok (marker t) rest := by
  rw [item, marker, List.singleton_append, bind_of_ok (peek_cons t rest),
    bind_of_ok (take_one t.byte rest)]
  simp [ht, bind, EStateM.bind, take, pure, EStateM.pure]

/-- A wide number is one item. -/
theorem item_wide {t : Tag} (ht : t.width? = some 8) (n : Nat) (rest : Bytes) :
    item (Wire.wide t n ++ rest) = .ok (Wire.wide t n) rest := by
  have hd := take_append (Word.digits 8 n) rest
  rw [Word.length_digits] at hd
  rw [item, Wire.wide, List.cons_append, bind_of_ok (peek_cons t _),
    bind_of_ok (take_one t.byte _)]
  simp only [ht]
  rw [bind_of_ok hd]
  rfl

/-- A blob is one item. -/
theorem item_blob {t : Tag} (ht : t.width? = none) {body : Bytes} (rest : Bytes)
    (h : body.length < blobLimit) : item (Wire.blob t body ++ rest) = .ok (Wire.blob t body) rest := by
  have hd := take_append (Word.digits 4 body.length) (body ++ rest)
  rw [Word.length_digits] at hd
  rw [item, Wire.blob, List.cons_append, List.append_assoc, bind_of_ok (peek_cons t _),
    bind_of_ok (take_one t.byte _)]
  simp only [ht]
  rw [bind_of_ok hd, Word.value_digits h, bind_of_ok (take_append body rest)]
  simp [pure, EStateM.pure]

/-! ## Typed reads -/

/-- A truth value is read back from its encoding. -/
theorem bool_append (b : Bool) (rest : Bytes) :
    bool ((Item.bool b).encode ++ rest) = .ok b rest := by
  -- The tag is looked at before it is read, as it is all there is of the value.
  cases b with
  | true => exact (bind_of_ok (peek_cons .boolTrue rest)).trans (bind_of_ok (tag_cons .boolTrue rest))
  | false =>
    exact (bind_of_ok (peek_cons .boolFalse rest)).trans (bind_of_ok (tag_cons .boolFalse rest))

/-- A signed number is read back from its encoding. -/
theorem s64_append (n : Int64) (rest : Bytes) :
    s64 (Wire.wide .s64 n.toUInt64.toNat ++ rest) = .ok n rest := by
  rw [s64, bind_of_ok (wide_append .s64 n.toUInt64 rest)]
  simp [pure, EStateM.pure]

/-- An absent value is read back from its encoding. -/
theorem option_none_append (rest : Bytes) :
    option (marker .optionNone ++ rest) = .ok none rest :=
  (bind_of_ok (peek_cons .optionNone rest)).trans (bind_of_ok (tag_cons .optionNone rest))

/-- A present value's body is read back from its encoding. -/
theorem option_some_append {body : Bytes} (rest : Bytes) (fits : body.length < blobLimit) :
    option (Wire.blob .optionSome body ++ rest) = .ok (some body) rest := by
  rw [option, bind_of_ok (peek_blob .optionSome body rest)]
  exact bind_of_ok (blob_append rest fits)

/-- A success's body is read back from its encoding. -/
theorem result_ok_append {body : Bytes} (rest : Bytes) (fits : body.length < blobLimit) :
    result (Wire.blob .resultOk body ++ rest) = .ok (.ok body) rest := by
  rw [result, bind_of_ok (peek_blob .resultOk body rest)]
  exact bind_of_ok (blob_append rest fits)

/-- An error's body is read back from its encoding. -/
theorem result_err_append {body : Bytes} (rest : Bytes) (fits : body.length < blobLimit) :
    result (Wire.blob .resultErr body ++ rest) = .ok (.error body) rest := by
  rw [result, bind_of_ok (peek_blob .resultErr body rest)]
  exact bind_of_ok (blob_append rest fits)

/-! ## Items -/

/-- An item is taken whole, whatever follows it. -/
theorem item_encode (i : Item) (h : i.Fits) (rest : Bytes) :
    item (i.encode ++ rest) = .ok i.encode rest := by
  -- Skipping looks at the tag only: a marker, a fixed width, or a length in front.
  cases i with
  | unit => exact item_marker rfl rest
  | bool b => cases b <;> exact item_marker rfl rest
  | none => exact item_marker rfl rest
  | u64 n => exact item_wide rfl _ rest
  | s64 n => exact item_wide rfl _ rest
  | f64 n => exact item_wide rfl _ rest
  | handle n => exact item_wide rfl _ rest
  | str s => exact item_blob rfl rest h
  | bytes b => exact item_blob rfl rest h
  | list items => exact item_blob rfl rest h.1
  | map entries => exact item_blob rfl rest h.1
  | some i => exact item_blob rfl rest h.1
  | ok i => exact item_blob rfl rest h.1
  | err i => exact item_blob rfl rest h.1
  | variant name i => exact item_blob rfl rest h.2.1

/-- Every item takes at least its tag. -/
theorem encode_ne_nil (i : Item) : i.encode ≠ [] := by
  cases i with
  | bool b => cases b <;> simp [Item.encode, marker]
  | _ => simp [Item.encode, marker, Wire.wide, Wire.blob]

/-- The first item of a list body comes off, and the rest is left. -/
theorem nextItem_encode (i : Item) (h : i.Fits) (rest : Bytes) :
    nextItem (i.encode ++ rest) = .ok (some i.encode) rest := by
  have hne : (i.encode ++ rest).isEmpty = false := by
    simp [List.isEmpty_eq_false_iff, encode_ne_nil]
  simp only [nextItem, hne, item_encode i h rest, Bool.false_eq_true, if_false]

/-- A variant's name and body are read back from its encoding. -/
theorem variant_append {name : String} {body : Bytes} (rest : Bytes)
    (hn : (utf8 name).length < blobLimit)
    (hb : (Wire.blob .string (utf8 name) ++ body).length < blobLimit) :
    variant (Wire.blob .variant (Wire.blob .string (utf8 name) ++ body) ++ rest) =
      .ok (name, body) rest := by
  rw [variant, bind_of_ok (blob_append rest hb)]
  simp only [str_append body hn]
  rfl

/-- The first entry of a map body comes off, and the rest is left. -/
theorem nextEntry_append {name : String} {body : Bytes} (rest : Bytes)
    (hn : (utf8 name).length < blobLimit)
    (hb : (Wire.blob .string (utf8 name) ++ body).length < blobLimit) :
    nextEntry (Wire.blob .variant (Wire.blob .string (utf8 name) ++ body) ++ rest) =
      .ok (some (name, body)) rest := by
  have hne : (Wire.blob .variant (Wire.blob .string (utf8 name) ++ body) ++ rest).isEmpty = false := by
    simp [Wire.blob]
  simp only [nextEntry, hne, variant_append rest hn hb, Bool.false_eq_true, if_false]

end Reader

end StreamRpc.Wire
