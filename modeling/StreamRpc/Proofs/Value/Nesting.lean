import StreamRpc.Proofs.Value.Canonical

/-! # One bound on nesting

Writing and reading count levels apart from each other, at every kind of container, and stop at
the same one: a value whose lengths fit is written exactly if it is not too deep, what was written
is read back, and a value that is too deep is refused by the reader too, however its bytes came
about.

* `Value.ofWire_writeFreely`   writing without a bound is writing with room enough
* `Value.readWithin_deep`      reading stops where a level is too deep
* `nesting_bound_shared`       both sides stop at the same level
-/

namespace StreamRpc

open Wire (Bytes Reader Writer WireError Item)

/-- Two wire steps in a row are reported as the two steps. -/
private theorem ofWire_bind {α β : Type} (x : Except WireError α) (f : α → Except WireError β) :
    ofWire (x >>= f) = ofWire x >>= fun a => ofWire (f a) := by
  cases x <;> rfl

namespace Value

/-! ## Writing without a bound -/

mutual

/-- Writes a value call by call, however deep it is. -/
def writeFreely : WireValue → Writer → Except WireError Writer
  | unit, w => w.unit
  | bool b, w => w.bool b
  | u64 n, w => w.u64 n
  | s64 n, w => w.s64 n
  | f64 bits, w => w.f64 bits
  | str s, w => w.str s
  | bytes b, w => w.blobBytes b
  | list items, w => do
    let w ← w.listBegin
    let w ← writeItemsFreely items w
    w.listEnd
  | record fields, w => do
    let w ← w.mapBegin
    let w ← writeFieldsFreely fields w
    w.mapEnd
  | absent, w => w.optionNone
  | present v, w => do
    let w ← w.someBegin
    let w ← writeFreely v w
    w.someEnd
  | variant name v, w => do
    let w ← w.variantBegin name
    let w ← writeFreely v w
    w.variantEnd
  | stream id, w => w.handle id.val

/-- `writeFreely` for items one after another. -/
def writeItemsFreely : List WireValue → Writer → Except WireError Writer
  | [], w => .ok w
  | v :: items, w => do
    let w ← writeFreely v w
    writeItemsFreely items w

/-- `writeFreely` for fields one after another, each as a variant that bears its name. -/
def writeFieldsFreely : List (String × WireValue) → Writer → Except WireError Writer
  | [], w => .ok w
  | (name, v) :: fields, w => do
    let w ← w.variantBegin name
    let w ← writeFreely v w
    let w ← w.variantEnd
    writeFieldsFreely fields w

end

/-- Writes an argument list call by call, however deep its values are. -/
def writeListFreely (vs : List WireValue) (w : Writer) : Except WireError Writer := do
  let w ← w.listBegin
  let w ← writeItemsFreely vs w
  w.listEnd

mutual

/-- Writing without a bound is writing with room enough. -/
theorem ofWire_writeFreely (v : WireValue) (room : Nat) (hd : v.depth < room) (w : Writer) :
    ofWire (v.writeFreely w) = v.writeWithin room w := by
  -- With more room than the value needs, the check never fails on the way down.
  obtain ⟨room, rfl⟩ : ∃ r, room = r + 1 := ⟨room - 1, by omega⟩
  cases v with
  | list items =>
    have hi := ofWire_writeItemsFreely items room (Nat.le_of_lt_succ (by simpa [depth] using hd))
    simp only [writeFreely, writeWithin, ofWire_bind, hi]
  | record fields =>
    have hi := ofWire_writeFieldsFreely fields room (Nat.le_of_lt_succ (by simpa [depth] using hd))
    simp only [writeFreely, writeWithin, ofWire_bind, hi]
  | present v =>
    have hv := ofWire_writeFreely v room (by simpa [depth] using hd)
    simp only [writeFreely, writeWithin, ofWire_bind, hv]
  | variant name v =>
    have hv := ofWire_writeFreely v room (by simpa [depth] using hd)
    simp only [writeFreely, writeWithin, ofWire_bind, hv]
  | _ => simp only [writeFreely, writeWithin]

/-- Below the limit a list's items are written as without one. -/
private theorem ofWire_writeItemsFreely (items : List WireValue) (room : Nat)
    (hd : depthOfItems items ≤ room) (w : Writer) :
    ofWire (writeItemsFreely items w) = writeItems items room w := by
  cases items with
  | nil => rw [writeItemsFreely, writeItems]; rfl
  | cons v items =>
    rw [depthOfItems] at hd
    have hv := ofWire_writeFreely v room (by omega)
    have hi := ofWire_writeItemsFreely items room (by omega)
    simp only [writeItemsFreely, writeItems, ofWire_bind, hv, hi]

/-- Below the limit a record's fields are written as without one. -/
private theorem ofWire_writeFieldsFreely (fields : List (String × WireValue)) (room : Nat)
    (hd : depthOfFields fields ≤ room) (w : Writer) :
    ofWire (writeFieldsFreely fields w) = writeFields fields room w := by
  cases fields with
  | nil => rw [writeFieldsFreely, writeFields]; rfl
  | cons field fields =>
    obtain ⟨name, v⟩ := field
    rw [depthOfFields] at hd
    have hv := ofWire_writeFreely v room (by omega)
    have hi := ofWire_writeFieldsFreely fields room (by omega)
    simp only [writeFieldsFreely, writeFields, ofWire_bind, hv, hi]

end

/-- A value whose lengths fit can always be written without a bound. -/
private theorem writeFreely_ok {v : WireValue} {w : Writer} (hw : w.Accepts) (hf : v.toItem.Fits) :
    ∃ w', v.writeFreely w = .ok w' ∧ w.Grows v.toItem.encode 1 w' := by
  have hd : v.depth < v.depth + 1 := Nat.lt_succ_self _
  obtain ⟨w', hw'⟩ := writeWithin_ok hw hf hd
  rw [← ofWire_writeFreely v _ hd, ofWire_eq_ok_iff] at hw'
  refine ⟨w', hw', (writeWithin_grows v (v.depth + 1) ?_).2.2⟩
  rw [← ofWire_writeFreely v _ hd, ofWire_eq_ok_iff, hw']

/-- Without a limit a list that fits is written whole. -/
private theorem writeListFreely_ok {vs : List WireValue} {w : Writer} (hw : w.Accepts)
    (hf : (Item.list (toItems vs)).Fits) :
    ∃ w', writeListFreely vs w = .ok w' ∧ w.Grows (Item.list (toItems vs)).encode 1 w' := by
  -- A list with these items is written by the same calls as the argument list.
  obtain ⟨w', hw', hg⟩ := writeFreely_ok (v := list vs) hw hf
  exact ⟨w', by rwa [writeFreely] at hw', hg⟩

end Value

/-! ## Reading what is too deep -/

namespace Decoder

variable {α : Type} {e : CodecError}

/-- A lifted error is the error and reads nothing. -/
private theorem ofExcept_of_error {r : Except CodecError α} {bs : Bytes} (h : r = .error e) :
    ofExcept r bs = .error e bs := by
  simp only [ofExcept, h]

/-- An item in front of a body that cannot be read for this reason, or that is itself the
    reason. -/
private theorem items_of_error {d : Decoder α} {i : Item} (hi : i.Fits) {rest : Bytes}
    (h : d.run i.encode = .error e ∨ (∃ a, d.run i.encode = .ok a) ∧ d.items rest = .error e) :
    d.items (i.encode ++ rest) = .error e := by
  have hn := Reader.nextItem_encode i hi rest
  rw [items]
  split
  · next hnext => rw [hn] at hnext; cases hnext
  · next hnext => rw [hn] at hnext; cases hnext
  · next found rest' hnext =>
    rw [hn] at hnext
    injection hnext with h1 h2
    obtain rfl := Option.some.inj h1
    subst h2
    -- Either the first item is refused or one of the others.
    rcases h with he | ⟨⟨a, ha⟩, hrest⟩
    · simp only [he]
    · simp only [ha, hrest]

/-- `items_of_error` for the entries of a map body. -/
private theorem entries_of_error {d : String → Decoder α} {name : String} {body rest : Bytes}
    (hn : (Wire.utf8 name).length < Wire.blobLimit)
    (hb : (Wire.blob .string (Wire.utf8 name) ++ body).length < Wire.blobLimit)
    (h : (d name).run body = .error e ∨
      (∃ a, (d name).run body = .ok a) ∧ entries d rest = .error e) :
    entries d (Wire.blob .variant (Wire.blob .string (Wire.utf8 name) ++ body) ++ rest) =
      .error e := by
  have hfirst := Reader.nextEntry_append rest hn hb
  rw [entries]
  split
  · next hnext => rw [hfirst] at hnext; cases hnext
  · next hnext => rw [hfirst] at hnext; cases hnext
  · next name' found rest' hnext =>
    rw [hfirst] at hnext
    injection hnext with h1 h2
    injection Option.some.inj h1 with h3 h4
    subst h2 h3 h4
    -- Either the first entry is refused or one of the others.
    rcases h with he | ⟨⟨a, ha⟩, hrest⟩
    · simp only [he]
    · simp only [ha, hrest]

end Decoder

namespace Value

open Wire.Reader (bind_of_ok bind_of_error peek_blob)
open Decoder (lift_bind ofExcept_of_error run_of_ok run_exactly_of_ok run_of_error
  run_exactly_of_error)

mutual

/-- Reading stops at a level that is too deep, whatever stands before and after it. -/
theorem readWithin_deep (v : WireValue) (room : Nat) (hd : room ≤ v.depth) (hf : v.toItem.Fits)
    (rest : Bytes) :
    ∃ left, readWithin room (v.toItem.encode ++ rest) = .error .nestingTooDeep left := by
  cases room with
  | zero => exact ⟨_, rfl⟩
  | succ room =>
    -- At each container the room shrinks by one, as the depth of what is inside does.
    cases v with
    | list items =>
      have hi := items_deep items room (Nat.lt_of_succ_le (by simpa [depth] using hd)) hf.2
      rw [toItem, Item.encode, readWithin, lift_bind (peek_blob _ _ rest)]
      refine ⟨rest, (lift_bind (Reader.blob_append rest hf.1)).trans ?_⟩
      exact bind_of_error (ofExcept_of_error hi)
    | record fields =>
      have hi := entries_deep fields room (Nat.lt_of_succ_le (by simpa [depth] using hd)) hf.2
      rw [toItem, Item.encode, readWithin, lift_bind (peek_blob _ _ rest)]
      refine ⟨rest, (lift_bind (Reader.blob_append rest hf.1)).trans ?_⟩
      exact bind_of_error (ofExcept_of_error hi)
    | present v =>
      obtain ⟨left, hv⟩ := readWithin_deep v room (by simpa [depth] using hd) hf.2 []
      rw [List.append_nil] at hv
      rw [toItem, Item.encode, readWithin, lift_bind (peek_blob _ _ rest)]
      refine ⟨rest, (lift_bind (Reader.option_some_append rest hf.1)).trans ?_⟩
      exact bind_of_error (ofExcept_of_error (run_exactly_of_error hv))
    | variant name v =>
      obtain ⟨left, hv⟩ := readWithin_deep v room (by simpa [depth] using hd) hf.2.2 []
      rw [List.append_nil] at hv
      rw [toItem, Item.encode, readWithin, lift_bind (peek_blob _ _ rest)]
      refine ⟨rest, (lift_bind (Reader.variant_append rest hf.1 hf.2.1)).trans ?_⟩
      exact bind_of_error (ofExcept_of_error (run_exactly_of_error hv))
    -- Everything else has depth zero.
    | _ => simp [depth] at hd

/-- `readWithin_deep` for the items of a list. -/
private theorem items_deep (items : List WireValue) (room : Nat) (hd : room < depthOfItems items)
    (hf : Item.AllFit (toItems items)) :
    Decoder.items (readWithin room) (Item.encodeAll (toItems items)) = .error .nestingTooDeep := by
  cases items with
  | nil => simp [depthOfItems] at hd
  | cons v items =>
    rw [depthOfItems] at hd
    refine Decoder.items_of_error hf.1 ?_
    by_cases hv : v.depth < room
    · -- The first item can be read, so one of the others is too deep.
      have hread := Reader.alone (readWithin_encode v room hv hf.1)
      exact .inr ⟨⟨v, run_of_ok hread⟩, items_deep items room (by omega) hf.2⟩
    · obtain ⟨left, hread⟩ := readWithin_deep v room (by omega) hf.1 []
      rw [List.append_nil] at hread
      exact .inl (run_of_error hread)

/-- `readWithin_deep` for the fields of a record. -/
private theorem entries_deep (fields : List (String × WireValue)) (room : Nat)
    (hd : room < depthOfFields fields) (hf : Item.EntriesFit (toEntries fields)) :
    Decoder.entries (fun _ => (readWithin room).exactly) (Item.encodeEntries (toEntries fields)) =
      .error .nestingTooDeep := by
  cases fields with
  | nil => simp [depthOfFields] at hd
  | cons field fields =>
    obtain ⟨name, v⟩ := field
    obtain ⟨⟨hn, hb, hv⟩, hfs⟩ := hf
    rw [depthOfFields] at hd
    refine Decoder.entries_of_error hn hb ?_
    -- As with items: if the first can be read, one of the others is too deep.
    by_cases hroom : v.depth < room
    · have hread := Reader.alone (readWithin_encode v room hroom hv)
      exact .inr ⟨⟨v, run_exactly_of_ok hread⟩, entries_deep fields room (by omega) hfs⟩
    · obtain ⟨left, hread⟩ := readWithin_deep v room (by omega) hv []
      rw [List.append_nil] at hread
      exact .inl (run_exactly_of_error hread)

end

/-- Reading an argument list stops at a value that is too deep. -/
private theorem readList_deep {vs : List WireValue} (hd : maxDepth < depthOfItems vs)
    (hf : (Item.list (toItems vs)).Fits) (rest : Bytes) :
    ∃ left, readList ((Item.list (toItems vs)).encode ++ rest) = .error .nestingTooDeep left := by
  refine ⟨rest, (lift_bind (r := Reader.list) (Reader.blob_append rest hf.1)).trans ?_⟩
  exact ofExcept_of_error (items_deep vs maxDepth hd hf.2)

end Value

/-! ## Both sides -/

/-- Something of this depth is written exactly if it is not too deep, and is refused for its depth
    and nothing else if it is.  What was written is read back, whatever follows it.  What is too
    deep is refused by the reader for the same reason, even if it was written without a bound. -/
structure BoundedByDepth {α : Type} (write : α → Writer → Except CodecError Writer)
    (writeFreely : α → Writer → Except WireError Writer) (read : Decoder α) (a : α)
    (depth : Nat) : Prop where
  written_iff : (∃ w, write a {} = .ok w) ↔ depth ≤ maxDepth
  refused : maxDepth < depth → write a {} = .error .nestingTooDeep
  read_back : ∀ w, write a {} = .ok w →
    ∃ bs, w.bytes = .ok bs ∧ ∀ rest, read (bs ++ rest) = .ok a rest
  read_refused : maxDepth < depth →
    ∃ w bs, writeFreely a {} = .ok w ∧ w.bytes = .ok bs ∧
      ∀ rest, ∃ left, read (bs ++ rest) = .error .nestingTooDeep left

/-- A value is written and read exactly when it is nested no deeper than allowed. -/
private theorem Value.bounded {v : WireValue} (hf : v.toItem.Fits) :
    BoundedByDepth write writeFreely read v v.depth where
  -- Writing, reading and both refusals are the lemmas above at the full depth.
  written_iff := by
    constructor
    · rintro ⟨w, hw⟩
      exact Nat.le_of_lt_succ (writeWithin_grows v _ hw).1
    · intro hd
      exact writeWithin_ok Writer.accepts_empty hf (Nat.lt_succ_of_le hd)
  refused hd := writeWithin_deep Writer.accepts_empty hf hd
  read_back w hw :=
    ⟨_, Writer.bytes_of_grows (writeWithin_grows v _ hw).2.2, read_of_write hw⟩
  read_refused hd := by
    obtain ⟨w, hw, hg⟩ := writeFreely_ok Writer.accepts_empty hf
    exact ⟨w, _, hw, Writer.bytes_of_grows hg, readWithin_deep v _ hd hf⟩

/-- A list of values is written and read exactly when none is nested deeper than allowed. -/
private theorem Value.bounded_list {vs : List WireValue} (hf : (Item.list (toItems vs)).Fits) :
    BoundedByDepth writeList writeListFreely readList vs (depthOfItems vs) := by
  obtain ⟨hok, hdeep⟩ := writeList_of_fits Writer.accepts_empty hf
  refine ⟨⟨?_, ?_⟩, hdeep, ?_, ?_⟩
  · rintro ⟨w, hw⟩
    -- A list that is too deep is refused, so one that was written is not.
    rcases Nat.lt_or_ge maxDepth (depthOfItems vs) with hd | hd
    · rw [hdeep hd] at hw
      cases hw
    · exact hd
  · intro hd
    obtain ⟨w, hw, -⟩ := hok hd
    exact ⟨w, hw⟩
  · intro w hw
    obtain ⟨hg, hread⟩ := writeList_grows hw
    exact ⟨_, Writer.bytes_of_grows hg, hread⟩
  · intro hd
    obtain ⟨w, hw, hg⟩ := writeListFreely_ok Writer.accepts_empty hf
    exact ⟨w, _, hw, Writer.bytes_of_grows hg, readList_deep hd hf⟩

/-- Writing and reading keep to one bound on nesting: for values from their top, and for argument
    lists with the list as a level of its own. -/
theorem nesting_bound_shared :
    (∀ v : WireValue, v.toItem.Fits →
      BoundedByDepth Value.write Value.writeFreely Value.read v v.depth) ∧
      ∀ vs : List WireValue, (Item.list (Value.toItems vs)).Fits →
        BoundedByDepth Value.writeList Value.writeListFreely Value.readList vs
          (Value.depthOfItems vs) :=
  ⟨fun _ hf => Value.bounded hf, fun _ hf => Value.bounded_list hf⟩

/-! ## At the bound -/

/-- Lists in one another, so many of them. -/
def Value.nested : Nat → WireValue
  | 0 => unit
  | n + 1 => list [nested n]

/-- `nested n` is nested `n` deep. -/
private theorem Value.depth_nested (n : Nat) : (nested n).depth = n := by
  induction n with
  | zero => rfl
  | succ n ih => simp [nested, depth, depthOfItems, ih]

/-- Each level of `nested` takes five bytes. -/
private theorem Value.fits_nested {n : Nat} (h : 5 * n < Wire.blobLimit) :
    (nested n).toItem.Fits ∧ (nested n).toItem.encode.length = 5 * n + 1 := by
  induction n with
  | zero => exact ⟨trivial, rfl⟩
  | succ n ih =>
    obtain ⟨hf, hl⟩ := ih (by omega)
    -- Each level adds a tag and a length.
    have hbody : (Item.encodeAll [(nested n).toItem]).length = 5 * n + 1 := by
      simp [Item.encodeAll, hl]
    refine ⟨⟨?_, hf, trivial⟩, ?_⟩
    · simp only [toItems, hbody]
      omega
    · simp only [nested, toItem, toItems, Item.encode, Wire.blob, List.length_cons,
        List.length_append, Wire.Word.length_digits, hbody]
      omega

/-- Sixty-four lists in one another are written and read back; one more list and both sides refuse
    the value, and as an argument sixty-three are the most. -/
theorem nesting_bound_shared_at_limit :
    BoundedByDepth Value.write Value.writeFreely Value.read (Value.nested 64) 64 ∧
      BoundedByDepth Value.write Value.writeFreely Value.read (Value.nested 65) 65 ∧
      BoundedByDepth Value.writeList Value.writeListFreely Value.readList [Value.nested 64] 65 := by
  have hlimit : Wire.blobLimit = 4294967296 := by decide
  have fits (n : Nat) (h : n ≤ 65) : (Value.nested n).toItem.Fits :=
    (Value.fits_nested (by omega)).1
  have hvalue (n : Nat) (h : n ≤ 65) := nesting_bound_shared.1 (Value.nested n) (fits n h)
  have hlist := nesting_bound_shared.2 [Value.nested 64] (fits 65 (by omega))
  have hdepth : Value.depthOfItems [Value.nested 64] = 65 := Value.depth_nested 65
  rw [hdepth] at hlist
  simp only [Value.depth_nested] at hvalue
  exact ⟨hvalue 64 (by omega), hvalue 65 (by omega), hlist⟩

end StreamRpc
