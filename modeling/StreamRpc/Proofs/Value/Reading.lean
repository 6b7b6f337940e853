import StreamRpc.Proofs.Value.Writing

/-! # Reading values that were written

A value that was written is read back, and what follows it is left.  Reading counts levels as
writing does, so whatever can be written can be read.

* `Value.readWithin_encode`   reading a value where it was written
* `Value.read_of_write`       what was written at once is read at once
* `Failure.read_of_write`     and so is a failure
-/

namespace StreamRpc

open Wire (Bytes Reader Writer Item)
open Wire.Reader (bind_of_ok peek_marker peek_wide peek_blob)

namespace Decoder

variable {α : Type}

/-- A wire read in a decoder gives what it gives. -/
theorem lift_ok {r : Reader Wire.WireError α} {bs rest : Bytes} {a : α}
    (h : r bs = .ok a rest) : (liftM r : Decoder α) bs = .ok a rest := by
  show ofReader r bs = _
  simp only [ofReader, h]

/-- A lifted reader that succeeds passes its result on. -/
theorem lift_bind {β : Type} {r : Reader Wire.WireError α} {f : α → Decoder β} {bs rest : Bytes}
    {a : α} (h : r bs = .ok a rest) : ((liftM r : Decoder α) >>= f) bs = f a rest :=
  bind_of_ok (lift_ok h)

/-- A lifted result that is a success passes it on. -/
theorem ofExcept_bind {β : Type} {r : Except CodecError α} {f : α → Decoder β} {bs : Bytes}
    {a : α} (h : r = .ok a) : (ofExcept r >>= f) bs = f a bs :=
  bind_of_ok (by simp only [ofExcept, h])

/-- A run returns what was read. -/
theorem run_of_ok {d : Decoder α} {bs rest : Bytes} {a : α} (h : d bs = .ok a rest) :
    d.run bs = .ok a := by
  simp only [run, h]

/-- A decoder that takes everything also does so when it has to. -/
theorem exactly_of_ok {d : Decoder α} {bs : Bytes} {a : α} (h : d bs = .ok a []) :
    d.exactly bs = .ok a [] := by
  rw [exactly, bind_of_ok h]
  rfl

/-- An exact run returns what was read when nothing is left. -/
theorem run_exactly_of_ok {d : Decoder α} {bs : Bytes} {a : α} (h : d bs = .ok a []) :
    d.exactly.run bs = .ok a :=
  run_of_ok (exactly_of_ok h)

/-- A lifted reader reports a wire error as such. -/
theorem lift_of_error {r : Reader Wire.WireError α} {bs left : Bytes} {e : Wire.WireError}
    (h : r bs = .error e left) : (liftM r : Decoder α) bs = .error (.wire e) left := by
  show ofReader r bs = _
  simp only [ofReader, h]

/-- A run reports the error. -/
theorem run_of_error {d : Decoder α} {bs left : Bytes} {e : CodecError} (h : d bs = .error e left) :
    d.run bs = .error e := by
  simp only [run, h]

/-- An exact run reports the error. -/
theorem run_exactly_of_error {d : Decoder α} {bs left : Bytes} {e : CodecError}
    (h : d bs = .error e left) : d.exactly.run bs = .error e :=
  run_of_error (Reader.bind_of_error h)

/-! ## Bodies of lists and maps -/

/-- An empty body has no items. -/
theorem items_nil (d : Decoder α) : d.items [] = .ok [] := by
  rw [items]
  split <;> simp_all [Reader.nextItem]

/-- An item in front of a body that can be read. -/
theorem items_cons {d : Decoder α} {i : Item} (hi : i.Fits) {rest : Bytes} {a : α} {as : List α}
    (ha : d.run i.encode = .ok a) (has : d.items rest = .ok as) :
    d.items (i.encode ++ rest) = .ok (a :: as) := by
  have hn := Reader.nextItem_encode i hi rest
  rw [items]
  split
  · next h => rw [hn] at h; cases h
  · next h => rw [hn] at h; cases h
  -- The bytes start with the item, so this is what is found.
  · next found rest' h =>
    rw [hn] at h
    injection h with h1 h2
    obtain rfl := Option.some.inj h1
    subst h2
    simp only [ha, has]

/-- An empty body has no entries. -/
theorem entries_nil (d : String → Decoder α) : entries d [] = .ok [] := by
  rw [entries]
  split <;> simp_all [Reader.nextEntry]

/-- An entry in front of a body that can be read. -/
theorem entries_cons {d : String → Decoder α} {name : String} {body rest : Bytes} {a : α}
    {as : List (String × α)} (hn : (Wire.utf8 name).length < Wire.blobLimit)
    (hb : (Wire.blob .string (Wire.utf8 name) ++ body).length < Wire.blobLimit)
    (ha : (d name).run body = .ok a) (has : entries d rest = .ok as) :
    entries d (Wire.blob .variant (Wire.blob .string (Wire.utf8 name) ++ body) ++ rest) =
      .ok ((name, a) :: as) := by
  have hnext := Reader.nextEntry_append rest hn hb
  rw [entries]
  split
  · next h => rw [hnext] at h; cases h
  · next h => rw [hnext] at h; cases h
  -- The bytes start with the entry, so this is what is found.
  · next name' found rest' h =>
    rw [hnext] at h
    injection h with h1 h2
    injection Option.some.inj h1 with h3 h4
    subst h2 h3 h4
    simp only [ha, has]

end Decoder

namespace Value

open Decoder (lift_bind ofExcept_bind run_of_ok run_exactly_of_ok)

mutual

/-- A value is read where it was written, and what follows it is left. -/
theorem readWithin_encode (v : WireValue) (room : Nat) (hd : v.depth < room) (hf : v.toItem.Fits)
    (rest : Bytes) : readWithin room (v.toItem.encode ++ rest) = .ok v rest := by
  obtain ⟨room, rfl⟩ : ∃ r, room = r + 1 := ⟨room - 1, by omega⟩
  cases v with
  | unit =>
    rw [toItem, Item.encode, readWithin, lift_bind (peek_marker _ rest)]
    exact lift_bind (Reader.tag_cons .unit rest)
  | bool b =>
    -- Both tags of a truth value are read by one reader, which looks at the tag again.
    have hbool := Reader.bool_append b rest
    cases b <;>
    · rw [toItem, Item.encode, readWithin, lift_bind (peek_marker _ rest)]
      exact lift_bind hbool
  | u64 n =>
    rw [toItem, Item.encode, readWithin, lift_bind (peek_wide _ _ rest)]
    exact lift_bind (Reader.wide_append .u64 n rest)
  | s64 n =>
    rw [toItem, Item.encode, readWithin, lift_bind (peek_wide _ _ rest)]
    exact lift_bind (Reader.s64_append n rest)
  | f64 bits =>
    rw [toItem, Item.encode, readWithin, lift_bind (peek_wide _ _ rest)]
    exact lift_bind (Reader.wide_append .f64 bits rest)
  | str s =>
    rw [toItem, Item.encode, readWithin, lift_bind (peek_blob _ _ rest)]
    exact lift_bind (Reader.str_append rest hf)
  | bytes b =>
    rw [toItem, Item.encode, readWithin, lift_bind (peek_blob _ _ rest)]
    exact lift_bind (Reader.blob_append rest hf)
  | absent =>
    rw [toItem, Item.encode, readWithin, lift_bind (peek_marker _ rest)]
    exact lift_bind (Reader.option_none_append rest)
  | stream id =>
    rw [toItem, Item.encode, readWithin, lift_bind (peek_wide _ _ rest)]
    exact lift_bind (Reader.wide_append .handle id.val rest)
  | list items =>
    have hi := items_encode items room (by simpa [depth] using Nat.le_of_lt_succ hd) hf.2
    rw [toItem, Item.encode, readWithin, lift_bind (peek_blob _ _ rest)]
    refine (lift_bind (Reader.blob_append rest hf.1)).trans ?_
    exact ofExcept_bind hi
  | record fields =>
    have hi := entries_encode fields room (by simpa [depth] using Nat.le_of_lt_succ hd) hf.2
    rw [toItem, Item.encode, readWithin, lift_bind (peek_blob _ _ rest)]
    refine (lift_bind (Reader.blob_append rest hf.1)).trans ?_
    exact ofExcept_bind hi
  | present v =>
    -- The value inside is read from its own bytes, which it has to use up.
    have hv := Reader.alone (readWithin_encode v room (by simpa [depth] using hd) hf.2)
    rw [toItem, Item.encode, readWithin, lift_bind (peek_blob _ _ rest)]
    refine (lift_bind (Reader.option_some_append rest hf.1)).trans ?_
    exact ofExcept_bind (run_exactly_of_ok hv)
  | variant name v =>
    have hv := Reader.alone (readWithin_encode v room (by simpa [depth] using hd) hf.2.2)
    rw [toItem, Item.encode, readWithin, lift_bind (peek_blob _ _ rest)]
    refine (lift_bind (Reader.variant_append rest hf.1 hf.2.1)).trans ?_
    exact ofExcept_bind (run_exactly_of_ok hv)

/-- The items of a list are read where they were written. -/
private theorem items_encode (items : List WireValue) (room : Nat) (hd : depthOfItems items ≤ room)
    (hf : Item.AllFit (toItems items)) :
    Decoder.items (readWithin room) (Item.encodeAll (toItems items)) = .ok items := by
  cases items with
  | nil => exact Decoder.items_nil _
  | cons v items =>
    rw [depthOfItems] at hd
    have hv := Reader.alone (readWithin_encode v room (by omega) hf.1)
    exact Decoder.items_cons hf.1 (run_of_ok hv) (items_encode items room (by omega) hf.2)

/-- The fields of a record are read where they were written. -/
private theorem entries_encode (fields : List (String × WireValue)) (room : Nat)
    (hd : depthOfFields fields ≤ room) (hf : Item.EntriesFit (toEntries fields)) :
    Decoder.entries (fun _ => (readWithin room).exactly)
      (Item.encodeEntries (toEntries fields)) = .ok fields := by
  cases fields with
  | nil => exact Decoder.entries_nil _
  | cons field fields =>
    obtain ⟨name, v⟩ := field
    rw [depthOfFields] at hd
    obtain ⟨⟨hn, hb, hv⟩, hfs⟩ := hf
    have hv' := Reader.alone (readWithin_encode v room (by omega) hv)
    exact Decoder.entries_cons hn hb (run_exactly_of_ok hv')
      (entries_encode fields room (by omega) hfs)

end

/-- What was written is read, and what follows it is left. -/
theorem read_of_write {v : WireValue} {w w' : Writer} (h : v.write w = .ok w') (rest : Bytes) :
    read (v.toItem.encode ++ rest) = .ok v rest :=
  have ⟨hd, hf, _⟩ := writeWithin_grows v _ h
  readWithin_encode v _ hd hf rest

/-- Writing an argument list writes one list item, which is read as that list. -/
theorem writeList_grows {vs : List WireValue} {w w' : Writer} (h : writeList vs w = .ok w') :
    w.Grows (Wire.blob .list (Item.encodeAll (toItems vs))) 1 w' ∧
      ∀ rest, readList (Wire.blob .list (Item.encodeAll (toItems vs)) ++ rest) = .ok vs rest := by
  obtain ⟨w₁, hb, h⟩ := bind_eq_ok_iff.1 h
  obtain ⟨w₂, hi, h⟩ := bind_eq_ok_iff.1 h
  rw [ofWire_eq_ok_iff] at hb h
  have ⟨hd, hf, hg⟩ := writeItems_grows vs maxDepth hi
  have ⟨hg', hl⟩ := (Writer.begin_inside hb).close_grows hg h
  refine ⟨hg', fun rest => ?_⟩
  refine (lift_bind (Reader.blob_append rest hl)).trans ?_
  simp only [Decoder.ofExcept, List.nil_append, items_encode vs maxDepth hd hf]

end Value

namespace Failure

/-- The item that a failure is written as. -/
def toItem (f : Failure) : Item :=
  .variant f.kind.name (.str f.message)

/-- What is written is the item of the failure, and its lengths fit. -/
theorem write_grows {f : Failure} {w w' : Writer} (h : f.write w = .ok w') :
    f.toItem.Fits ∧ w.Grows f.toItem.encode 1 w' := by
  obtain ⟨w₁, hb, h⟩ := bind_eq_ok_iff.1 h
  obtain ⟨w₂, hs, h⟩ := bind_eq_ok_iff.1 h
  rw [ofWire_eq_ok_iff] at hb hs h
  have ⟨hi, hn⟩ := Writer.variantBegin_inside hb
  have ⟨hg, hm⟩ := Writer.putBlob_grows hs
  have ⟨hg', hl⟩ := hi.close_grows hg h
  exact ⟨⟨hn, hl, hm⟩, hg'⟩

/-- A failure whose lengths fit can be written. -/
theorem write_ok {f : Failure} {w : Writer} (hw : w.Accepts) (hf : f.toItem.Fits) :
    ∃ w', f.write w = .ok w' := by
  obtain ⟨hn, hl, hm⟩ := hf
  obtain ⟨w₁, hb⟩ := Writer.variantBegin_ok (hw.refuses .variant) hn
  have hi := (Writer.variantBegin_inside hb).1
  obtain ⟨w₂, hs⟩ := Writer.putBlob_ok (hi.accepts (by decide)) .string hm
  have hg := (Writer.putBlob_grows hs).1
  obtain ⟨w₃, hc⟩ := hi.close_ok hg (by simp) hl
  refine ⟨w₃, bind_eq_ok_iff.2 ⟨w₁, ofWire_eq_ok_iff.2 hb, ?_⟩⟩
  exact bind_eq_ok_iff.2 ⟨w₂, ofWire_eq_ok_iff.2 hs, ofWire_eq_ok_iff.2 hc⟩

/-- A failure that was written is read, and what follows it is left. -/
theorem read_of_write {f : Failure} {w w' : Writer} (h : f.write w = .ok w') (rest : Bytes) :
    read (f.toItem.encode ++ rest) = .ok f rest := by
  obtain ⟨⟨hn, hl, hm⟩, -⟩ := write_grows h
  have hs : Decoder.ofReader Reader.str (Wire.blob .string (Wire.utf8 f.message)) =
      .ok f.message [] :=
    Decoder.lift_ok (Reader.alone fun rest => Reader.str_append rest hm)
  refine (Decoder.lift_bind (Reader.variant_append rest hn hl)).trans ?_
  refine (Decoder.ofExcept_bind (Decoder.run_exactly_of_ok hs)).trans ?_
  simp only [Decoder.ofExcept, ofName, Failure.Kind.ofName?_name]

end Failure

end StreamRpc
