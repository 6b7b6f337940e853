import StreamRpc.Proofs.Wire.Calls

/-! # Written call by call, read back read by read

Items are written with the calls that are meant for them, and their bytes are read with the reads
that are meant for them.  `Item.Reads` says what those reads have to give: every value, every name,
every element and no more, and the end of each body where its content ends and not before.

* `Item.Fits.reads`    the reads for an item give it back, whatever comes after it
* `forest_reads_back`  items that were written call by call are read back
-/

namespace StreamRpc.Wire

open Recorder

/-! ## The reads for an item -/

/-- Nothing is left to read. -/
def Reader.Done (bs : Bytes) : Prop :=
  finish bs = .ok () bs

namespace Item

mutual

/-- The reads for this item, on the first bytes, give what is in it and leave the second. -/
def Reads : Item → Bytes → Bytes → Prop
  | unit, bs, rest => Reader.unit bs = .ok () rest
  | bool b, bs, rest => Reader.bool bs = .ok b rest
  | none, bs, rest => Reader.option bs = .ok .none rest
  | u64 n, bs, rest => Reader.u64 bs = .ok n rest
  | s64 n, bs, rest => Reader.s64 bs = .ok n rest
  | f64 bits, bs, rest => Reader.f64 bs = .ok bits rest
  | handle n, bs, rest => Reader.handle bs = .ok n rest
  | str s, bs, rest => Reader.str bs = .ok s rest
  | bytes b, bs, rest => Reader.bytes bs = .ok b rest
  | list items, bs, rest => ∃ body, Reader.list bs = .ok body rest ∧ ReadsEach items body
  | map entries, bs, rest => ∃ body, Reader.map bs = .ok body rest ∧ ReadsEntries entries body
  | some item, bs, rest => ∃ body, Reader.option bs = .ok (.some body) rest ∧
    ¬ Reader.Done body ∧ ∃ left, Reads item body left ∧ Reader.Done left
  | ok item, bs, rest => ∃ body, Reader.result bs = .ok (.ok body) rest ∧
    ¬ Reader.Done body ∧ ∃ left, Reads item body left ∧ Reader.Done left
  | err item, bs, rest => ∃ body, Reader.result bs = .ok (.error body) rest ∧
    ¬ Reader.Done body ∧ ∃ left, Reads item body left ∧ Reader.Done left
  | variant name item, bs, rest => ∃ body, Reader.variant bs = .ok (name, body) rest ∧
    ¬ Reader.Done body ∧ ∃ left, Reads item body left ∧ Reader.Done left

/-- The items come off this list body one after another, each with bytes of its own, and then it is
    at its end. -/
def ReadsEach : List Item → Bytes → Prop
  | [], body => Reader.nextItem body = .ok .none body ∧ Reader.Done body
  | item :: items, body => ∃ found rest, Reader.nextItem body = .ok (.some found) rest ∧
    (¬ Reader.Done found ∧ ∃ left, Reads item found left ∧ Reader.Done left) ∧
    ReadsEach items rest

/-- So do the entries of this map body. -/
def ReadsEntries : List (String × Item) → Bytes → Prop
  | [], body => Reader.nextEntry body = .ok .none body ∧ Reader.Done body
  | (name, item) :: entries, body => ∃ found rest,
    Reader.nextEntry body = .ok (.some (name, found)) rest ∧
    (¬ Reader.Done found ∧ ∃ left, Reads item found left ∧ Reader.Done left) ∧
    ReadsEntries entries rest

end

/-- The reads for items next to each other, to the very end. -/
def ReadsAll : List Item → Bytes → Prop
  | [], bs => Reader.Done bs
  | item :: items, bs => ¬ Reader.Done bs ∧ ∃ rest, Reads item bs rest ∧ ReadsAll items rest

end Item

namespace Reader

/-- A reader is done when nothing is left. -/
private theorem done_iff {bs : Bytes} : Done bs ↔ bs = [] := by
  cases bs <;> simp [Done, finish]

/-- A reader in front of an item is not done. -/
private theorem not_done_encode (item : Item) (rest : Bytes) : ¬ Done (item.encode ++ rest) := by
  simp [done_iff, encode_ne_nil]

/-- A marker's tag is read back from it. -/
private theorem marker_append (t : Tag) (rest : Bytes) : tag t (marker t ++ rest) = .ok () rest :=
  tag_cons t rest

end Reader

namespace Item

/-- An item that can be read wherever it stands can be read from bytes of its own. -/
private theorem reads_alone {item : Item} (reads : ∀ rest, item.Reads (item.encode ++ rest) rest) :
    ¬ Reader.Done item.encode ∧ ∃ left, item.Reads item.encode left ∧ Reader.Done left := by
  have hne := Reader.not_done_encode item []
  have hreads := reads []
  rw [List.append_nil] at hne hreads
  exact ⟨hne, [], hreads, rfl⟩

mutual

/-- The reads give the item back, whatever comes after it. -/
theorem Fits.reads : (item : Item) → item.Fits → ∀ rest, item.Reads (item.encode ++ rest) rest
  | unit, _, rest => Reader.marker_append .unit rest
  | bool b, _, rest => Reader.bool_append b rest
  | none, _, rest => Reader.option_none_append rest
  | u64 n, _, rest => Reader.wide_append .u64 n rest
  | s64 n, _, rest => Reader.s64_append n rest
  | f64 bits, _, rest => Reader.wide_append .f64 bits rest
  | handle n, _, rest => Reader.wide_append .handle n rest
  | str _, fits, rest => Reader.str_append rest fits
  | bytes _, fits, rest => Reader.blob_append rest fits
  -- A container is read as a slice, and the slice in turn by what is inside.
  | list items, fits, rest =>
    ⟨encodeAll items, Reader.blob_append rest fits.1, AllFit.readsEach items fits.2⟩
  | map entries, fits, rest =>
    ⟨encodeEntries entries, Reader.blob_append rest fits.1, EntriesFit.readsEntries entries fits.2⟩
  | some item, fits, rest =>
    ⟨item.encode, Reader.option_some_append rest fits.1, reads_alone (Fits.reads item fits.2)⟩
  | ok item, fits, rest =>
    ⟨item.encode, Reader.result_ok_append rest fits.1, reads_alone (Fits.reads item fits.2)⟩
  | err item, fits, rest =>
    ⟨item.encode, Reader.result_err_append rest fits.1, reads_alone (Fits.reads item fits.2)⟩
  | variant _ item, fits, rest =>
    ⟨item.encode, Reader.variant_append rest fits.1 fits.2.1,
      reads_alone (Fits.reads item fits.2.2)⟩

/-- Each of the items is read back in turn. -/
private theorem AllFit.readsEach :
    (items : List Item) → AllFit items → ReadsEach items (encodeAll items)
  | [], _ => ⟨rfl, rfl⟩
  | item :: items, fits =>
    ⟨item.encode, encodeAll items, Reader.nextItem_encode item fits.1 _,
      reads_alone (Fits.reads item fits.1), AllFit.readsEach items fits.2⟩

/-- Each of the entries is read back in turn. -/
private theorem EntriesFit.readsEntries : (entries : List (String × Item)) → EntriesFit entries →
    ReadsEntries entries (encodeEntries entries)
  | [], _ => ⟨rfl, rfl⟩
  | (_, item) :: entries, fits =>
    ⟨item.encode, encodeEntries entries, Reader.nextEntry_append _ fits.1.1 fits.1.2.1,
      reads_alone (Fits.reads item fits.1.2.2), EntriesFit.readsEntries entries fits.2⟩

end

/-- All the items are read back, and then the reader is done. -/
private theorem AllFit.readsAll {items : List Item} (fits : AllFit items) :
    ReadsAll items (encodeAll items) := by
  induction items with
  | nil => exact rfl
  | cons item items ih =>
    exact ⟨Reader.not_done_encode item _, encodeAll items, Fits.reads item fits.1 _, ih fits.2⟩

end Item

/-- Items of any kind and depth, next to each other and not too long for their length prefixes, are
    written call by call without an error, and the reads for them give them back to the very end of
    the bytes. -/
theorem forest_reads_back (forest : List Item) (fits : Item.AllFit forest) :
    (∀ r ∈ report ({} : Buffer) (Item.callsOfAll forest), r.1 = none) ∧
      ∃ bs, (after ({} : Buffer) (Item.callsOfAll forest)).bytes = .ok bs ∧
        Item.ReadsAll forest bs := by
  obtain ⟨hreport, hbytes⟩ := fits.written
  exact ⟨hreport, Item.encodeAll forest, hbytes, fits.readsAll⟩

/-- A map with a list of results and an option that holds an option, and a variant after it. -/
def mixedForest : List Item :=
  [.map [("a", .list [.ok (.u64 5), .err (.str "x")]), ("b", .some .none)], .variant "v" (.s64 (-3))]

/-- A forest with every kind of item is read back. -/
theorem mixedForest_reads_back :
    Item.AllFit mixedForest ∧
      (∀ r ∈ report ({} : Buffer) (Item.callsOfAll mixedForest), r.1 = none) ∧
      Item.ReadsAll mixedForest (Item.encodeAll mixedForest) := by
  have hstr : (utf8 "x").length < blobLimit := by decide
  have hlist : (Item.list [.ok (.u64 5), .err (.str "x")]).Fits :=
    ⟨by decide, ⟨by decide, trivial⟩, ⟨by decide, hstr⟩, trivial⟩
  have hmap : (Item.map [("a", .list [.ok (.u64 5), .err (.str "x")]), ("b", .some .none)]).Fits :=
    ⟨by decide, ⟨by decide, by decide, hlist⟩, ⟨by decide, by decide, by decide, trivial⟩, trivial⟩
  have hvariant : (Item.variant "v" (.s64 (-3))).Fits := ⟨by decide, by decide, trivial⟩
  -- The bound on lengths is proved for each container by itself, so that it is never computed as a
  -- number.
  have fits : Item.AllFit mixedForest := ⟨hmap, hvariant, trivial⟩
  obtain ⟨hreport, bs, hbytes, hreads⟩ := forest_reads_back mixedForest fits
  have hbs : bs = Item.encodeAll mixedForest := Except.ok.inj (hbytes.symm.trans fits.written.2)
  rw [hbs] at hreads
  exact ⟨fits, hreport, hreads⟩

end StreamRpc.Wire
