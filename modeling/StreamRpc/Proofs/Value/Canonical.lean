import StreamRpc.Proofs.Value.Reading

/-! # Nothing is read that would not be written

Every item has one written form.  Whatever a value, an argument list or a failure is read from
is the very bytes that it is written as, so no two of them share a form that is accepted and
nothing that can be read is refused by the writer.

* `Decoder.Takes`             reading that takes exactly the item its result stands for
* `Decoder.items_ok`          the items of a list body, each read in full
* `Value.takes_readWithin`    values are read in this way, at every depth
* `value_format_canonical`    reading undoes writing, and writing undoes reading
-/

namespace StreamRpc

open Wire (Bytes Reader Writer WireError Item)

/-! ## Typed reads -/

namespace Wire.Reader

/-- A number is read from its own digits only. -/
private theorem number_ok {width n : Nat} {bs rest : Bytes} (h : number width bs = .ok n rest) :
    bs = Word.digits width n ++ rest ∧ n < Word.capacity width := by
  obtain ⟨front, mid, ht, hp⟩ := bind_ok_iff.1 h
  obtain ⟨rfl, rfl⟩ := pure_ok_iff.1 hp
  obtain ⟨rfl, rfl⟩ := take_ok ht
  exact ⟨by rw [Word.digits_value], Word.value_lt front⟩

/-- A fixed-width read takes exactly one fixed-width item. -/
theorem wide_ok {t : Tag} {n : UInt64} {bs rest : Bytes} (h : wide t bs = .ok n rest) :
    bs = Wire.wide t n.toNat ++ rest := by
  obtain ⟨_, mid, ht, h⟩ := bind_ok_iff.1 h
  obtain ⟨k, mid', hk, hp⟩ := bind_ok_iff.1 h
  obtain ⟨rfl, rfl⟩ := pure_ok_iff.1 hp
  obtain ⟨rfl, hlt⟩ := number_ok hk
  -- Eight digits never say a number that a word cannot hold.
  have hword : (UInt64.ofNat k).toNat = k := UInt64.toNat_ofNat_of_lt' hlt
  rw [tag_ok ht, hword]
  rfl

/-- A signed number is read from its own encoding only. -/
theorem s64_ok {n : Int64} {bs rest : Bytes} (h : s64 bs = .ok n rest) :
    bs = Wire.wide .s64 n.toUInt64.toNat ++ rest := by
  obtain ⟨k, mid, hk, hp⟩ := bind_ok_iff.1 h
  obtain ⟨rfl, rfl⟩ := pure_ok_iff.1 hp
  exact wide_ok hk

/-- A truth value is read from its own encoding only. -/
theorem bool_ok {b : Bool} {bs rest : Bytes} (h : bool bs = .ok b rest) :
    bs = (Item.bool b).encode ++ rest := by
  obtain ⟨found, mid, hp, hfound⟩ := bind_ok_iff.1 h
  obtain ⟨rfl, -⟩ := peek_ok hp
  -- The tag decides the value and is then taken as it stands.
  split at hfound
  · obtain ⟨_, mid', ht, hp⟩ := bind_ok_iff.1 hfound
    obtain ⟨rfl, rfl⟩ := pure_ok_iff.1 hp
    exact tag_ok ht
  · obtain ⟨_, mid', ht, hp⟩ := bind_ok_iff.1 hfound
    obtain ⟨rfl, rfl⟩ := pure_ok_iff.1 hp
    exact tag_ok ht
  · exact absurd hfound throw_ne_ok

/-- An option read takes one option; what is given back is its body. -/
theorem option_ok {body? : Option Bytes} {bs rest : Bytes} (h : option bs = .ok body? rest) :
    (body? = none ∧ bs = marker .optionNone ++ rest) ∨
      ∃ body, body? = some body ∧ bs = Wire.blob .optionSome body ++ rest ∧
        body.length < blobLimit := by
  obtain ⟨found, mid, hp, hfound⟩ := bind_ok_iff.1 h
  obtain ⟨rfl, -⟩ := peek_ok hp
  -- The tag tells an absent value from a present one.
  split at hfound
  · obtain ⟨_, mid', ht, hp⟩ := bind_ok_iff.1 hfound
    obtain ⟨rfl, rfl⟩ := pure_ok_iff.1 hp
    exact .inl ⟨rfl, tag_ok ht⟩
  · obtain ⟨body, mid', hb, hp⟩ := bind_ok_iff.1 hfound
    obtain ⟨rfl, rfl⟩ := pure_ok_iff.1 hp
    obtain ⟨hbs, hl⟩ := blob_ok hb
    exact .inr ⟨body, rfl, hbs, hl⟩

/-- A result read takes one result; what is given back is its body, on the side it has. -/
theorem result_ok {side : Except Bytes Bytes} {bs rest : Bytes} (h : result bs = .ok side rest) :
    (∃ body, side = .ok body ∧ bs = Wire.blob .resultOk body ++ rest ∧ body.length < blobLimit) ∨
      ∃ body, side = .error body ∧ bs = Wire.blob .resultErr body ++ rest ∧
        body.length < blobLimit := by
  obtain ⟨found, mid, hp, hfound⟩ := bind_ok_iff.1 h
  obtain ⟨rfl, -⟩ := peek_ok hp
  -- The tag tells which side follows.
  split at hfound
  · obtain ⟨body, mid', hb, hp⟩ := bind_ok_iff.1 hfound
    obtain ⟨rfl, rfl⟩ := pure_ok_iff.1 hp
    obtain ⟨hbs, hl⟩ := blob_ok hb
    exact .inr ⟨body, rfl, hbs, hl⟩
  · obtain ⟨body, mid', hb, hp⟩ := bind_ok_iff.1 hfound
    obtain ⟨rfl, rfl⟩ := pure_ok_iff.1 hp
    obtain ⟨hbs, hl⟩ := blob_ok hb
    exact .inl ⟨body, rfl, hbs, hl⟩

/-- What a list body gives next is taken off its front as one item. -/
theorem nextItem_ok {found? : Option Bytes} {bs rest : Bytes}
    (h : nextItem bs = .ok found? rest) :
    (found? = none ∧ bs = []) ∨ ∃ found, found? = some found ∧ item bs = .ok found rest := by
  simp only [nextItem] at h
  -- Only at the end of the bytes there is no further item.
  split at h
  · next he =>
    injection h with h1 h2
    exact .inl ⟨h1.symm, List.isEmpty_iff.1 he⟩
  · cases hi : item bs with
    | error e r => simp only [hi] at h; cases h
    | ok found r =>
      simp only [hi] at h
      injection h with h1 h2
      subst h1 h2
      exact .inr ⟨found, rfl, rfl⟩

/-- What a map body gives next is taken off its front as one variant. -/
theorem nextEntry_ok {next? : Option (String × Bytes)} {bs rest : Bytes}
    (h : nextEntry bs = .ok next? rest) :
    (next? = none ∧ bs = []) ∨
      ∃ name inner, next? = some (name, inner) ∧ variant bs = .ok (name, inner) rest := by
  simp only [nextEntry] at h
  -- Only at the end of the bytes there is no further entry.
  split at h
  · next he =>
    injection h with h1 h2
    exact .inl ⟨h1.symm, List.isEmpty_iff.1 he⟩
  · cases hv : variant bs with
    | error e r => simp only [hv] at h; cases h
    | ok entry r =>
      simp only [hv] at h
      injection h with h1 h2
      subst h1 h2
      exact .inr ⟨entry.1, entry.2, rfl, rfl⟩

/-- The name of a variant is as short as it says. -/
theorem variant_name_fits {name : String} {inner bs rest : Bytes}
    (h : variant bs = .ok (name, inner) rest) : (utf8 name).length < blobLimit := by
  obtain ⟨body, mid, hb, hname⟩ := bind_ok_iff.1 h
  -- The name is a string of its own inside the variant, with a length of its own.
  cases hs : str body with
  | error e r => simp only [hs] at hname; cases hname
  | ok s inner' =>
    simp only [hs] at hname
    obtain ⟨h1, rfl⟩ := pure_ok_iff.1 hname
    injection h1 with h3 h4
    subst h3 h4
    exact (str_ok hs).2

end Wire.Reader

open Wire.Reader (bind_ok_iff pure_ok_iff)

/-! ## Reads that take one item -/

namespace Decoder

variable {α : Type}

/-- A lifted reader succeeds as the reader does. -/
theorem lift_ok_iff {r : Reader WireError α} {bs rest : Bytes} {a : α} :
    (liftM r : Decoder α) bs = .ok a rest ↔ r bs = .ok a rest := by
  constructor
  · intro h
    change ofReader r bs = _ at h
    cases hr : r bs with
    | ok a' rest' =>
      simp only [ofReader, hr] at h
      injection h with h1 h2
      rw [h1, h2]
    | error e rest' => simp only [ofReader, hr] at h; cases h
  · exact lift_ok

/-- A lifted result succeeds as the result does and reads nothing. -/
theorem ofExcept_ok_iff {r : Except CodecError α} {bs rest : Bytes} {a : α} :
    ofExcept r bs = .ok a rest ↔ r = .ok a ∧ bs = rest := by
  cases r <;> simp [ofExcept]

/-- A run forgets what is left of the input. -/
private theorem run_ok_iff {d : Decoder α} {bs : Bytes} {a : α} :
    d.run bs = .ok a ↔ ∃ rest, d bs = .ok a rest := by
  unfold run
  cases h : d bs <;> simp

/-- `exactly` succeeds when nothing is left. -/
private theorem exactly_ok_iff {d : Decoder α} {bs rest : Bytes} {a : α} :
    d.exactly bs = .ok a rest ↔ d bs = .ok a [] ∧ rest = [] := by
  constructor
  · intro h
    obtain ⟨a', mid, hd, h⟩ := bind_ok_iff.1 h
    obtain ⟨_, mid', hf, hp⟩ := bind_ok_iff.1 h
    obtain ⟨rfl, rfl⟩ := pure_ok_iff.1 hp
    have hf : Reader.finish mid = .ok () mid' := lift_ok_iff.1 hf
    -- The closing check passes only when nothing is left.
    unfold Reader.finish at hf
    split at hf
    · next he =>
      injection hf with _ h2
      subst h2
      obtain rfl := List.isEmpty_iff.1 he
      exact ⟨hd, rfl⟩
    · cases hf
  · rintro ⟨h, rfl⟩
    exact exactly_of_ok h

/-- An exact run succeeds when nothing is left. -/
theorem run_exactly_ok_iff {d : Decoder α} {bs : Bytes} {a : α} :
    d.exactly.run bs = .ok a ↔ d bs = .ok a [] := by
  simp only [run_ok_iff, exactly_ok_iff]
  exact ⟨fun ⟨_, h, _⟩ => h, fun h => ⟨[], h, rfl⟩⟩

/-- Reading in this way takes exactly the item that the result stands for, and the result is
    sound. -/
def Takes (d : Decoder α) (item : α → Item) (Sound : α → Prop) : Prop :=
  ∀ ⦃bs rest : Bytes⦄ ⦃a : α⦄, d bs = .ok a rest →
    bs = (item a).encode ++ rest ∧ (item a).Fits ∧ Sound a

variable {d : Decoder α} {item : α → Item} {Sound : α → Prop}

/-- What a body is read as has that body for its encoding. -/
theorem Takes.run_exactly (takes : d.Takes item Sound) {body : Bytes} {a : α}
    (h : d.exactly.run body = .ok a) : body = (item a).encode ∧ (item a).Fits ∧ Sound a := by
  obtain ⟨hbody, hsound⟩ := takes (run_exactly_ok_iff.1 h)
  exact ⟨hbody.trans (List.append_nil _), hsound⟩

/-- A read that takes one item leaves nothing of the bytes that were scoped to one item. -/
private theorem Takes.run_item (takes : d.Takes item Sound) {bs found rest : Bytes} {a : α}
    (hi : Reader.item bs = .ok found rest) (h : d.run found = .ok a) :
    bs = (item a).encode ++ rest ∧ (item a).Fits ∧ Sound a := by
  obtain ⟨left, hd⟩ := run_ok_iff.1 h
  obtain ⟨rfl, hfits, hsound⟩ := takes hd
  obtain ⟨rfl, -⟩ := Reader.item_ok hi
  -- Both the scope and the read end where the first item ends.
  have hscope := Reader.item_encode (item a) hfits (left ++ rest)
  rw [List.append_assoc] at hi ⊢
  rw [hi] at hscope
  injection hscope with _ hrest
  rw [← hrest]
  exact ⟨rfl, hfits, hsound⟩

/-- The items of a list body are the whole body. -/
theorem items_ok (takes : d.Takes item Sound) {body : Bytes} {as : List α}
    (h : d.items body = .ok as) :
    body = Item.encodeAll (as.map item) ∧ Item.AllFit (as.map item) ∧ ∀ a ∈ as, Sound a := by
  -- The induction is on what is left of the body.
  induction hn : body.length using Nat.strongRecOn generalizing body as with
  | ind n ih =>
    subst hn
    rw [items] at h
    split at h
    · cases h
    · next rest hnext =>
      obtain rfl := Except.ok.inj h
      rcases Reader.nextItem_ok hnext with ⟨-, rfl⟩ | ⟨_, hsome, -⟩
      · exact ⟨rfl, trivial, by simp⟩
      · cases hsome
    · next found rest hnext =>
      have hshort := Reader.nextItem_length hnext
      rcases Reader.nextItem_ok hnext with ⟨hnone, -⟩ | ⟨_, hsome, hitem⟩
      · cases hnone
      obtain rfl := Option.some.inj hsome
      split at h
      · cases h
      · next a ha =>
        split at h
        · cases h
        · next as' has =>
          obtain rfl := Except.ok.inj h
          -- An item takes a byte at least, so the rest is shorter and the induction applies.
          obtain ⟨hbody, hfit, hsound⟩ := takes.run_item hitem ha
          obtain ⟨hrest, hfits, hsounds⟩ := ih _ hshort has rfl
          refine ⟨?_, ⟨hfit, hfits⟩, List.forall_mem_cons.2 ⟨hsound, hsounds⟩⟩
          rw [hbody, hrest]
          rfl

/-- The entries of a map body are the whole body. -/
theorem entries_ok {d : String → Decoder α} (takes : ∀ name, (d name).Takes item Sound)
    {body : Bytes} {as : List (String × α)}
    (h : entries (fun name => (d name).exactly) body = .ok as) :
    body = Item.encodeEntries (as.map fun (name, a) => (name, item a)) ∧
      Item.EntriesFit (as.map fun (name, a) => (name, item a)) ∧ ∀ x ∈ as, Sound x.2 := by
  -- The induction is on the length, since what is left after an entry is shorter but no tail of a
  -- list.
  induction hn : body.length using Nat.strongRecOn generalizing body as with
  | ind n ih =>
    subst hn
    rw [entries] at h
    split at h
    · cases h
    · next rest hnext =>
      obtain rfl := Except.ok.inj h
      rcases Reader.nextEntry_ok hnext with ⟨-, rfl⟩ | ⟨_, _, hsome, -⟩
      · exact ⟨rfl, trivial, by simp⟩
      · cases hsome
    · next name found rest hnext =>
      have hshort := Reader.nextEntry_length hnext
      rcases Reader.nextEntry_ok hnext with ⟨hnone, -⟩ | ⟨_, _, hsome, hvariant⟩
      · cases hnone
      obtain ⟨rfl, rfl⟩ := Prod.mk.injEq .. ▸ Option.some.inj hsome
      split at h
      · cases h
      · next a ha =>
        split at h
        · cases h
        · next as' has =>
          obtain rfl := Except.ok.inj h
          obtain ⟨rfl, hfit, hsound⟩ := (takes name).run_exactly ha
          obtain ⟨hbody, hlen⟩ := Reader.variant_ok hvariant
          obtain ⟨hrest, hfits, hsounds⟩ := ih _ hshort has rfl
          have hname := Reader.variant_name_fits hvariant
          refine ⟨?_, ⟨⟨hname, hlen, hfit⟩, hfits⟩, List.forall_mem_cons.2 ⟨hsound, hsounds⟩⟩
          rw [hbody, hrest]
          rfl

end Decoder

/-! ## Values -/

namespace Value

/-- The items of a list are those of its values. -/
private theorem toItems_eq_map (vs : List WireValue) : toItems vs = vs.map toItem := by
  induction vs with
  | nil => rfl
  | cons v vs ih => rw [toItems, ih, List.map_cons]

/-- The entries of a record are those of its fields. -/
private theorem toEntries_eq_map (fields : List (String × WireValue)) :
    toEntries fields = fields.map fun (name, v) => (name, toItem v) := by
  induction fields with
  | nil => rfl
  | cons field fields ih =>
    obtain ⟨name, v⟩ := field
    rw [toEntries, ih, List.map_cons]

/-- A list is nested no deeper than its values allow. -/
private theorem depthOfItems_le {room : Nat} {vs : List WireValue} (h : ∀ v ∈ vs, v.depth < room) :
    depthOfItems vs ≤ room := by
  induction vs with
  | nil => simp [depthOfItems]
  | cons v vs ih =>
    obtain ⟨hv, hvs⟩ := List.forall_mem_cons.1 h
    have := ih hvs
    rw [depthOfItems]
    omega

/-- A record is nested no deeper than its fields allow. -/
private theorem depthOfFields_le {room : Nat} {fields : List (String × WireValue)}
    (h : ∀ x ∈ fields, x.2.depth < room) : depthOfFields fields ≤ room := by
  induction fields with
  | nil => simp [depthOfFields]
  | cons field fields ih =>
    obtain ⟨name, v⟩ := field
    obtain ⟨hv, hfields⟩ := List.forall_mem_cons.1 h
    have hv : v.depth < room := hv
    have := ih hfields
    rw [depthOfFields]
    omega

/-- A value is read from the item it is written as, and it reaches no deeper than there is room. -/
theorem takes_readWithin (room : Nat) :
    (readWithin room).Takes toItem (fun v => v.depth < room) := by
  -- What is inside of a value is read with one level less of room.
  induction room with
  | zero =>
    intro bs rest v h
    exact absurd h Reader.throw_ne_ok
  | succ room ih =>
    intro bs rest v h
    rw [readWithin] at h
    obtain ⟨t, mid, hp, h⟩ := bind_ok_iff.1 h
    obtain ⟨rfl, -⟩ := Reader.peek_ok (Decoder.lift_ok_iff.1 hp)
    cases t <;> dsimp only at h
    case unit =>
      obtain ⟨_, mid', hr, h⟩ := bind_ok_iff.1 h
      obtain ⟨rfl, rfl⟩ := pure_ok_iff.1 h
      exact ⟨Reader.tag_ok (Decoder.lift_ok_iff.1 hr), trivial, Nat.succ_pos _⟩
    case boolTrue | boolFalse =>
      obtain ⟨b, mid', hr, h⟩ := bind_ok_iff.1 h
      obtain ⟨rfl, rfl⟩ := pure_ok_iff.1 h
      exact ⟨Reader.bool_ok (Decoder.lift_ok_iff.1 hr), trivial, Nat.succ_pos _⟩
    case u64 | f64 | handle =>
      obtain ⟨n, mid', hr, h⟩ := bind_ok_iff.1 h
      obtain ⟨rfl, rfl⟩ := pure_ok_iff.1 h
      exact ⟨Reader.wide_ok (Decoder.lift_ok_iff.1 hr), trivial, Nat.succ_pos _⟩
    case s64 =>
      obtain ⟨n, mid', hr, h⟩ := bind_ok_iff.1 h
      obtain ⟨rfl, rfl⟩ := pure_ok_iff.1 h
      exact ⟨Reader.s64_ok (Decoder.lift_ok_iff.1 hr), trivial, Nat.succ_pos _⟩
    case string =>
      obtain ⟨s, mid', hr, h⟩ := bind_ok_iff.1 h
      obtain ⟨rfl, rfl⟩ := pure_ok_iff.1 h
      obtain ⟨hbs, hl⟩ := Reader.str_ok (Decoder.lift_ok_iff.1 hr)
      exact ⟨hbs, hl, Nat.succ_pos _⟩
    case bytes =>
      obtain ⟨b, mid', hr, h⟩ := bind_ok_iff.1 h
      obtain ⟨rfl, rfl⟩ := pure_ok_iff.1 h
      obtain ⟨hbs, hl⟩ := Reader.blob_ok (Decoder.lift_ok_iff.1 hr)
      exact ⟨hbs, hl, Nat.succ_pos _⟩
    case list =>
      obtain ⟨body, mid', hr, h⟩ := bind_ok_iff.1 h
      obtain ⟨vs, mid'', hi, h⟩ := bind_ok_iff.1 h
      obtain ⟨rfl, rfl⟩ := pure_ok_iff.1 h
      obtain ⟨hbs, hl⟩ := Reader.blob_ok (Decoder.lift_ok_iff.1 hr)
      obtain ⟨hvs, rfl⟩ := Decoder.ofExcept_ok_iff.1 hi
      obtain ⟨rfl, hfit, hdepth⟩ := Decoder.items_ok ih hvs
      rw [← toItems_eq_map] at hbs hl hfit
      exact ⟨hbs, ⟨hl, hfit⟩, Nat.lt_succ_of_le (by simpa [depth] using depthOfItems_le hdepth)⟩
    case map =>
      obtain ⟨body, mid', hr, h⟩ := bind_ok_iff.1 h
      obtain ⟨fields, mid'', hi, h⟩ := bind_ok_iff.1 h
      obtain ⟨rfl, rfl⟩ := pure_ok_iff.1 h
      obtain ⟨hbs, hl⟩ := Reader.blob_ok (Decoder.lift_ok_iff.1 hr)
      obtain ⟨hfields, rfl⟩ := Decoder.ofExcept_ok_iff.1 hi
      obtain ⟨rfl, hfit, hdepth⟩ := Decoder.entries_ok (fun _ => ih) hfields
      rw [← toEntries_eq_map] at hbs hl hfit
      exact ⟨hbs, ⟨hl, hfit⟩, Nat.lt_succ_of_le (by simpa [depth] using depthOfFields_le hdepth)⟩
    case optionNone | optionSome =>
      obtain ⟨body?, mid', hr, h⟩ := bind_ok_iff.1 h
      rcases Reader.option_ok (Decoder.lift_ok_iff.1 hr) with ⟨rfl, hbs⟩ | ⟨body, rfl, hbs, hl⟩
      · obtain ⟨rfl, rfl⟩ := pure_ok_iff.1 h
        exact ⟨hbs, trivial, Nat.succ_pos _⟩
      · obtain ⟨v, mid'', hi, h⟩ := bind_ok_iff.1 h
        obtain ⟨rfl, rfl⟩ := pure_ok_iff.1 h
        obtain ⟨hv, rfl⟩ := Decoder.ofExcept_ok_iff.1 hi
        obtain ⟨rfl, hfit, hdepth⟩ := ih.run_exactly hv
        exact ⟨hbs, ⟨hl, hfit⟩, by simpa [depth] using hdepth⟩
    case variant =>
      obtain ⟨⟨name, body⟩, mid', hr, h⟩ := bind_ok_iff.1 h
      obtain ⟨v, mid'', hi, h⟩ := bind_ok_iff.1 h
      obtain ⟨rfl, rfl⟩ := pure_ok_iff.1 h
      have hr := Decoder.lift_ok_iff.1 hr
      obtain ⟨hbs, hl⟩ := Reader.variant_ok hr
      obtain ⟨hv, rfl⟩ := Decoder.ofExcept_ok_iff.1 hi
      obtain ⟨rfl, hfit, hdepth⟩ := ih.run_exactly hv
      exact ⟨hbs, ⟨Reader.variant_name_fits hr, hl, hfit⟩, by simpa [depth] using hdepth⟩
    -- A value is never a result.
    case resultOk | resultErr => exact absurd h Reader.throw_ne_ok

/-- An argument list is read from the list item it is written as. -/
theorem takes_readList :
    readList.Takes (fun vs => .list (toItems vs)) (fun vs => depthOfItems vs ≤ maxDepth) := by
  intro bs rest vs h
  obtain ⟨body, mid, hr, h⟩ := bind_ok_iff.1 h
  obtain ⟨hbs, hl⟩ := Reader.blob_ok (Decoder.lift_ok_iff.1 hr)
  obtain ⟨hvs, rfl⟩ := Decoder.ofExcept_ok_iff.1 h
  obtain ⟨rfl, hfit, hdepth⟩ := Decoder.items_ok (takes_readWithin maxDepth) hvs
  rw [← toItems_eq_map] at hbs hl hfit
  exact ⟨hbs, ⟨hl, hfit⟩, depthOfItems_le hdepth⟩

end Value

/-- A failure is read from the item it is written as. -/
theorem Failure.takes_read : Failure.read.Takes Failure.toItem (fun _ => True) := by
  intro bs rest f h
  obtain ⟨⟨name, body⟩, mid, hr, h⟩ := bind_ok_iff.1 h
  obtain ⟨message, mid', htext, hkind⟩ := bind_ok_iff.1 h
  obtain ⟨hrun, rfl⟩ := Decoder.ofExcept_ok_iff.1 htext
  obtain ⟨hf, rfl⟩ := Decoder.ofExcept_ok_iff.1 hkind
  have hvariant := Decoder.lift_ok_iff.1 hr
  obtain ⟨hbs, hl⟩ := Reader.variant_ok hvariant
  have hstr : (liftM Reader.str : Decoder String) body = .ok message [] :=
    Decoder.run_exactly_ok_iff.1 hrun
  obtain ⟨rfl, hml⟩ := Reader.str_ok (Decoder.lift_ok_iff.1 hstr)
  rw [List.append_nil] at hbs hl
  -- A name that is no kind of failure is refused.
  unfold ofName at hf
  split at hf
  · next kind hk =>
    obtain rfl := Except.ok.inj hf
    obtain rfl := Kind.name_of_ofName? hk
    exact ⟨hbs, ⟨Reader.variant_name_fits hvariant, hl, hml⟩, trivial⟩
  · cases hf

/-! ## The format -/

/-- What this reads is what this writes: the bytes that were taken are those that the result is
    written as, and no other bytes give the same result. -/
structure Canonical {α : Type} (write : α → Writer → Except CodecError Writer)
    (read : Decoder α) : Prop where
  written : ∀ {bs rest : Bytes} {a : α}, read bs = .ok a rest →
    ∃ w taken, write a {} = .ok w ∧ w.bytes = .ok taken ∧ bs = taken ++ rest
  distinct : ∀ {bs bs' : Bytes} {a : α}, read bs = .ok a [] → read bs' = .ok a [] → bs = bs'

/-- A new writer accepts any item. -/
theorem Wire.Writer.accepts_empty : ({} : Writer).Accepts :=
  ⟨by decide, fun h => absurd h (by decide)⟩

/-- What was appended to a new writer is what it has for bytes. -/
theorem Wire.Writer.bytes_of_grows {w : Writer} {bs : Bytes} {n : Nat}
    (h : Grows {} bs n w) : w.bytes = .ok bs :=
  bytes_ok_iff.2 ⟨h.outer, h.body⟩

/-- A read that takes one item is undone by a write that puts this item. -/
private theorem Decoder.Takes.canonical {α : Type} {read : Decoder α} {item : α → Item}
    {Sound : α → Prop} {write : α → Writer → Except CodecError Writer}
    (takes : read.Takes item Sound)
    (puts : ∀ a, (item a).Fits → Sound a →
      ∃ w, write a {} = .ok w ∧ Writer.Grows {} (item a).encode 1 w) :
    Canonical write read where
  written h := by
    -- What was read is the encoding of an item that fits, so the writer accepts it.
    obtain ⟨hbs, hfits, hsound⟩ := takes h
    obtain ⟨w, hw, hg⟩ := puts _ hfits hsound
    exact ⟨w, _, hw, Writer.bytes_of_grows hg, hbs⟩
  distinct h h' := (takes h).1.trans (takes h').1.symm

/-- A value is accepted in one form only, the one that is written for it. -/
private theorem Value.canonical : Canonical Value.write Value.read :=
  (takes_readWithin (maxDepth + 1)).canonical fun v hfits hdepth => by
    obtain ⟨w, hw⟩ := writeWithin_ok Writer.accepts_empty hfits hdepth
    exact ⟨w, hw, (writeWithin_grows v _ hw).2.2⟩

/-- An argument list whose lengths fit can be written exactly if it is not too deep, and is refused
    for its depth otherwise. -/
theorem Value.writeList_of_fits {vs : List WireValue} {w : Writer} (hw : w.Accepts)
    (hf : (Item.list (toItems vs)).Fits) :
    (depthOfItems vs ≤ maxDepth →
      ∃ w', writeList vs w = .ok w' ∧ w.Grows (Item.list (toItems vs)).encode 1 w') ∧
      (maxDepth < depthOfItems vs → writeList vs w = .error .nestingTooDeep) := by
  obtain ⟨hl, hf⟩ := hf
  obtain ⟨w₁, hb⟩ := Writer.begin_ok (hw.refuses .list) .list
  have hi := Writer.begin_inside hb
  have hb' : ofWire w.listBegin = .ok w₁ := ofWire_eq_ok_iff.2 hb
  -- The list itself is no level of its own, so its items may use the whole depth.
  obtain ⟨hok, hdeep⟩ := writeItems_of_fits vs maxDepth (w := w₁) hi.scope hf
  constructor
  · intro hd
    obtain ⟨w₂, hw₂⟩ := hok hd
    have hg := (writeItems_grows vs maxDepth hw₂).2.2
    obtain ⟨w₃, hw₃⟩ := hi.close_ok hg (by simp [Wire.Scope.single]) hl
    refine ⟨w₃, ?_, (hi.close_grows hg hw₃).1⟩
    exact bind_eq_ok_iff.2 ⟨w₁, hb', bind_eq_ok_iff.2 ⟨w₂, hw₂, ofWire_eq_ok_iff.2 hw₃⟩⟩
  · intro hd
    rw [writeList, hb']
    simp only [bind, Except.bind, hdeep hd]

/-- A list of values is accepted in one form only, the one that is written for it. -/
private theorem Value.canonical_list : Canonical Value.writeList Value.readList :=
  takes_readList.canonical fun _ hfits hdepth =>
    (writeList_of_fits Writer.accepts_empty hfits).1 hdepth

/-- A failure is accepted in one form only, the one that is written for it. -/
private theorem Failure.canonical : Canonical Failure.write Failure.read :=
  takes_read.canonical fun f hfits _ => by
    obtain ⟨w, hw⟩ := write_ok Writer.accepts_empty hfits
    exact ⟨w, hw, (write_grows hw).2⟩

/-- Nothing can be read that would not be written in just this way: values, argument lists and
    failures have one form each. -/
theorem value_format_canonical :
    Canonical Value.write Value.read ∧ Canonical Value.writeList Value.readList ∧
      Canonical Failure.write Failure.read :=
  ⟨Value.canonical, Value.canonical_list, Failure.canonical⟩

end StreamRpc
