import StreamRpc.Proofs.Value.Canonical

/-! # Reading and skipping

An item can be read, by the typed read for its tag, or skipped, which looks at its length alone.
Both take the same bytes.  A typed read that does not get the tag it is for takes nothing, and no
read ever gives back bytes that it was not given.

* `Reader.Passes`      skipping passes over whatever this reads
* `Reader.Starts`      a read that looks at the tag before it takes anything
* `Reader.Typed`       both, with the tags that the read is for
* `Reader.typed_unit`, …, `Reader.typed_variant`
                       the typed reads, one by one
-/

namespace StreamRpc.Wire.Reader

variable {ε α β : Type}

/-! ## What is left -/

/-- The bytes that are left, whatever came of a read. -/
def left : EStateM.Result ε Bytes α → Bytes
  | .ok _ rest => rest
  | .error _ rest => rest

/-- What is left is always the end of what there was. -/
def OnlyTakes (x : Reader ε α) : Prop :=
  ∀ bs, left (x bs) <:+ bs

namespace OnlyTakes

variable {x : Reader ε α} {f : α → Reader ε β}

/-- `pure` takes nothing. -/
theorem pure (a : α) : OnlyTakes (Pure.pure a : Reader ε α) :=
  fun _ => List.suffix_rfl

/-- A reader that throws takes nothing. -/
theorem throw (e : ε) : OnlyTakes (MonadExcept.throw e : Reader ε α) :=
  fun _ => List.suffix_rfl

/-- Two readers in a row only take from the front when both do. -/
theorem bind (hx : OnlyTakes x) (hf : ∀ a, OnlyTakes (f a)) : OnlyTakes (x >>= f) := by
  intro bs
  have hbs := hx bs
  simp only [Bind.bind, EStateM.bind]
  cases h : x bs with
  | error e rest => rwa [h] at hbs
  | ok a mid =>
    rw [h] at hbs
    exact (hf a mid).trans hbs

end OnlyTakes

/-- A peek takes nothing. -/
theorem onlyTakes_peek : OnlyTakes peek := by
  intro bs
  unfold peek
  split
  · exact List.suffix_rfl
  · split <;> exact List.suffix_rfl

/-- `take` only takes from the front. -/
private theorem onlyTakes_take (n : Nat) : OnlyTakes (take n) := by
  intro bs
  simp only [take]
  split
  · exact List.suffix_rfl
  · exact List.drop_suffix n bs

/-- Reading a tag only takes from the front. -/
private theorem onlyTakes_tag (t : Tag) : OnlyTakes (tag t) := by
  refine onlyTakes_peek.bind fun found => ?_
  split
  · exact (onlyTakes_take 1).bind fun _ => .pure _
  · exact .throw _

/-- Reading a number only takes from the front. -/
private theorem onlyTakes_number (width : Nat) : OnlyTakes (number width) :=
  (onlyTakes_take width).bind fun _ => .pure _

/-- Reading a wide number only takes from the front. -/
theorem onlyTakes_wide (t : Tag) : OnlyTakes (wide t) :=
  (onlyTakes_tag t).bind fun _ => (onlyTakes_number 8).bind fun _ => .pure _

/-- Reading a blob only takes from the front. -/
theorem onlyTakes_blob (t : Tag) : OnlyTakes (blob t) :=
  (onlyTakes_tag t).bind fun _ => (onlyTakes_number 4).bind onlyTakes_take

/-- Reading an item only takes from the front. -/
theorem onlyTakes_item : OnlyTakes item := by
  refine onlyTakes_peek.bind fun t => (onlyTakes_take 1).bind fun head => ?_
  split
  · exact (onlyTakes_take _).bind fun _ => .pure _
  · exact (onlyTakes_take 4).bind fun _ => (onlyTakes_take _).bind fun _ => .pure _

/-! ## What skipping takes -/

/-- An item that can be read is skipped whole. -/
theorem skip_of_item {bs found rest : Bytes} (h : item bs = .ok found rest) :
    skip bs = .ok () rest :=
  bind_of_ok (f := fun _ => pure ()) h

/-- A marker is skipped whole. -/
private theorem skip_marker {t : Tag} (ht : t.width? = some 0) (rest : Bytes) :
    skip (marker t ++ rest) = .ok () rest :=
  skip_of_item (item_marker ht rest)

/-- A wide number is skipped whole. -/
private theorem skip_wide {t : Tag} (ht : t.width? = some 8) (n : Nat) (rest : Bytes) :
    skip (Wire.wide t n ++ rest) = .ok () rest :=
  skip_of_item (item_wide ht n rest)

/-- A blob is skipped whole. -/
private theorem skip_blob {t : Tag} (ht : t.width? = none) {body : Bytes} (rest : Bytes)
    (h : body.length < blobLimit) : skip (Wire.blob t body ++ rest) = .ok () rest :=
  skip_of_item (item_blob ht rest h)

/-- Where this reads something, skipping passes over the same bytes; and whatever comes of it, what
    is left is the end of what there was. -/
structure Passes (x : Reader ε α) : Prop where
  onlyTakes : OnlyTakes x
  skips : ∀ {bs rest : Bytes} {a : α}, x bs = .ok a rest → skip bs = .ok () rest

/-! ## What a read looks at first -/

/-- A read that takes nothing unless there is one of these tags, and says what is there instead of
    the tag that it expects. -/
structure Starts (x : Reader WireError α) (expected : Tag) (accepted : List Tag) : Prop where
  empty : x [] = .error .unexpectedEnd []
  noTag : ∀ (b : UInt8) (tail : Bytes), Tag.ofByte? b = none →
    x (b :: tail) = .error (.invalidTag b) (b :: tail)
  otherTag : ∀ (t : Tag) (tail : Bytes), t ∉ accepted →
    x (t.byte :: tail) = .error (.unexpectedTag expected t) (t.byte :: tail)

/-- A byte that is no tag is reported. -/
private theorem peek_noTag {b : UInt8} (tail : Bytes) (h : Tag.ofByte? b = none) :
    peek (b :: tail) = .error (.invalidTag b) (b :: tail) := by
  simp only [peek, h]

namespace Starts

variable {x : Reader WireError α} {f : α → Reader WireError β} {expected : Tag}
  {accepted : List Tag}

/-- A read that looks at the tag and goes on only if it is an accepted one. -/
private theorem peek_bind {f : Tag → Reader WireError β}
    (h : ∀ (t : Tag) (tail : Bytes), t ∉ accepted →
      f t (t.byte :: tail) = .error (.unexpectedTag expected t) (t.byte :: tail)) :
    Starts (peek >>= f) expected accepted where
  empty := rfl
  noTag _ tail hb := bind_of_error (peek_noTag tail hb)
  otherTag t tail ht := (bind_of_ok (peek_cons t tail)).trans (h t tail ht)

/-- A sequence starts as its first reader does. -/
private theorem bind (hx : Starts x expected accepted) : Starts (x >>= f) expected accepted where
  empty := bind_of_error hx.empty
  noTag b tail hb := bind_of_error (hx.noTag b tail hb)
  otherTag t tail ht := bind_of_error (hx.otherTag t tail ht)

end Starts

/-- Reading a tag starts with that tag. -/
private theorem starts_tag (t : Tag) : Starts (tag t) t [t] :=
  .peek_bind fun found tail hfound => by
    rw [if_neg (by simpa using hfound)]
    rfl

/-- Reading a wide number starts with its tag. -/
private theorem starts_wide (t : Tag) : Starts (wide t) t [t] :=
  (starts_tag t).bind

/-- Reading a blob starts with its tag. -/
private theorem starts_blob (t : Tag) : Starts (blob t) t [t] :=
  (starts_tag t).bind

/-! ## The typed reads -/

/-- A read of the items with one of the accepted tags. -/
structure Typed (x : Reader WireError α) (expected : Tag) (accepted : List Tag) : Prop extends
    Passes x, Starts x expected accepted where
  /-- None of the tags is accepted in vain. -/
  ownTag : ∀ t ∈ accepted, ∃ tail a, x (t.byte :: tail) = .ok a []

/-- One item that is read, with nothing after it, shows that its tag is not accepted in vain. -/
private theorem own_of_append {x : Reader WireError α} {t : Tag} {tail : Bytes} {a : α}
    (h : x (t.byte :: (tail ++ [])) = .ok a []) :
    ∀ t' ∈ [t], ∃ tail a, x (t'.byte :: tail) = .ok a [] := by
  rw [List.append_nil] at h
  exact List.forall_mem_singleton.2 ⟨tail, a, h⟩

/-- The unit is read as what skipping passes over, and only after its own tag. -/
theorem typed_unit : Typed unit .unit [.unit] where
  onlyTakes := onlyTakes_tag .unit
  skips h := by
    rw [tag_ok h]
    exact skip_marker rfl _
  toStarts := starts_tag .unit
  ownTag := List.forall_mem_singleton.2 ⟨[], (), tag_cons .unit []⟩

/-- Reads of the numbers that are eight bytes after their tag. -/
theorem typed_wide (t : Tag) (ht : t.width? = some 8) : Typed (wide t) t [t] where
  onlyTakes := onlyTakes_wide t
  skips h := by
    rw [wide_ok h]
    exact skip_wide ht _ _
  toStarts := starts_wide t
  ownTag := own_of_append (wide_append t 0 [])

/-- Reads of the bodies that stand after a tag and their length. -/
theorem typed_blob (t : Tag) (ht : t.width? = none) : Typed (blob t) t [t] where
  onlyTakes := onlyTakes_blob t
  skips h := by
    obtain ⟨hbs, hl⟩ := blob_ok h
    rw [hbs]
    exact skip_blob ht _ hl
  toStarts := starts_blob t
  ownTag := by
    have h : blob t (Wire.blob t [] ++ []) = .ok [] [] := blob_append [] (by decide)
    exact own_of_append h

/-- A signed number is read as what skipping passes over, and only after its own tag. -/
theorem typed_s64 : Typed s64 .s64 [.s64] where
  onlyTakes := (onlyTakes_wide .s64).bind fun _ => .pure _
  skips h := by
    rw [s64_ok h]
    exact skip_wide rfl _ _
  toStarts := (starts_wide .s64).bind
  ownTag := by
    obtain ⟨tail, n, h⟩ := (typed_wide .s64 rfl).ownTag .s64 (List.mem_singleton.2 rfl)
    exact List.forall_mem_singleton.2 ⟨tail, n.toInt64, bind_of_ok h⟩

/-- A text is read as what skipping passes over, and only after its own tag. -/
theorem typed_str : Typed str .string [.string] where
  onlyTakes := by
    refine (onlyTakes_blob .string).bind fun body => ?_
    -- After the length the text is checked, which takes nothing more.
    split
    · exact .pure _
    · exact .throw _
  skips h := by
    obtain ⟨hbs, hl⟩ := str_ok h
    rw [hbs]
    exact skip_blob rfl _ hl
  toStarts := (starts_blob .string).bind
  ownTag := by
    have h : str (Wire.blob .string (utf8 "") ++ []) = .ok "" [] := str_append [] (by decide)
    exact own_of_append h

/-- A variant is read as what skipping passes over, and only after its own tag. -/
theorem typed_variant : Typed variant .variant [.variant] where
  onlyTakes := by
    refine (onlyTakes_blob .variant).bind fun body => ?_
    -- The name is read from inside the slice, so it takes nothing more.
    split
    · exact .pure _
    · exact .throw _
  skips {bs rest entry} h := by
    obtain ⟨name, inner⟩ := entry
    obtain ⟨hbs, hl⟩ := variant_ok h
    rw [hbs]
    exact skip_blob rfl _ hl
  toStarts := (starts_blob .variant).bind
  ownTag := by
    have h : variant (Wire.blob .variant (Wire.blob .string (utf8 "") ++ []) ++ []) =
        .ok ("", []) [] := variant_append [] (by decide) (by decide)
    exact own_of_append h

/-! Three reads are for two tags each. -/

/-- A truth value is read as what skipping passes over, after either of its tags. -/
theorem typed_bool : Typed bool .boolTrue [.boolTrue, .boolFalse] where
  onlyTakes := by
    refine onlyTakes_peek.bind fun found => ?_
    -- The tag is the value, and another one is refused.
    split
    · exact (onlyTakes_tag _).bind fun _ => .pure _
    · exact (onlyTakes_tag _).bind fun _ => .pure _
    · exact .throw _
  skips {bs rest b} h := by
    rw [bool_ok h]
    cases b <;> exact skip_marker rfl _
  toStarts := .peek_bind fun t tail ht => by
    split
    · exact absurd (List.mem_cons_self ..) ht
    · exact absurd (List.mem_cons_of_mem _ (List.mem_cons_self ..)) ht
    · rfl
  ownTag := List.forall_mem_cons.2
    ⟨⟨[], true, rfl⟩, List.forall_mem_singleton.2 ⟨[], false, rfl⟩⟩

/-- An optional value is read as what skipping passes over, after either of its tags. -/
theorem typed_option : Typed option .optionSome [.optionNone, .optionSome] where
  onlyTakes := by
    refine onlyTakes_peek.bind fun found => ?_
    -- Looking at the tag takes nothing; one of the two reads follows.
    split
    · exact (onlyTakes_tag _).bind fun _ => .pure _
    · exact (onlyTakes_blob _).bind fun _ => .pure _
  skips h := by
    rcases option_ok h with ⟨-, hbs⟩ | ⟨body, -, hbs, hl⟩
    · rw [hbs]
      exact skip_marker rfl _
    · rw [hbs]
      exact skip_blob rfl _ hl
  toStarts := .peek_bind fun t tail ht => by
    split
    · exact absurd (List.mem_cons_self ..) ht
    · -- The read of the other tag is tried, and turns this one down.
      exact bind_of_error ((starts_blob _).otherTag t tail fun h =>
        ht (List.mem_cons_of_mem _ h))
  ownTag := by
    obtain ⟨tail, body, h⟩ := (typed_blob .optionSome rfl).ownTag _ (List.mem_singleton.2 rfl)
    exact List.forall_mem_cons.2
      ⟨⟨[], none, rfl⟩, List.forall_mem_singleton.2 ⟨tail, some body, bind_of_ok h⟩⟩

/-- A result is read as what skipping passes over, after either of its tags. -/
theorem typed_result : Typed result .resultOk [.resultErr, .resultOk] where
  onlyTakes := by
    refine onlyTakes_peek.bind fun found => ?_
    -- The tag tells the side, and the bytes of either are taken as a slice.
    split
    · exact (onlyTakes_blob _).bind fun _ => .pure _
    · exact (onlyTakes_blob _).bind fun _ => .pure _
  skips h := by
    rcases result_ok h with ⟨body, -, hbs, hl⟩ | ⟨body, -, hbs, hl⟩
    · rw [hbs]
      exact skip_blob rfl _ hl
    · rw [hbs]
      exact skip_blob rfl _ hl
  toStarts := .peek_bind fun t tail ht => by
    split
    · exact absurd (List.mem_cons_self ..) ht
    · exact bind_of_error ((starts_blob _).otherTag t tail fun h =>
        ht (List.mem_cons_of_mem _ h))
  ownTag := by
    obtain ⟨tail, body, h⟩ := (typed_blob .resultErr rfl).ownTag _ (List.mem_singleton.2 rfl)
    obtain ⟨tail', body', h'⟩ := (typed_blob .resultOk rfl).ownTag _ (List.mem_singleton.2 rfl)
    exact List.forall_mem_cons.2
      ⟨⟨tail, .error body, bind_of_ok h⟩,
        List.forall_mem_singleton.2 ⟨tail', .ok body', bind_of_ok h'⟩⟩

end StreamRpc.Wire.Reader
