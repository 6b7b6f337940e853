import StreamRpc.Proofs.Value.Canonical

/-! # Reads that know where their bytes end

The bytes of an item say how long it is.  A read that succeeded on some bytes does not care what
follows them, and if it gets fewer of them, it finds out by running into the end and in no other
way.  Reads of this kind can be put one after another.

* `Reader.Delimits`      such bytes, and what is read from them
* `Reader.Framed`        reads that succeed on such bytes only
* `Reader.Framed.bind`   one read after another
* `Reader.framed_blob`   a length-prefixed read is of this kind, and all others come from it
-/

namespace StreamRpc

open Wire (Bytes Reader WireError Tag)

namespace Wire.Reader

variable {ε α β : Type} {eof : ε}

/-- These bytes are read as `a`, whatever follows them, and from fewer of them nothing is read, for
    want of the others. -/
structure Delimits (eof : ε) (x : Reader ε α) (bs : Bytes) (a : α) : Prop where
  whole : ∀ rest, x (bs ++ rest) = .ok a rest
  cut : ∀ front, front <+: bs → front ≠ bs → ∃ rest, x front = .error eof rest

/-- What is read is always read from bytes that say themselves where they end. -/
def Framed (eof : ε) (x : Reader ε α) : Prop :=
  ∀ ⦃bs rest : Bytes⦄ ⦃a : α⦄, x bs = .ok a rest →
    ∃ taken, bs = taken ++ rest ∧ Delimits eof x taken a

namespace Delimits

variable {x : Reader ε α} {f : α → Reader ε β} {bs bs' : Bytes} {a : α} {b : β}

/-- No bytes cannot be cut. -/
private theorem nil (h : ∀ rest, x rest = .ok a rest) : Delimits eof x [] a where
  whole := h
  cut _ hfront hne := absurd (List.prefix_nil.1 hfront) hne

/-- Two delimited readers in a row are delimited. -/
private theorem bind (h : Delimits eof x bs a) (h' : Delimits eof (f a) bs' b) :
    Delimits eof (x >>= f) (bs ++ bs') b where
  whole rest := by
    rw [List.append_assoc, bind_of_ok (h.whole _)]
    exact h'.whole rest
  cut front hfront hne := by
    -- Either the first read has all of its bytes, and the cut is in the second, or it has not.
    by_cases hsecond : bs <+: front
    · obtain ⟨more, rfl⟩ := hsecond
      have hmore : more <+: bs' := (List.prefix_append_right_inj bs).1 hfront
      obtain ⟨rest, hrest⟩ := h'.cut more hmore fun heq => hne (by rw [heq])
      exact ⟨rest, by rw [bind_of_ok (h.whole more), hrest]⟩
    · -- The cut is among the bytes of the first read, and the second is not reached.
      have hfirst : front <+: bs :=
        (List.prefix_or_prefix_of_prefix hfront (List.prefix_append bs bs')).resolve_right hsecond
      obtain ⟨rest, hrest⟩ := h.cut front hfirst fun heq => hsecond (heq ▸ List.prefix_rfl)
      exact ⟨rest, bind_of_error hrest⟩

end Delimits

namespace Framed

variable {x : Reader ε α} {f : α → Reader ε β}

/-- `pure` reads nothing, so no shorter input can end in it. -/
theorem pure (a : α) : Framed eof (Pure.pure a : Reader ε α) := by
  intro bs rest a' h
  obtain ⟨rfl, rfl⟩ := pure_ok_iff.1 h
  exact ⟨[], rfl, .nil fun _ => rfl⟩

/-- A reader that throws never succeeds. -/
private theorem throw (e : ε) : Framed eof (MonadExcept.throw e : Reader ε α) :=
  fun _ _ _ h => absurd h throw_ne_ok

/-- Two framed readers in a row are framed. -/
theorem bind (hx : Framed eof x) (hf : ∀ a, Framed eof (f a)) : Framed eof (x >>= f) := by
  intro bs rest b h
  obtain ⟨a, mid, hbs, hmid⟩ := bind_ok_iff.1 h
  obtain ⟨taken, rfl, hd⟩ := hx hbs
  obtain ⟨taken', rfl, hd'⟩ := hf a hmid
  exact ⟨taken ++ taken', (List.append_assoc _ _ _).symm, hd.bind hd'⟩

/-- Looking at the tag first does no harm to reads that take at least that tag. -/
private theorem peek_bind {f : Tag → Reader WireError β} (hf : ∀ t, Framed .unexpectedEnd (f t))
    (htakes : ∀ t b rest, f t [] ≠ .ok b rest) : Framed .unexpectedEnd (peek >>= f) := by
  intro bs rest b h
  obtain ⟨t, mid, hp, hbs⟩ := bind_ok_iff.1 h
  obtain ⟨rfl, tail, htail⟩ := peek_ok hp
  obtain ⟨taken, rfl, hd⟩ := hf t hbs
  -- The read that follows takes at least the tag that was looked at.
  cases taken with
  | nil => exact absurd (hd.whole []) (htakes t b [])
  | cons first taken =>
    obtain ⟨rfl, -⟩ := List.cons.inj htail
    refine ⟨t.byte :: taken, rfl, fun rest' => ?_, fun front hfront hne => ?_⟩
    · rw [List.cons_append, bind_of_ok (peek_cons t _)]
      exact hd.whole rest'
    · cases front with
      | nil => exact ⟨[], rfl⟩
      | cons first' front =>
        obtain ⟨rfl, -⟩ := List.cons_prefix_cons.1 hfront
        rw [bind_of_ok (peek_cons t front)]
        exact hd.cut _ hfront hne

end Framed

/-! ## Items -/

/-- A tag is read with its end marked. -/
private theorem framed_tag (t : Tag) : Framed .unexpectedEnd (tag t) := by
  intro bs rest _ h
  refine ⟨[t.byte], tag_ok h, fun rest' => tag_cons t rest', fun front hfront hne => ?_⟩
  cases front with
  | nil => exact ⟨[], rfl⟩
  | cons first front =>
    obtain ⟨rfl, hnil⟩ := List.cons_prefix_cons.1 hfront
    exact absurd (by rw [List.prefix_nil.1 hnil]) hne

/-- A fixed number of bytes is read with its end marked. -/
private theorem framed_take (n : Nat) : Framed .unexpectedEnd (take n) := by
  intro bs rest taken h
  obtain ⟨rfl, rfl⟩ := take_ok h
  refine ⟨taken, rfl, take_append taken, fun front hfront hne => ⟨front, ?_⟩⟩
  have hshort : front.length < taken.length :=
    Nat.lt_of_le_of_ne hfront.length_le fun heq => hne (hfront.eq_of_length heq)
  simp only [take, List.take_of_length_le (Nat.le_of_lt hshort), hshort, if_true]

/-- A length-prefixed read ends where its length says. -/
theorem framed_blob (t : Tag) : Framed .unexpectedEnd (blob t) :=
  (framed_tag t).bind fun _ => ((framed_take 4).bind fun _ => .pure _).bind framed_take

/-- An item that is taken whole, whatever it is, ends where its tag or its length says. -/
theorem framed_item : Framed .unexpectedEnd item := by
  refine .peek_bind (fun t => (framed_take 1).bind fun head => ?_) fun t found rest h => ?_
  · split
    · exact (framed_take _).bind fun _ => .pure _
    · exact (framed_take 4).bind fun _ => (framed_take _).bind fun _ => .pure _
  · cases h

/-- A result is read with its end marked. -/
theorem framed_result : Framed .unexpectedEnd result := by
  refine .peek_bind (fun t => ?_) fun t side rest h => ?_
  · split
    · exact (framed_blob _).bind fun _ => .pure _
    · exact (framed_blob _).bind fun _ => .pure _
  · split at h <;> cases h

/-- A variant is read with its end marked. -/
theorem framed_variant : Framed .unexpectedEnd variant := by
  refine (framed_blob _).bind fun body => ?_
  split
  · exact .pure _
  · exact .throw _

end Wire.Reader

namespace Decoder

open Wire.Reader (Framed Delimits)

variable {α : Type}

/-- A lifted reader is framed when the reader is. -/
theorem framed_lift {r : Reader WireError α} (hr : Framed .unexpectedEnd r) :
    Framed (.wire .unexpectedEnd) (liftM r : Decoder α) := by
  intro bs rest a h
  obtain ⟨taken, hbs, hd⟩ := hr (lift_ok_iff.1 h)
  refine ⟨taken, hbs, fun rest' => lift_ok (hd.whole rest'), fun front hfront hne => ?_⟩
  obtain ⟨left, hleft⟩ := hd.cut front hfront hne
  exact ⟨left, lift_of_error hleft⟩

/-- What is made of bytes that were taken already needs no others. -/
theorem framed_ofExcept {eof : CodecError} (r : Except CodecError α) :
    Framed eof (ofExcept r) := by
  intro bs rest a h
  obtain ⟨rfl, rfl⟩ := ofExcept_ok_iff.1 h
  exact ⟨[], rfl, .nil fun _ => rfl⟩

end Decoder

end StreamRpc
