import Mathlib.Data.Nat.Digits.Defs
import StreamRpc.Proofs.Message.Canonical
import StreamRpc.Server.Reply

/-! # Of what cannot be written one can be told

What cannot be written is replaced by a failure whose message is the wording of the error.  That
failure can be written: a writer only has errors with a few words, or with a length in them, and a
length that a machine can have takes twenty digits.

* `CodecError.Brief`                the wording is short, or says a length
* `ServerMessage.brief_of_error`    what a server cannot write is refused for a brief reason
* `ServerMessage.excuse`            the failure that takes its place can be written
-/

namespace StreamRpc

open Wire (Writer WireError Item Scope utf8)

/-! ## Lengths of texts -/

namespace Wire

/-- The UTF-8 bytes of a text are as many as the text says. -/
private theorem length_utf8 (s : String) : (utf8 s).length = s.utf8ByteSize := by
  simp [utf8]

/-- Two texts in a row have as many bytes as both together. -/
theorem length_utf8_append (s t : String) :
    (utf8 (s ++ t)).length = (utf8 s).length + (utf8 t).length := by
  simp [utf8]

/-- No character takes more than four bytes. -/
theorem length_utf8_le (s : String) : (utf8 s).length ≤ 4 * s.length := by
  obtain ⟨cs, rfl⟩ : ∃ cs, s = String.ofList cs := ⟨s.toList, by simp⟩
  induction cs with
  | nil => simp [utf8]
  | cons c cs ih =>
    -- A character takes four bytes at most.
    have hc := c.utf8Size_le_four
    rw [length_utf8, String.length_ofList] at ih ⊢
    rw [← List.singleton_append, String.ofList_append, String.utf8ByteSize_append]
    simp only [List.length_append, List.length_singleton]
    have : (String.ofList [c]).utf8ByteSize = c.utf8Size := by simp
    omega

end Wire

/-! ## Brief errors -/

/-- The wording of the error is short, or says a length. -/
def Wire.WireError.Brief (e : WireError) : Prop :=
  (utf8 e.message).length ≤ 64 ∨ ∃ n, e = .blobTooLarge n

/-- The wording of the error is short, or says a length. -/
def CodecError.Brief (e : CodecError) : Prop :=
  (utf8 e.message).length ≤ 80 ∨ ∃ n, e = .wire (.blobTooLarge n)

/-- A wire error is reported with a front of twelve bytes. -/
private theorem CodecError.length_wire (e : WireError) :
    (utf8 (CodecError.wire e).message).length = 12 + (utf8 e.message).length := by
  have hpack : (utf8 "pack error: ").length = 12 := by decide
  show (utf8 ("pack error: " ++ e.message)).length = _
  rw [Wire.length_utf8_append, hpack]

/-- A brief wire error is reported briefly. -/
private theorem CodecError.Brief.ofWire {e : WireError} (h : e.Brief) :
    (CodecError.wire e).Brief := by
  rcases h with short | ⟨n, rfl⟩
  · left
    rw [CodecError.length_wire]
    exact (Nat.add_le_add_left short 12).trans (by decide)
  · exact .inr ⟨n, rfl⟩

/-- The error for too deep nesting is brief. -/
private theorem CodecError.brief_nestingTooDeep : CodecError.nestingTooDeep.Brief :=
  .inl (by decide)

/-- Whatever goes wrong here has a brief wording. -/
def BriefErrors {α : Type} (r : Except CodecError α) : Prop :=
  ∀ err, r = .error err → err.Brief

namespace BriefErrors

variable {α β : Type}

/-- A success has no error to measure. -/
private theorem ok (a : α) : BriefErrors (.ok a) := by
  rintro err ⟨⟩

/-- Two steps in a row have brief errors when each has. -/
private theorem bind {r : Except CodecError α} {f : α → Except CodecError β} (hr : BriefErrors r)
    (hf : ∀ a, BriefErrors (f a)) : BriefErrors (r >>= f) := by
  intro err h
  cases r with
  | error e =>
    obtain rfl : e = err := Except.error.inj h
    exact hr e rfl
  | ok a => exact hf a err h

/-- A wire result has brief errors when the wire errors are brief. -/
private theorem ofWire {r : Except WireError α} (h : ∀ e, r = .error e → e.Brief) :
    BriefErrors (ofWire r) := by
  intro err herr
  cases r with
  | error e =>
    obtain rfl := Except.error.inj herr
    exact CodecError.Brief.ofWire (h e rfl)
  | ok a => cases herr

end BriefErrors

/-! ## Writers -/

namespace Wire.Writer

variable {w : Writer} {t : Tag} {e : WireError}

/-- A frame refuses an item briefly. -/
private theorem brief_refuses (h : w.top.refuses t = some e) : e.Brief := by
  unfold Frame.refuses at h
  -- Both errors name one of a few scopes or tags, so their texts are evaluated.
  split at h
  · split at h
    · cases h
    · obtain rfl := Option.some.inj h
      exact .inl (by decide)
  · split at h
    · obtain rfl := Option.some.inj h
      left
      cases w.top.scope <;> decide
    · cases h

/-- Putting an item fails briefly. -/
private theorem brief_put {item : Bytes} (h : w.put t item = .error e) : e.Brief := by
  unfold put at h
  split at h
  · next refused =>
    obtain rfl := Except.error.inj h
    exact brief_refuses refused
  · cases h

/-- Putting a blob fails briefly. -/
private theorem brief_putBlob {body : Bytes} (h : w.putBlob t body = .error e) : e.Brief := by
  unfold putBlob at h
  split at h
  · exact brief_put h
  · obtain rfl := Except.error.inj h
    exact .inr ⟨_, rfl⟩

/-- Opening a frame fails briefly. -/
private theorem brief_begin {scope : Scope} (h : w.begin t scope = .error e) : e.Brief := by
  unfold begin at h
  split at h
  · next refused =>
    obtain rfl := Except.error.inj h
    exact brief_refuses refused
  · cases h

/-- Closing a frame fails briefly. -/
private theorem brief_close {scope : Scope} (h : w.close scope = .error e) : e.Brief := by
  unfold close at h
  split at h
  · obtain rfl := Except.error.inj h
    exact .inl (by decide)
  · split at h
    · obtain rfl := Except.error.inj h
      left
      cases scope <;> cases w.top.scope <;> decide
    · split at h
      · obtain rfl := Except.error.inj h
        left
        cases w.top.scope <;> decide
      · split at h
        · cases h
        · obtain rfl := Except.error.inj h
          exact .inr ⟨_, rfl⟩

/-- Opening a variant fails briefly. -/
private theorem brief_variantBegin {name : String} (h : w.variantBegin name = .error e) :
    e.Brief := by
  unfold variantBegin at h
  -- Beginning a variant fails as any container does, or because of its name.
  cases hb : w.begin .variant .variant with
  | error err =>
    rw [hb] at h
    obtain rfl := Except.error.inj h
    exact brief_begin hb
  | ok w₁ =>
    cases hs : w₁.str name with
    | error err =>
      simp only [hb, hs, Bind.bind, Except.bind] at h
      obtain rfl := Except.error.inj h
      exact brief_putBlob hs
    | ok w₂ => simp [hb, hs, Bind.bind, Except.bind, pure, Except.pure] at h

/-- Asking for the bytes fails briefly. -/
private theorem brief_bytes (h : w.bytes = .error e) : e.Brief := by
  unfold bytes at h
  split at h
  · cases h
  · obtain rfl := Except.error.inj h
    exact .inl (by decide)

end Wire.Writer

open Wire.Writer (brief_put brief_putBlob brief_begin brief_close brief_variantBegin brief_bytes)

/-! ## Values and messages -/

/-- A container is opened, filled and closed. -/
private theorem BriefErrors.enclosed {opened : Except WireError Writer}
    {inside : Writer → Except CodecError Writer} {ended : Writer → Except WireError Writer}
    (hopened : ∀ e, opened = .error e → e.Brief) (hinside : ∀ w, BriefErrors (inside w))
    (hended : ∀ w e, ended w = .error e → e.Brief) :
    BriefErrors (StreamRpc.ofWire opened >>= fun w =>
      inside w >>= fun w => StreamRpc.ofWire (ended w)) :=
  (BriefErrors.ofWire hopened).bind fun w => (hinside w).bind fun w => .ofWire (hended w)

namespace Value

mutual

/-- Writing a value fails briefly, at any depth and in any state of the writer. -/
private theorem brief_writeWithin (v : WireValue) (room : Nat) (w : Writer) :
    BriefErrors (v.writeWithin room w) := by
  -- The recursion is on the value; the room is checked before anything is written.
  cases room with
  | zero =>
    rw [writeWithin]
    rintro err ⟨⟩
    exact CodecError.brief_nestingTooDeep
  | succ room =>
    cases v with
    | unit | bool | u64 | s64 | f64 | absent | stream =>
      rw [writeWithin]
      exact .ofWire fun _ => brief_put
    | str | bytes =>
      rw [writeWithin]
      exact .ofWire fun _ => brief_putBlob
    -- A container is begun, filled and closed, and each of the three refuses briefly.
    | list items =>
      rw [writeWithin]
      exact .enclosed (fun _ => brief_begin) (brief_writeItems items room) fun _ _ => brief_close
    | record fields =>
      rw [writeWithin]
      exact .enclosed (fun _ => brief_begin) (brief_writeFields fields room) fun _ _ => brief_close
    | present v =>
      rw [writeWithin]
      exact .enclosed (fun _ => brief_begin) (brief_writeWithin v room) fun _ _ => brief_close
    | variant name v =>
      rw [writeWithin]
      exact .enclosed (fun _ => brief_variantBegin) (brief_writeWithin v room) fun _ _ => brief_close

/-- Writing a list's items fails briefly. -/
private theorem brief_writeItems (items : List WireValue) (room : Nat) (w : Writer) :
    BriefErrors (writeItems items room w) := by
  cases items with
  | nil =>
    rw [writeItems]
    exact .ok w
  | cons v items =>
    rw [writeItems]
    exact (brief_writeWithin v room w).bind (brief_writeItems items room)

/-- Writing a record's fields fails briefly. -/
private theorem brief_writeFields (fields : List (String × WireValue)) (room : Nat) (w : Writer) :
    BriefErrors (writeFields fields room w) := by
  cases fields with
  | nil =>
    rw [writeFields]
    exact .ok w
  | cons field fields =>
    obtain ⟨name, v⟩ := field
    rw [writeFields]
    -- Four writers in a row, each of which refuses briefly.
    exact (BriefErrors.ofWire fun _ => brief_variantBegin).bind fun w =>
      (brief_writeWithin v room w).bind fun w =>
        (BriefErrors.ofWire fun _ => brief_close).bind (brief_writeFields fields room)

end

end Value

/-- Writing a failure fails briefly. -/
private theorem Failure.brief_write (f : Failure) (w : Writer) : BriefErrors (f.write w) :=
  .enclosed (fun _ => brief_variantBegin) (fun _ => .ofWire fun _ => brief_putBlob)
    fun _ _ => brief_close

namespace ServerMessage

/-- Writing a result fails briefly. -/
private theorem brief_writeResult (result : Except Failure WireValue) (w : Writer) :
    BriefErrors (writeResult result w) := by
  cases result with
  | ok v =>
    exact .enclosed (fun _ => brief_begin) (Value.brief_writeWithin v _) fun _ _ => brief_close
  | error f => exact .enclosed (fun _ => brief_begin) f.brief_write fun _ _ => brief_close

/-- Writing an event fails briefly. -/
private theorem brief_writeEvent (event : Notification WireValue) (w : Writer) :
    BriefErrors (writeEvent event w) := by
  cases event with
  | next v =>
    exact .enclosed (fun _ => brief_variantBegin) (Value.brief_writeWithin v _)
      fun _ _ => brief_close
  | error f => exact .enclosed (fun _ => brief_variantBegin) f.brief_write fun _ _ => brief_close
  | completed =>
    exact .enclosed (fun _ => brief_variantBegin) (fun _ => .ofWire fun _ => brief_put)
      fun _ _ => brief_close

/-- What a server cannot write is refused for a reason whose wording is short or says a length. -/
theorem brief_of_error {m : ServerMessage} {err : CodecError} (h : m.toEnvelope = .error err) :
    err.Brief := by
  cases m with
  | reply id result =>
    exact (brief_writeResult result {}).bind
      (fun w => (BriefErrors.ofWire fun _ => brief_bytes).bind fun _ => .ok _) err h
  | observation id event =>
    exact (brief_writeEvent event {}).bind
      (fun w => (BriefErrors.ofWire fun _ => brief_bytes).bind fun _ => .ok _) err h

end ServerMessage

/-! ## The failure that takes the place of a message -/

/-- A length that is too large is still one that a machine can have. -/
def CodecError.Measured (err : CodecError) : Prop :=
  ∀ n, err = .wire (.blobTooLarge n) → n < 2 ^ 64

/-- A brief error that is measured is at most 106 bytes long. -/
private theorem CodecError.Brief.length {err : CodecError} (brief : err.Brief)
    (measured : err.Measured) :
    (utf8 err.message).length ≤ 106 := by
  rcases brief with short | ⟨n, rfl⟩
  · exact short.trans (by decide)
  -- a number below 2 ^ 64 has twenty digits at most, of four bytes at most
  · have digits : (Nat.repr n).length ≤ 20 :=
      Nat.repr_length n 20 (by decide) (lt_trans (measured n rfl) (by norm_num))
    have hrepr : (utf8 (Nat.repr n)).length ≤ 80 :=
      (Wire.length_utf8_le _).trans (Nat.mul_le_mul_left 4 digits)
    have hmessage : (utf8 (WireError.blobTooLarge n).message).length =
        13 + (utf8 (Nat.repr n)).length + 1 := by
      have hblob : (utf8 "BlobTooLarge(").length = 13 := by decide
      have hend : (utf8 ")").length = 1 := by decide
      show (utf8 ("BlobTooLarge(" ++ Nat.repr n ++ ")")).length = _
      rw [Wire.length_utf8_append, Wire.length_utf8_append, hblob, hend]
    rw [CodecError.length_wire, hmessage]
    exact Nat.add_le_add_left (Nat.add_le_add_right (Nat.add_le_add_left hrepr 13) 1) 12

/-- A kind's name is at most 18 bytes long. -/
private theorem Failure.Kind.length_name (k : Failure.Kind) : (utf8 k.name).length ≤ 18 := by
  cases k <;> decide

/-- A failure whose message is not too long fits. -/
private theorem Failure.fits_of_short {f : Failure} (short : (utf8 f.message).length ≤ 1000) :
    f.toItem.Fits ∧ f.toItem.encode.length ≤ 1040 := by
  have hname := f.kind.length_name
  have hlimit : Wire.blobLimit = 4294967296 := by decide
  simp only [toItem, Item.Fits, Item.encode, Wire.blob, List.length_cons, List.length_append,
    Wire.Word.length_digits, hlimit]
  generalize (utf8 f.message).length = m at short
  generalize (utf8 f.kind.name).length = n at hname
  omega

namespace ServerMessage

/-- A failure whose message is not too long can be written. -/
theorem writes_failure {f : Failure} (short : (utf8 f.message).length ≤ 1000) (id : CallId)
    (sid : StreamId) :
    (∃ e, (reply id (.error f)).toEnvelope = .ok e) ∧
      ∃ e, (observation sid (.error f)).toEnvelope = .ok e := by
  obtain ⟨fits, hlength⟩ := Failure.fits_of_short short
  -- The limit is named, so that nothing computes with it.
  have hlimit : 2000 < Wire.blobLimit := by decide
  have herror : (utf8 "error").length = 5 := by decide
  refine ⟨⟨_, reply_toEnvelope id ⟨by omega, fits⟩ (by rintro v ⟨⟩)⟩,
    ⟨_, observation_toEnvelope sid (.error f) ⟨?_, ?_, fits⟩ (by rintro v ⟨⟩)⟩⟩
  · show (utf8 "error").length < Wire.blobLimit
    omega
  · show (Wire.blob .string (utf8 "error") ++ f.toItem.encode).length < Wire.blobLimit
    rw [List.length_append, Wire.blob, List.length_cons, List.length_append,
      Wire.Word.length_digits, herror]
    omega

/-- The failure that takes the place of what cannot be written can be written. -/
theorem excuse {what : String} (hwhat : (utf8 what).length ≤ 100) {m : ServerMessage}
    {err : CodecError} (h : m.toEnvelope = .error err) (measured : err.Measured) (id : CallId)
    (sid : StreamId) :
    (∃ e, (reply id (.error (.unwritable what err))).toEnvelope = .ok e) ∧
      ∃ e, (observation sid (.error (.unwritable what err))).toEnvelope = .ok e := by
  have hmessage := (brief_of_error h).length measured
  have hmiddle : (utf8 " could not be encoded: ").length = 23 := by decide
  refine writes_failure ?_ id sid
  rw [Failure.unwritable, Wire.length_utf8_append, Wire.length_utf8_append, hmiddle]
  exact (Nat.add_le_add (Nat.add_le_add_right hwhat 23) hmessage).trans (by decide)

end ServerMessage

end StreamRpc
