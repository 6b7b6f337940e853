import StreamRpc.Proofs.Value.Reading
import StreamRpc.Message

/-! # Envelopes and messages arrive as they were sent

A flattened envelope is read back as it was, and so is the message in it.  Both hold for every
envelope and every message that can be written at all.

* `Envelope.ofBytes_toBytes`             envelopes
* `ServerMessage.ofEnvelope_toEnvelope`  what servers say
* `ClientMessage.ofEnvelope_toEnvelope`  what clients say
-/

namespace StreamRpc

open Wire (Bytes Reader Writer Item)
open Wire.Reader (bind_of_ok)
open Decoder (lift_bind ofExcept_bind run_of_ok run_exactly_of_ok)

namespace Attribute

/-- The item that the value of an attribute is written as. -/
def toItem : Attribute → Item
  | u64 n => .u64 n
  | str s => .str s

end Attribute

namespace Envelope

/-- Setting an attribute does not touch the body. -/
@[simp] theorem body_set (e : Envelope) (name : String) (a : Attribute) :
    (e.set name a).body = e.body := rfl

/-! ## Attributes -/

/-- A number is read under a name exactly when the attribute there is that number. -/
theorem u64_ok_iff {e : Envelope} {name : String} {n : UInt64} :
    e.u64 name = .ok n ↔ e.attribute? name = some (.u64 n) := by
  unfold u64
  split <;> simp_all

/-- A text is read under a name exactly when the attribute there is that text. -/
theorem str_ok_iff {e : Envelope} {name : String} {s : String} :
    e.str name = .ok s ↔ e.attribute? name = some (.str s) := by
  unfold str
  split <;> simp_all

/-- Writing an attribute appends its item to the open frame. -/
theorem writeAttribute_grows {a : Attribute} {w w' : Writer}
    (h : Attribute.write a w = .ok w') : a.toItem.Fits ∧ w.Grows a.toItem.encode 1 w' := by
  cases a with
  | u64 n =>
    rw [Attribute.write, ofWire_eq_ok_iff] at h
    exact ⟨trivial, Writer.put_grows h⟩
  | str s =>
    rw [Attribute.write, ofWire_eq_ok_iff] at h
    obtain ⟨hg, hl⟩ := Writer.putBlob_grows h
    exact ⟨hl, hg⟩

/-- An attribute is read back from its item's encoding, whatever follows. -/
private theorem readAttribute_encode (name : String) (a : Attribute) (h : a.toItem.Fits)
    (rest : Bytes) :
    readAttribute name (a.toItem.encode ++ rest) = .ok a rest := by
  cases a with
  | u64 n =>
    rw [Attribute.toItem, Item.encode, readAttribute, lift_bind (Reader.peek_wide _ _ rest)]
    exact lift_bind (Reader.wide_append .u64 n rest)
  | str s =>
    rw [Attribute.toItem, Item.encode, readAttribute, lift_bind (Reader.peek_blob _ _ rest)]
    exact lift_bind (Reader.str_append rest h)

/-- The entries that attributes are written as. -/
def toEntries (as : List (String × Attribute)) : List (String × Item) :=
  as.map fun (name, a) => (name, a.toItem)

/-- Writing attributes appends their entries to the open frame. -/
theorem writeAttributes_grows {as : List (String × Attribute)} {w w' : Writer}
    (h : writeAttributes as w = .ok w') :
    Item.EntriesFit (toEntries as) ∧
      w.Grows (Item.encodeEntries (toEntries as)) as.length w' := by
  induction as generalizing w with
  | nil =>
    obtain rfl := Except.ok.inj (by simpa only [writeAttributes] using h)
    exact ⟨trivial, Writer.Grows.refl _⟩
  | cons entry as ih =>
    obtain ⟨name, a⟩ := entry
    rw [writeAttributes] at h
    obtain ⟨w₁, hb, h⟩ := bind_eq_ok_iff.1 h
    obtain ⟨w₂, ha, h⟩ := bind_eq_ok_iff.1 h
    obtain ⟨w₃, hc, h⟩ := bind_eq_ok_iff.1 h
    rw [ofWire_eq_ok_iff] at hb hc
    obtain ⟨hi, hn⟩ := Writer.variantBegin_inside hb
    obtain ⟨hf, hg⟩ := writeAttribute_grows ha
    -- An entry is written between a beginning and an end, and the length in front of it fits.
    obtain ⟨hg', hl⟩ := hi.close_grows hg hc
    obtain ⟨hf', hg''⟩ := ih h
    refine ⟨⟨⟨hn, hl, hf⟩, hf'⟩, ?_⟩
    rw [List.length_cons, Nat.add_comm]
    exact hg'.trans hg''

/-- Attributes are read back from the encoding of their entries. -/
theorem entries_encode (as : List (String × Attribute)) (hf : Item.EntriesFit (toEntries as)) :
    Decoder.entries (fun name => (readAttribute name).exactly)
      (Item.encodeEntries (toEntries as)) = .ok as := by
  induction as with
  | nil => exact Decoder.entries_nil _
  | cons entry as ih =>
    obtain ⟨name, a⟩ := entry
    obtain ⟨⟨hn, hb, ha⟩, hfs⟩ := hf
    have hread := Reader.alone (readAttribute_encode name a ha)
    exact Decoder.entries_cons hn hb (run_exactly_of_ok hread) (ih hfs)

/-! ## The whole envelope -/

/-- A map is the map of its own entries. -/
private theorem ofList_toList (m : Std.ExtTreeMap String Attribute) :
    Std.ExtTreeMap.ofList m.toList compare = m :=
  Std.ExtTreeMap.ext_getElem? fun k => by
    cases hk : m[k]? with
    | none =>
      have hm : k ∉ m := fun hm => by simp [Std.ExtTreeMap.getElem?_eq_some_getElem hm] at hk
      exact Std.ExtTreeMap.getElem?_ofList_of_contains_eq_false (by simpa using hm)
    | some a =>
      exact Std.ExtTreeMap.getElem?_ofList_of_mem (by simp)
        Std.ExtTreeMap.distinct_keys_toList (Std.ExtTreeMap.mem_toList_iff_getElem?_eq_some.2 hk)

/-- These bytes are entries, in this order and whether or not a name occurs twice, and a body. -/
structure Spells (bs : Bytes) (entries : List (String × Attribute)) (body : Bytes) : Prop where
  fits : Item.EntriesFit (toEntries entries)
  sectionFits : (Item.encodeEntries (toEntries entries)).length < Wire.blobLimit
  bodyFits : body.length < Wire.blobLimit
  bytes : bs = Wire.blob .map (Item.encodeEntries (toEntries entries)) ++ Wire.blob .bytes body

/-- The bytes of an envelope are its attributes and its body. -/
theorem spells_of_toBytes {e : Envelope} {bs : Bytes} (h : e.toBytes = .ok bs) :
    Spells bs e.attributes.toList e.body := by
  obtain ⟨w₁, hb, h⟩ := bind_eq_ok_iff.1 h
  obtain ⟨w₂, ha, h⟩ := bind_eq_ok_iff.1 h
  obtain ⟨w₃, hc, h⟩ := bind_eq_ok_iff.1 h
  obtain ⟨w₄, hd, h⟩ := bind_eq_ok_iff.1 h
  rw [ofWire_eq_ok_iff] at hb hc hd h
  have ⟨hf, hg⟩ := writeAttributes_grows ha
  have ⟨hg', hl⟩ := (Writer.begin_inside hb).close_grows hg hc
  have ⟨hg'', hl'⟩ := Writer.putBlob_grows hd
  have hbody := (hg'.trans hg'').body
  obtain ⟨-, rfl⟩ := Writer.bytes_ok_iff.1 h
  exact ⟨hf, hl, hl', hbody⟩

/-- The entries are read one after another, so that of two with one name the later one counts. -/
theorem Spells.ofBytes {bs body : Bytes} {entries : List (String × Attribute)}
    (h : Spells bs entries body) :
    ofBytes bs = .ok { attributes := .ofList entries, body } := by
  obtain ⟨hf, hl, hl', rfl⟩ := h
  have hbytes : Reader.bytes (Wire.blob .bytes body) = .ok body [] :=
    Reader.alone fun rest => Reader.blob_append rest hl'
  have hmap : Reader.map (Wire.blob .map (Item.encodeEntries (toEntries entries)) ++
      Wire.blob .bytes body) = .ok _ (Wire.blob .bytes body) := Reader.blob_append _ hl
  -- The section and the body follow each other and leave no byte over.
  refine run_exactly_of_ok ?_
  rw [read, lift_bind hmap, ofExcept_bind (entries_encode _ hf), lift_bind hbytes]
  rfl

/-- A flattened envelope is read back as it was. -/
theorem ofBytes_toBytes {e : Envelope} {bs : Bytes} (h : e.toBytes = .ok bs) :
    ofBytes bs = .ok e := by
  rw [(spells_of_toBytes h).ofBytes, ofList_toList]

end Envelope

open Envelope (u64_ok_iff str_ok_iff body_set)

/-! ## What servers say -/

namespace ServerMessage

/-- The item that the outcome of a call is written as. -/
def resultItem : Except Failure WireValue → Item
  | .ok v => .ok v.toItem
  | .error f => .err f.toItem

/-- A result that is a value is written between the opening and the end of an `ok`. -/
theorem writeResult_eq_ok_iff {v : WireValue} {w w' : Writer} :
    writeResult (.ok v) w = .ok w' ↔
      ∃ w₁ w₂, w.okBegin = .ok w₁ ∧ v.write w₁ = .ok w₂ ∧ w₂.resultEnd = .ok w' := by
  simp [writeResult, bind_eq_ok_iff, ofWire_eq_ok_iff]

/-- A result that is a failure is written between the opening and the end of an `err`. -/
theorem writeResult_error_ok_iff {f : Failure} {w w' : Writer} :
    writeResult (.error f) w = .ok w' ↔
      ∃ w₁ w₂, w.errBegin = .ok w₁ ∧ f.write w₁ = .ok w₂ ∧ w₂.resultEnd = .ok w' := by
  simp [writeResult, bind_eq_ok_iff, ofWire_eq_ok_iff]

/-- An outcome that was written is one item, which is read as that outcome. -/
private theorem writeResult_ok {result : Except Failure WireValue} {w : Writer} {body : Bytes}
    (h : writeResult result {} = .ok w) (hb : w.bytes = .ok body) :
    body = (resultItem result).encode ∧ readResult body = .ok result [] := by
  rw [Writer.bytes_ok_iff] at hb
  obtain ⟨-, rfl⟩ := hb
  -- Both sides are the same but for the tag and what is written inside.
  cases result with
  | ok v =>
    obtain ⟨w₁, w₂, ho, hv, hc⟩ := writeResult_eq_ok_iff.1 h
    have ⟨hd, hf, hg⟩ := Value.writeWithin_grows v _ hv
    have ⟨hg', hl⟩ := (Writer.begin_inside ho).close_grows hg hc
    have hbody : w.top.body = Wire.blob .resultOk v.toItem.encode := hg'.body
    have hresult : Reader.result (Wire.blob .resultOk v.toItem.encode) =
        .ok (.ok v.toItem.encode) [] := Reader.alone fun rest => Reader.result_ok_append rest hl
    -- The value fills the result, so reading it leaves nothing over.
    have hread := Reader.alone (Value.read_of_write hv)
    refine ⟨hbody, ?_⟩
    rw [hbody, readResult, lift_bind hresult]
    exact ofExcept_bind (run_exactly_of_ok hread)
  | error f =>
    obtain ⟨w₁, w₂, ho, hv, hc⟩ := writeResult_error_ok_iff.1 h
    have ⟨hf, hg⟩ := Failure.write_grows hv
    have ⟨hg', hl⟩ := (Writer.begin_inside ho).close_grows hg hc
    have hbody : w.top.body = Wire.blob .resultErr f.toItem.encode := hg'.body
    have hresult : Reader.result (Wire.blob .resultErr f.toItem.encode) =
        .ok (.error f.toItem.encode) [] := Reader.alone fun rest => Reader.result_err_append rest hl
    have hread := Reader.alone (Failure.read_of_write hv)
    refine ⟨hbody, ?_⟩
    rw [hbody, readResult, lift_bind hresult]
    exact ofExcept_bind (run_exactly_of_ok hread)

/-- The item that stands for a notification in the body of its variant. -/
def eventItem : Notification WireValue → Item
  | .next v => v.toItem
  | .error f => f.toItem
  | .completed => .unit

/-- Writes what stands in the body of the variant of an event. -/
def writeInside : Notification WireValue → Writer → Except CodecError Writer
  | .next v, w => v.write w
  | .error f, w => f.write w
  | .completed, w => ofWire w.unit

/-- An event is written between the opening and the end of its variant. -/
theorem writeEvent_ok_iff {event : Notification WireValue} {w w' : Writer} :
    writeEvent event w = .ok w' ↔
      ∃ w₁ w₂, w.variantBegin event.kind = .ok w₁ ∧ writeInside event w₁ = .ok w₂ ∧
        w₂.variantEnd = .ok w' := by
  cases event <;> simp [writeEvent, writeInside, bind_eq_ok_iff, ofWire_eq_ok_iff]

/-- The inside of an event that was written is read as that event. -/
theorem readEventNamed_encode {event : Notification WireValue} {w w' : Writer}
    (h : writeInside event w = .ok w') :
    w.Grows (eventItem event).encode 1 w' ∧
      readEventNamed event.kind (eventItem event).encode = .ok event [] := by
  -- The kind chosen when writing is the name that decides how it is read.
  cases event with
  | next v =>
    refine ⟨(Value.writeWithin_grows v _ h).2.2, ?_⟩
    exact bind_of_ok (Reader.alone (Value.read_of_write h))
  | error f =>
    refine ⟨(Failure.write_grows h).2, ?_⟩
    exact bind_of_ok (Reader.alone (Failure.read_of_write h))
  | completed =>
    rw [writeInside, ofWire_eq_ok_iff] at h
    exact ⟨Writer.put_grows h, lift_bind (Reader.tag_cons .unit [])⟩

/-- An event that was written is read as that event. -/
private theorem readEvent_of_write {event : Notification WireValue} {w : Writer} {body : Bytes}
    (h : writeEvent event {} = .ok w) (hb : w.bytes = .ok body) :
    readEvent body = .ok event [] := by
  rw [Writer.bytes_ok_iff] at hb
  obtain ⟨-, rfl⟩ := hb
  obtain ⟨w₁, w₂, ho, hv, hc⟩ := writeEvent_ok_iff.1 h
  have ⟨hi, hn⟩ := Writer.variantBegin_inside ho
  have ⟨hg, hread⟩ := readEventNamed_encode hv
  have ⟨hg', hl⟩ := hi.close_grows hg hc
  have hbody := hg'.body
  have hvariant := Reader.alone fun rest => Reader.variant_append rest hn hl
  rw [hbody]
  refine (lift_bind hvariant).trans ?_
  simp only [Decoder.ofExcept, run_exactly_of_ok hread]

/-- An answer is in its attributes, but for the outcome of the call. -/
theorem ofEnvelope_of_replyTag {e : Envelope} {id : UInt64}
    (htag : e.u64 Attribute.tagName = .ok replyTag)
    (hid : e.u64 Attribute.callName = .ok id) :
    ofEnvelope e = reply ⟨id⟩ <$> readResult.exactly.run e.body := by
  simp only [ofEnvelope, htag, hid, bind, Except.bind, if_true]
  cases readResult.exactly.run e.body <;> rfl

/-- An observation is in its attributes, but for the event. -/
theorem ofEnvelope_of_observationTag {e : Envelope} {id : UInt64}
    (htag : e.u64 Attribute.tagName = .ok observationTag)
    (hid : e.u64 Attribute.streamName = .ok id) :
    ofEnvelope e = observation ⟨id⟩ <$> readEvent.exactly.run e.body := by
  have hne : observationTag ≠ replyTag := by decide
  simp only [ofEnvelope, htag, hid, bind, Except.bind, hne, if_true, if_false]
  cases readEvent.exactly.run e.body <;> rfl

/-- What a server says is read as it was written. -/
theorem ofEnvelope_toEnvelope {m : ServerMessage} {e : Envelope} (h : m.toEnvelope = .ok e) :
    ofEnvelope e = .ok m := by
  -- The attributes are found under different names, so that none hides another.
  cases m with
  | reply id result =>
    obtain ⟨w, hw, h⟩ := bind_eq_ok_iff.1 h
    obtain ⟨body, hb, h⟩ := bind_eq_ok_iff.1 h
    rw [ofWire_eq_ok_iff] at hb
    obtain rfl := Except.ok.inj h
    have hread := run_exactly_of_ok (writeResult_ok hw hb).2
    rw [@ofEnvelope_of_replyTag _ id.val
        (u64_ok_iff.2 (by simp [Attribute.tagName, Attribute.callName]))
        (u64_ok_iff.2 (by simp)), body_set, body_set, hread]
    rfl
  | observation id event =>
    obtain ⟨w, hw, h⟩ := bind_eq_ok_iff.1 h
    obtain ⟨body, hb, h⟩ := bind_eq_ok_iff.1 h
    rw [ofWire_eq_ok_iff] at hb
    obtain rfl := Except.ok.inj h
    have hread := run_exactly_of_ok (readEvent_of_write hw hb)
    rw [@ofEnvelope_of_observationTag _ id.val
        (u64_ok_iff.2 (by simp [Attribute.tagName, Attribute.streamName]))
        (u64_ok_iff.2 (by simp)), body_set, body_set, hread]
    rfl

/-- Whether every length in the answer with this value fits its prefix. -/
def ReplyFits (v : WireValue) : Prop :=
  (Item.ok v.toItem).Fits

/-- A value that went into an answer is not too deep, and its lengths fit. -/
theorem fits_of_reply {id : CallId} {v : WireValue} {e : Envelope}
    (h : (reply id (.ok v)).toEnvelope = .ok e) : v.depth ≤ maxDepth ∧ ReplyFits v := by
  obtain ⟨w, hw, -⟩ := bind_eq_ok_iff.1 h
  obtain ⟨w₁, w₂, ho, hv, hc⟩ := writeResult_eq_ok_iff.1 hw
  have ⟨hd, hf, hg⟩ := Value.writeWithin_grows v _ hv
  have ⟨_, hl⟩ := (Writer.begin_inside ho).close_grows hg hc
  exact ⟨Nat.le_of_lt_succ hd, hl, hf⟩

end ServerMessage

/-! ## What clients say -/

namespace ClientMessage

/-- Stream numbers are written as numbers, one after another. -/
theorem writeIds_grows {ids : List StreamId} {w w' : Writer} (h : writeIds ids w = .ok w') :
    w.Grows (Item.encodeAll (ids.map fun id => .u64 id.val)) ids.length w' := by
  induction ids generalizing w with
  | nil =>
    obtain rfl := Except.ok.inj (by simpa only [writeIds] using h)
    exact Writer.Grows.refl _
  | cons id ids ih =>
    rw [writeIds] at h
    obtain ⟨w₁, hi, h⟩ := bind_eq_ok_iff.1 h
    rw [ofWire_eq_ok_iff] at hi
    -- One item for the first id, and one for each of the others.
    rw [List.length_cons, Nat.add_comm]
    exact (Writer.put_grows hi).trans (ih h)

/-- A list of ids is read back from its encoding. -/
private theorem items_ids (ids : List StreamId) :
    Decoder.items (Decoder.ofReader Reader.u64) (Item.encodeAll (ids.map fun id => .u64 id.val)) =
      .ok (ids.map (·.val)) := by
  induction ids with
  | nil => exact Decoder.items_nil _
  | cons id ids ih =>
    have hread := Reader.alone (Reader.wide_append .u64 id.val)
    exact Decoder.items_cons (i := .u64 id.val) trivial (run_of_ok (Decoder.lift_ok hread)) ih

/-- A list of stream numbers that was written is read as that list. -/
private theorem readIds_of_write {ids : List StreamId} {w₁ w₂ w₃ : Writer} {body : Bytes}
    (ho : Writer.listBegin {} = .ok w₁) (hi : writeIds ids w₁ = .ok w₂)
    (hc : w₂.listEnd = .ok w₃) (hb : w₃.bytes = .ok body) : readIds body = .ok ids [] := by
  rw [Writer.bytes_ok_iff] at hb
  obtain ⟨-, rfl⟩ := hb
  have ⟨hg, hl⟩ := (Writer.begin_inside ho).close_grows (writeIds_grows hi) hc
  have hbody := hg.body
  have hlist := Reader.alone fun rest => Reader.blob_append (t := .list) rest hl
  rw [hbody]
  refine (lift_bind (r := Reader.list) hlist).trans ((ofExcept_bind (items_ids ids)).trans ?_)
  -- The ids are written as numbers and wrapped again when they are read.
  have hids : (ids.map (·.val)).map StreamId.mk = ids := by
    rw [List.map_map]
    exact List.map_id ids
  rw [hids]
  rfl

/-- A request is in its attributes, but for the arguments. -/
theorem ofEnvelope_of_requestTag {e : Envelope} {id : UInt64} {method replyTo : String}
    (htag : e.u64 Attribute.tagName = .ok requestTag)
    (hreplyTo : e.str Attribute.replyToName = .ok replyTo)
    (hid : e.u64 Attribute.callName = .ok id) (hmethod : e.str Attribute.methodName = .ok method) :
    ofEnvelope e =
      (fun args => request { replyTo, id := ⟨id⟩, method, args }) <$>
        Value.readList.exactly.run e.body := by
  simp only [ofEnvelope, htag, hreplyTo, hid, hmethod, bind, Except.bind, if_true]
  cases Value.readList.exactly.run e.body <;> rfl

/-- A close message is in its body. -/
theorem ofEnvelope_of_closedTag {e : Envelope}
    (htag : e.u64 Attribute.tagName = .ok closedTag) :
    ofEnvelope e = closed <$> readIds.exactly.run e.body := by
  have hne : closedTag ≠ requestTag := by decide
  simp only [ofEnvelope, htag, bind, Except.bind, hne, if_true, if_false]
  cases readIds.exactly.run e.body <;> rfl

/-- What a client says is read as it was written. -/
theorem ofEnvelope_toEnvelope {m : ClientMessage} {e : Envelope} (h : m.toEnvelope = .ok e) :
    ofEnvelope e = .ok m := by
  cases m with
  | request r =>
    obtain ⟨w, hw, h⟩ := bind_eq_ok_iff.1 h
    obtain ⟨body, hb, h⟩ := bind_eq_ok_iff.1 h
    rw [ofWire_eq_ok_iff, Writer.bytes_ok_iff] at hb
    obtain rfl := Except.ok.inj h
    obtain ⟨-, rfl⟩ := hb
    have ⟨hg, hread⟩ := Value.writeList_grows hw
    have hargs : Value.readList w.top.body = .ok r.args [] := by
      rw [hg.body]
      exact Reader.alone hread
    -- The attributes have four different names, so each is found where it was set.
    rw [@ofEnvelope_of_requestTag _ r.id.val r.method r.replyTo
        (u64_ok_iff.2 (by simp [Attribute.tagName, Attribute.callName, Attribute.methodName,
          Attribute.replyToName]))
        (str_ok_iff.2 (by simp))
        (u64_ok_iff.2 (by simp [Attribute.callName, Attribute.methodName, Attribute.replyToName]))
        (str_ok_iff.2 (by simp [Attribute.methodName, Attribute.replyToName]))]
    rw [body_set, body_set, body_set, body_set, run_exactly_of_ok hargs]
    rfl
  | closed ids =>
    obtain ⟨w₁, ho, h⟩ := bind_eq_ok_iff.1 h
    obtain ⟨w₂, hi, h⟩ := bind_eq_ok_iff.1 h
    obtain ⟨w₃, hc, h⟩ := bind_eq_ok_iff.1 h
    obtain ⟨body, hb, h⟩ := bind_eq_ok_iff.1 h
    rw [ofWire_eq_ok_iff] at ho hc hb
    obtain rfl := Except.ok.inj h
    -- This message has one attribute, and the ids are its whole body.
    have hread := run_exactly_of_ok (readIds_of_write ho hi hc hb)
    rw [ofEnvelope_of_closedTag (u64_ok_iff.2 (by simp)), body_set, hread]
    rfl

end ClientMessage

end StreamRpc
