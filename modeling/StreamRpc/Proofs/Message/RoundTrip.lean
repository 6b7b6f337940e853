import StreamRpc.Proofs.Message.Canonical

/-! # Messages survive the wire

An envelope whose lengths fit can be flattened, and a message that went into it comes out of its
bytes again.  What has to fit is the body and the section of the attributes, whose length depends
on the texts of the message alone.

* `Envelope.toBytes_of_fits`   what fits can be flattened
* `ClientMessage.fits`, `ServerMessage.fits`
                               when the envelope of a message fits
* `messages_survive_wire`      what was sent is received
-/

namespace StreamRpc

open Wire (Bytes Reader Writer WireError Item)

namespace Envelope

/-! ## Flattening -/

/-- Every length in the flattened envelope can say what it has to. -/
structure Fits (e : Envelope) : Prop where
  entries : Item.EntriesFit (toEntries e.attributes.toList)
  attributes : (Item.encodeEntries (toEntries e.attributes.toList)).length < Wire.blobLimit
  body : e.body.length < Wire.blobLimit

/-- An attribute that fits is written wherever the writer accepts an item. -/
private theorem writeAttribute_ok {a : Attribute} {w : Writer} (hw : w.Accepts)
    (hf : a.toItem.Fits) :
    ∃ w', Attribute.write a w = .ok w' := by
  cases a with
  | u64 n => exact Value.ofWire_ok (Writer.put_ok hw _ _)
  | str s => exact Value.ofWire_ok (Writer.putBlob_ok hw _ hf)

/-- Attributes whose lengths fit can be written into an open map. -/
private theorem writeAttributes_ok {as : List (String × Attribute)} {w : Writer}
    (hw : w.top.scope = .map) (hf : Item.EntriesFit (toEntries as)) :
    ∃ w', writeAttributes as w = .ok w' := by
  induction as generalizing w with
  | nil => exact ⟨w, rfl⟩
  | cons entry as ih =>
    obtain ⟨name, a⟩ := entry
    obtain ⟨⟨hn, hl, ha⟩, hfs⟩ := hf
    obtain ⟨w₁, hb⟩ := Writer.variantBegin_ok (Writer.refuses_variant_of_map hw) hn
    have hi := (Writer.variantBegin_inside hb).1
    obtain ⟨w₂, hw₂⟩ := writeAttribute_ok (hi.accepts (by decide)) ha
    have hg := (writeAttribute_grows hw₂).2
    obtain ⟨w₃, hc⟩ := hi.close_ok hg (by simp) hl
    -- The map is in the same scope again after the entry, and the others go on from there.
    obtain ⟨w₄, hw₄⟩ := ih ((hi.close_grows hg hc).1.scope.trans hw) hfs
    refine ⟨w₄, bind_eq_ok_iff.2 ⟨w₁, ofWire_eq_ok_iff.2 hb, ?_⟩⟩
    exact bind_eq_ok_iff.2 ⟨w₂, hw₂, bind_eq_ok_iff.2 ⟨w₃, ofWire_eq_ok_iff.2 hc, hw₄⟩⟩

/-- An envelope whose lengths fit can be flattened. -/
theorem toBytes_of_fits {e : Envelope} (hf : e.Fits) : ∃ bs, e.toBytes = .ok bs := by
  obtain ⟨w₁, hb⟩ := Writer.begin_ok (w := {}) (t := .map) rfl .map
  have hi := Writer.begin_inside hb
  obtain ⟨w₂, ha⟩ := writeAttributes_ok (w := w₁) hi.scope hf.entries
  have hg := (writeAttributes_grows ha).2
  obtain ⟨w₃, hc⟩ := hi.close_ok hg (by simp [Wire.Scope.single]) hf.attributes
  have hg₃ := (hi.close_grows hg hc).1
  -- Outside of all containers the body is taken like any other item.
  have hroot : w₃.Accepts := by
    constructor <;> simp [hg₃.scope, Wire.Scope.single]
  obtain ⟨w₄, hd⟩ := Writer.putBlob_ok hroot .bytes hf.body
  have hbytes := Writer.bytes_ok_iff.2 ⟨(hg₃.trans (Writer.putBlob_grows hd).1).outer, rfl⟩
  refine ⟨w₄.top.body, bind_eq_ok_iff.2 ⟨w₁, ofWire_eq_ok_iff.2 hb, ?_⟩⟩
  refine bind_eq_ok_iff.2 ⟨w₂, ha, bind_eq_ok_iff.2 ⟨w₃, ofWire_eq_ok_iff.2 hc, ?_⟩⟩
  exact bind_eq_ok_iff.2 ⟨w₄, ofWire_eq_ok_iff.2 hd, ofWire_eq_ok_iff.2 hbytes⟩

/-! ## The section of the attributes -/

/-- How long an attribute is in the flattened envelope: the prefix of the entry, that of its name
    and the name, and the value. -/
def entryLength (name : String) (a : Attribute) : Nat :=
  10 + (Wire.utf8 name).length + a.toItem.encode.length

/-- The length of a number's entry. -/
private theorem entryLength_u64 (name : String) (n : UInt64) :
    entryLength name (.u64 n) = 19 + (Wire.utf8 name).length := by
  simp only [entryLength, Attribute.toItem, Item.encode, Wire.wide, List.length_cons,
    Wire.Word.length_digits]
  omega

/-- The length of a text's entry. -/
private theorem entryLength_str (name s : String) :
    entryLength name (.str s) = 15 + (Wire.utf8 name).length + (Wire.utf8 s).length := by
  simp only [entryLength, Attribute.toItem, Item.encode, Wire.blob, List.length_cons,
    List.length_append, Wire.Word.length_digits]
  omega

/-- The section of the attributes has this length, and the lengths in it fit if this one does. -/
def Section (e : Envelope) (n : Nat) : Prop :=
  (Item.encodeEntries (toEntries e.attributes.toList)).length = n ∧
    (n < Wire.blobLimit → Item.EntriesFit (toEntries e.attributes.toList))

/-- The order of the entries does not change the length of their encoding. -/
private theorem length_encodeEntries_perm {as as' : List (String × Attribute)} (h : as.Perm as') :
    (Item.encodeEntries (toEntries as)).length = (Item.encodeEntries (toEntries as')).length := by
  induction h with
  | nil => rfl
  | cons x _ ih => simpa [toEntries, Item.encodeEntries] using ih
  | swap x y l =>
    simp only [toEntries, List.map_cons, Item.encodeEntries, List.length_append]
    omega
  | trans _ _ ih₁ ih₂ => exact ih₁.trans ih₂

/-- The order of the entries does not change whether they fit. -/
private theorem entriesFit_perm {as as' : List (String × Attribute)} (h : as.Perm as') :
    Item.EntriesFit (toEntries as) → Item.EntriesFit (toEntries as') := by
  induction h with
  | nil => exact id
  | cons x _ ih => exact fun hf => ⟨hf.1, ih hf.2⟩
  | swap x y l => exact fun hf => ⟨hf.2.1, hf.1, hf.2.2⟩
  | trans _ _ ih₁ ih₂ => exact ih₂ ∘ ih₁

/-- A new attribute is one more entry. -/
private theorem toList_set {e : Envelope} {name : String} (hnew : e.attribute? name = none)
    (a : Attribute) : ((name, a) :: e.attributes.toList).Perm (e.set name a).attributes.toList := by
  have hnodup : ∀ m : Std.ExtTreeMap String Attribute, m.toList.Nodup := fun m =>
    m.distinct_keys_toList.imp fun hne heq => hne (by rw [heq]; exact Std.ReflCmp.compare_self)
  have hfresh : (name, a) ∉ e.attributes.toList := by
    rw [Std.ExtTreeMap.mem_toList_iff_getElem?_eq_some]
    intro hsome
    rw [attribute?, hsome] at hnew
    cases hnew
  -- Both lists name everything once, so it is enough that they have the same members.
  refine (List.perm_ext_iff_of_nodup (List.nodup_cons.2 ⟨hfresh, hnodup _⟩) (hnodup _)).2 ?_
  intro x
  obtain ⟨other, b⟩ := x
  rw [List.mem_cons, Std.ExtTreeMap.mem_toList_iff_getElem?_eq_some,
    Std.ExtTreeMap.mem_toList_iff_getElem?_eq_some, set, Std.ExtTreeMap.getElem?_insert]
  simp only [Std.LawfulEqCmp.compare_eq_iff_eq, Prod.mk.injEq]
  rw [attribute?] at hnew
  by_cases ho : name = other
  · subst ho
    simp [hnew, eq_comm]
  · simp [ho, Ne.symm ho]

/-- An envelope that is only a body has no attributes. -/
@[simp] theorem attribute_body (body : Bytes) (name : String) :
    ({ body } : Envelope).attribute? name = none := by
  simp [attribute?]

/-- An envelope that is only a body has an empty attribute section. -/
private theorem section_body (body : Bytes) : Section { body } 0 :=
  ⟨rfl, fun _ => trivial⟩

/-- The lengths in an attribute fit if the attribute does. -/
private theorem entryFits {name : String} {a : Attribute}
    (h : entryLength name a < Wire.blobLimit) :
    (Item.variant name a.toItem).Fits := by
  -- The bound is on the whole entry, which is longer than what is in it.
  cases a with
  | u64 n =>
    rw [entryLength_u64] at h
    refine ⟨by omega, ?_, trivial⟩
    simp only [Attribute.toItem, Item.encode, Wire.blob, Wire.wide, List.length_append,
      List.length_cons, Wire.Word.length_digits]
    omega
  | str s =>
    rw [entryLength_str] at h
    have hs : (Wire.utf8 s).length < Wire.blobLimit := by omega
    refine ⟨by omega, ?_, hs⟩
    simp only [Attribute.toItem, Item.encode, Wire.blob, List.length_append, List.length_cons,
      Wire.Word.length_digits]
    omega

/-- A new attribute makes the section longer by its own length. -/
private theorem Section.set {e : Envelope} {n : Nat} (h : e.Section n) (name : String)
    (hnew : e.attribute? name = none) (a : Attribute) :
    (e.set name a).Section (n + entryLength name a) := by
  -- The map sorts by name, so the new entry may stand anywhere; lengths do not mind.
  have hperm := toList_set hnew a
  constructor
  · rw [← length_encodeEntries_perm hperm, ← h.1]
    simp only [toEntries, List.map_cons, Item.encodeEntries, List.length_append, Wire.blob,
      List.length_cons, Wire.Word.length_digits, entryLength]
    omega
  · intro hn
    refine entriesFit_perm hperm ⟨entryFits ?_, h.2 ?_⟩ <;> omega

/-- An envelope fits when its section and its body are below the limit of a blob. -/
private theorem Section.fits {e : Envelope} {n : Nat} (h : e.Section n) (hn : n < Wire.blobLimit)
    (hbody : e.body.length < Wire.blobLimit) : e.Fits :=
  ⟨h.2 hn, by rw [h.1]; exact hn, hbody⟩

end Envelope

open Envelope (section_body entryLength_u64 entryLength_str)

/-! ## Envelopes of messages -/

namespace ClientMessage

/-- How long the attributes of a message are when they are flattened. -/
def attributesLength : ClientMessage → Nat
  | request r => 96 + (Wire.utf8 r.method).length + (Wire.utf8 r.replyTo).length
  | closed _ => 22

/-- The envelope of a message fits if its body and its attributes do. -/
theorem fits {m : ClientMessage} {e : Envelope} (h : m.toEnvelope = .ok e)
    (ha : m.attributesLength < Wire.blobLimit) (hb : e.body.length < Wire.blobLimit) : e.Fits := by
  cases m with
  | request r =>
    obtain ⟨w, -, h⟩ := bind_eq_ok_iff.1 h
    obtain ⟨body, -, h⟩ := bind_eq_ok_iff.1 h
    obtain rfl := Except.ok.inj h
    -- Each attribute set is a new one, so the lengths add up.
    have htag := (section_body body).set Attribute.tagName (by simp) (.u64 requestTag)
    have hcall := htag.set Attribute.callName
      (by simp [Attribute.tagName, Attribute.callName]) (.u64 r.id.val)
    have hmethod := hcall.set Attribute.methodName
      (by simp [Attribute.tagName, Attribute.callName, Attribute.methodName]) (.str r.method)
    have hreplyTo := hmethod.set Attribute.replyToName
      (by simp [Attribute.tagName, Attribute.callName, Attribute.methodName,
        Attribute.replyToName]) (.str r.replyTo)
    refine hreplyTo.fits (Nat.lt_of_le_of_lt (Nat.le_of_eq ?_) ha) hb
    -- The names are fixed; only the method and the address can be long.
    have h₁ : (Wire.utf8 Attribute.tagName).length = 3 := by decide
    have h₂ : (Wire.utf8 Attribute.callName).length = 6 := by decide
    have h₃ : (Wire.utf8 Attribute.methodName).length = 11 := by decide
    have h₄ : (Wire.utf8 Attribute.replyToName).length = 8 := by decide
    rw [attributesLength, entryLength_u64, entryLength_u64, entryLength_str, entryLength_str, h₁,
      h₂, h₃, h₄]
    omega
  | closed ids =>
    obtain ⟨w₁, -, h⟩ := bind_eq_ok_iff.1 h
    obtain ⟨w₂, -, h⟩ := bind_eq_ok_iff.1 h
    obtain ⟨w₃, -, h⟩ := bind_eq_ok_iff.1 h
    obtain ⟨body, -, h⟩ := bind_eq_ok_iff.1 h
    obtain rfl := Except.ok.inj h
    have htag := (section_body body).set Attribute.tagName (by simp) (.u64 closedTag)
    refine htag.fits (Nat.lt_of_le_of_lt (Nat.le_of_eq ?_) ha) hb
    rw [attributesLength, entryLength_u64]
    decide

end ClientMessage

namespace ServerMessage

/-- The envelope of a message fits if its body does: its attributes are numbers. -/
theorem fits {m : ServerMessage} {e : Envelope} (h : m.toEnvelope = .ok e)
    (hb : e.body.length < Wire.blobLimit) : e.Fits := by
  cases m with
  | reply id result =>
    obtain ⟨w, -, h⟩ := bind_eq_ok_iff.1 h
    obtain ⟨body, -, h⟩ := bind_eq_ok_iff.1 h
    obtain rfl := Except.ok.inj h
    -- The attributes of these messages have a fixed length.
    have htag := (section_body body).set Attribute.tagName (by simp) (.u64 replyTag)
    have hcall := htag.set Attribute.callName
      (by simp [Attribute.tagName, Attribute.callName]) (.u64 id.val)
    refine hcall.fits ?_ hb
    rw [entryLength_u64, entryLength_u64]
    decide
  | observation id event =>
    obtain ⟨w, -, h⟩ := bind_eq_ok_iff.1 h
    obtain ⟨body, -, h⟩ := bind_eq_ok_iff.1 h
    obtain rfl := Except.ok.inj h
    have htag := (section_body body).set Attribute.tagName (by simp)
      (.u64 observationTag)
    have hstream := htag.set Attribute.streamName
      (by simp [Attribute.tagName, Attribute.streamName]) (.u64 id.val)
    refine hstream.fits ?_ hb
    rw [entryLength_u64, entryLength_u64]
    decide

end ServerMessage

/-! ## There and back -/

/-- What fits is read back from its bytes. -/
private theorem Envelope.ofBytes_bind_of_fits {M : Type}
    {ofEnvelope : Envelope → Except CodecError M}
    {e : Envelope} {m : M} (hf : e.Fits) (h : ofEnvelope e = .ok m) :
    ∃ bs, e.toBytes = .ok bs ∧ (ofBytes bs >>= ofEnvelope) = .ok m := by
  obtain ⟨bs, hbs⟩ := toBytes_of_fits hf
  exact ⟨bs, hbs, bind_eq_ok_iff.2 ⟨e, ofBytes_toBytes hbs, h⟩⟩

/-- A message that was put into an envelope is read from it again.  If the lengths fit, the
    envelope can be flattened as well, and the message is read from its bytes. -/
theorem messages_survive_wire :
    (∀ (m : ClientMessage) (e : Envelope), m.toEnvelope = .ok e →
      ClientMessage.ofEnvelope e = .ok m ∧
        (m.attributesLength < Wire.blobLimit → e.body.length < Wire.blobLimit →
          ∃ bs, e.toBytes = .ok bs ∧
            (Envelope.ofBytes bs >>= ClientMessage.ofEnvelope) = .ok m)) ∧
      ∀ (m : ServerMessage) (e : Envelope), m.toEnvelope = .ok e →
        ServerMessage.ofEnvelope e = .ok m ∧
          (e.body.length < Wire.blobLimit →
            ∃ bs, e.toBytes = .ok bs ∧
              (Envelope.ofBytes bs >>= ServerMessage.ofEnvelope) = .ok m) := by
  -- What a client sends may have long attributes; what the server sends cannot.
  constructor
  · intro m e h
    have hread := ClientMessage.ofEnvelope_toEnvelope h
    exact ⟨hread, fun ha hb => Envelope.ofBytes_bind_of_fits (ClientMessage.fits h ha hb) hread⟩
  · intro m e h
    have hread := ServerMessage.ofEnvelope_toEnvelope h
    exact ⟨hread, fun hb => Envelope.ofBytes_bind_of_fits (ServerMessage.fits h hb) hread⟩

/-- A call with nested arguments, and a stream that yields a NaN next to another stream. -/
theorem messages_survive_wire_nested :
    let call : ClientMessage := .request {
      replyTo := "rpc.client.a", id := ⟨0⟩, method := "m"
      args := [.record [("x", .present (.str "é"))], .absent] }
    let event : ServerMessage :=
      .observation ⟨0xFFFFFFFFFFFFFFFF⟩ (.next (.list [.f64 0x7FF8000000000001, .stream ⟨5⟩]))
    (∃ e bs, call.toEnvelope = .ok e ∧ e.toBytes = .ok bs ∧
      (Envelope.ofBytes bs >>= ClientMessage.ofEnvelope) = .ok call) ∧
      ∃ e bs, event.toEnvelope = .ok e ∧ e.toBytes = .ok bs ∧
        (Envelope.ofBytes bs >>= ServerMessage.ofEnvelope) = .ok event := by
  constructor
  -- The text is measured here by itself; the other conditions are decided as they stand.
  · have htext : (Wire.utf8 "é").length < Wire.blobLimit := by decide
    have h := ClientMessage.request_toEnvelope (r := {
      replyTo := "rpc.client.a", id := ⟨0⟩, method := "m"
      args := [.record [("x", .present (.str "é"))], .absent] })
      ⟨by decide, ⟨by decide, ⟨by decide, by decide, by decide, htext⟩, trivial⟩, trivial,
        trivial⟩ (by decide)
    obtain ⟨-, hbytes⟩ := messages_survive_wire.1 _ _ h
    obtain ⟨bs, hbs, hread⟩ := hbytes (by decide) (by decide)
    exact ⟨_, bs, h, hbs, hread⟩
  · have h := ServerMessage.observation_toEnvelope ⟨0xFFFFFFFFFFFFFFFF⟩
      (.next (.list [.f64 0x7FF8000000000001, .stream ⟨5⟩]))
      ⟨by decide, by decide, by decide, trivial, trivial, trivial⟩
      (by rintro v ⟨⟩; decide)
    obtain ⟨-, hbytes⟩ := messages_survive_wire.2 _ _ h
    obtain ⟨bs, hbs, hread⟩ := hbytes (by decide)
    exact ⟨_, bs, h, hbs, hread⟩

end StreamRpc
