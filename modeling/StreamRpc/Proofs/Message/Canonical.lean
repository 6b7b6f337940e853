import StreamRpc.Proofs.Envelope
import StreamRpc.Proofs.Value.Canonical

/-! # Every message has one envelope

A message that can be read from an envelope is written into that very envelope again, as far as
its attributes have to do with the message.  So no two bodies say the same thing, and whatever is
accepted can be passed on.

* `Envelope.restrict`          the attributes that a message uses, and the body
* `ClientMessage.takes_readIds`, `ServerMessage.takes_readResult`, `ServerMessage.takes_readEvent`
                               bodies are read from the item they are written as
* `messages_canonical`         writing undoes reading
-/

namespace StreamRpc

open Wire (Bytes Reader Writer WireError Item)
open Wire.Reader (bind_ok_iff pure_ok_iff)

/-! ## Attributes -/

namespace Envelope

variable {e : Envelope} {name : String}

/-- The envelope with the attributes of these names and no others. -/
def restrict (e : Envelope) (names : List String) : Envelope where
  attributes := e.attributes.filter fun name _ => names.contains name
  body := e.body

/-- A restricted envelope keeps the attributes of the given names and no others. -/
@[simp] theorem attribute_restrict (e : Envelope) (names : List String) (name : String) :
    (e.restrict names).attribute? name = if name ∈ names then e.attribute? name else none := by
  simp only [restrict, attribute?, Std.ExtTreeMap.getElem?_filter', List.contains_eq_mem]
  by_cases h : name ∈ names <;> cases e.attributes[name]? <;> simp [h]

/-- A restriction does not touch the body. -/
@[simp] theorem body_restrict (e : Envelope) (names : List String) :
    (e.restrict names).body = e.body := rfl

/-- Two envelopes are equal when their bodies and all their attributes are. -/
theorem ext_attribute {e e' : Envelope} (hbody : e.body = e'.body)
    (h : ∀ name, e.attribute? name = e'.attribute? name) : e = e' := by
  obtain ⟨as, body⟩ := e
  obtain ⟨as', body'⟩ := e'
  obtain rfl : body = body' := hbody
  obtain rfl : as = as' := Std.ExtTreeMap.ext_getElem? h
  rfl

/-- A restriction to no names leaves the body alone. -/
private theorem restrict_nil (e : Envelope) : e.restrict [] = { body := e.body } :=
  ext_attribute rfl fun name => by
    rw [attribute_restrict]
    simp [attribute?]

/-- Setting an attribute to what it is keeps one more attribute. -/
private theorem set_restrict {a : Attribute} (h : e.attribute? name = some a)
    (names : List String) :
    (e.restrict names).set name a = e.restrict (name :: names) := by
  refine ext_attribute rfl fun other => ?_
  by_cases ho : other = name
  · subst ho
    simp [h]
  · simp [ho, Ne.symm ho]

end Envelope

open Envelope (u64_ok_iff str_ok_iff set_restrict restrict_nil)

/-! ## What clients say -/

namespace ClientMessage

/-- The attributes of a message, the last one set first. -/
def attributeNames : ClientMessage → List String
  | request _ =>
    [Attribute.replyToName, Attribute.methodName, Attribute.callName, Attribute.tagName]
  | closed _ => [Attribute.tagName]

/-- The item that the numbers of a close message are written as. -/
def idsItem (ids : List StreamId) : Item :=
  .list (ids.map fun id => .u64 id.val)

/-- A list of ids is accepted in one form only. -/
theorem takes_readIds : readIds.Takes idsItem (fun _ => True) := by
  intro bs rest ids h
  obtain ⟨body, mid, hr, h⟩ := bind_ok_iff.1 h
  obtain ⟨ns, mid', hi, h⟩ := bind_ok_iff.1 h
  obtain ⟨rfl, rfl⟩ := pure_ok_iff.1 h
  obtain ⟨hbs, hl⟩ := Reader.blob_ok (Decoder.lift_ok_iff.1 hr)
  obtain ⟨hns, rfl⟩ := Decoder.ofExcept_ok_iff.1 hi
  have htakes : (Decoder.ofReader Reader.u64).Takes Item.u64 (fun _ => True) := fun _ _ _ h =>
    ⟨Reader.wide_ok (Decoder.lift_ok_iff.1 h), trivial, trivial⟩
  -- The ids are read one by one until the list is used up, so they account for all of its bytes.
  obtain ⟨rfl, hfit, -⟩ := Decoder.items_ok htakes hns
  have hids : (ns.map StreamId.mk).map (fun id => Item.u64 id.val) = ns.map Item.u64 := by
    rw [List.map_map]
    rfl
  rw [← hids] at hbs hl hfit
  exact ⟨hbs, ⟨hl, hfit⟩, trivial⟩

/-- Stream numbers can be written into an open list. -/
private theorem writeIds_ok (ids : List StreamId) {w : Writer} (hw : w.top.scope = .list) :
    ∃ w', writeIds ids w = .ok w' := by
  induction ids generalizing w with
  | nil => exact ⟨w, rfl⟩
  | cons id ids ih =>
    obtain ⟨w₁, hw₁⟩ := Writer.put_ok (Writer.accepts_of_list hw) .u64 (Wire.wide .u64 id.val.toNat)
    obtain ⟨w₂, hw₂⟩ := ih ((Writer.put_grows hw₁).scope.trans hw)
    exact ⟨w₂, bind_eq_ok_iff.2 ⟨w₁, ofWire_eq_ok_iff.2 hw₁, hw₂⟩⟩

/-- Stream numbers whose lengths fit are written as their item. -/
private theorem closed_toEnvelope {ids : List StreamId} (hf : (idsItem ids).Fits) :
    (closed ids).toEnvelope =
      .ok (({ body := (idsItem ids).encode } : Envelope).set Attribute.tagName
        (.u64 closedTag)) := by
  obtain ⟨w₁, hb⟩ := Writer.begin_ok (w := {}) (t := .list) rfl .list
  -- The list is begun, filled and ended, and no writer refuses what fits.
  have hi := Writer.begin_inside hb
  obtain ⟨w₂, hids⟩ := writeIds_ok ids (w := w₁) hi.scope
  have hg := writeIds_grows hids
  obtain ⟨w₃, hc⟩ := hi.close_ok hg (by simp [Wire.Scope.single]) hf.1
  have hbytes := Writer.bytes_of_grows (hi.close_grows hg hc).1
  refine bind_eq_ok_iff.2 ⟨w₁, ofWire_eq_ok_iff.2 hb, ?_⟩
  refine bind_eq_ok_iff.2 ⟨w₂, hids, bind_eq_ok_iff.2 ⟨w₃, ofWire_eq_ok_iff.2 hc, ?_⟩⟩
  exact bind_eq_ok_iff.2 ⟨_, ofWire_eq_ok_iff.2 hbytes, rfl⟩

/-- A request whose lengths fit and that is not too deep is written as its arguments. -/
theorem request_toEnvelope {r : Request} (hf : (Item.list (Value.toItems r.args)).Fits)
    (hdepth : Value.depthOfItems r.args ≤ maxDepth) :
    (request r).toEnvelope =
      .ok ((((({ body := (Item.list (Value.toItems r.args)).encode } : Envelope).set
        Attribute.tagName (.u64 requestTag)).set Attribute.callName (.u64 r.id.val)).set
        Attribute.methodName (.str r.method)).set Attribute.replyToName (.str r.replyTo)) := by
  obtain ⟨w, hw, hg⟩ := (Value.writeList_of_fits Writer.accepts_empty hf).1 hdepth
  have hbytes := Writer.bytes_of_grows hg
  exact bind_eq_ok_iff.2 ⟨w, hw, bind_eq_ok_iff.2 ⟨_, ofWire_eq_ok_iff.2 hbytes, rfl⟩⟩

/-- What the parts of an envelope are read as if it is a client's message. -/
theorem ofEnvelope_ok {e : Envelope} {m : ClientMessage} (h : ofEnvelope e = .ok m) :
    (∃ r : Request, e.u64 Attribute.tagName = .ok requestTag ∧
      e.str Attribute.replyToName = .ok r.replyTo ∧ e.u64 Attribute.callName = .ok r.id.val ∧
      e.str Attribute.methodName = .ok r.method ∧
      Value.readList.exactly.run e.body = .ok r.args ∧ m = request r) ∨
    ∃ ids, e.u64 Attribute.tagName = .ok closedTag ∧ readIds.exactly.run e.body = .ok ids ∧
      m = closed ids := by
  obtain ⟨tag, htag, h⟩ := bind_eq_ok_iff.1 h
  -- The tag decides which attributes are asked for, and in which order.
  split at h
  · next hrequest =>
    subst hrequest
    obtain ⟨replyTo, hreplyTo, h⟩ := bind_eq_ok_iff.1 h
    obtain ⟨id, hid, h⟩ := bind_eq_ok_iff.1 h
    obtain ⟨method, hmethod, h⟩ := bind_eq_ok_iff.1 h
    obtain ⟨args, hargs, h⟩ := bind_eq_ok_iff.1 h
    exact .inl ⟨_, htag, hreplyTo, hid, hmethod, hargs, (Except.ok.inj h).symm⟩
  · split at h
    · next _ hclosed =>
      subst hclosed
      obtain ⟨ids, hids, h⟩ := bind_eq_ok_iff.1 h
      exact .inr ⟨ids, htag, hids, (Except.ok.inj h).symm⟩
    · cases h

/-- A client's message is written into the envelope it was read from. -/
theorem toEnvelope_of_ofEnvelope {e : Envelope} {m : ClientMessage} (h : ofEnvelope e = .ok m) :
    m.toEnvelope = .ok (e.restrict m.attributeNames) := by
  rcases ofEnvelope_ok h with ⟨r, htag, hreplyTo, hid, hmethod, hargs, rfl⟩ |
    ⟨ids, htag, hids, rfl⟩
  · obtain ⟨hbody, hf, hdepth⟩ := Value.takes_readList.run_exactly hargs
    -- Setting an attribute to the value it has only adds its name to the restriction.
    rw [request_toEnvelope hf hdepth, ← hbody, attributeNames,
      ← set_restrict (str_ok_iff.1 hreplyTo), ← set_restrict (str_ok_iff.1 hmethod),
      ← set_restrict (u64_ok_iff.1 hid), ← set_restrict (u64_ok_iff.1 htag), restrict_nil]
  · obtain ⟨hbody, hf, -⟩ := takes_readIds.run_exactly hids
    rw [closed_toEnvelope hf, ← hbody, attributeNames, ← set_restrict (u64_ok_iff.1 htag),
      restrict_nil]

end ClientMessage

/-! ## What servers say -/

namespace ServerMessage

/-- The attributes of a message, the last one set first. -/
def attributeNames : ServerMessage → List String
  | reply _ _ => [Attribute.callName, Attribute.tagName]
  | observation _ _ => [Attribute.streamName, Attribute.tagName]

/-- A result is accepted in one form only, with its value nested no deeper than allowed. -/
theorem takes_readResult :
    readResult.Takes resultItem (fun r => ∀ v, r = .ok v → v.depth ≤ maxDepth) := by
  intro bs rest result h
  obtain ⟨side, mid, hr, h⟩ := bind_ok_iff.1 h
  -- The tag says which side it is; the value or the failure has to fill what is inside.
  rcases Reader.result_ok (Decoder.lift_ok_iff.1 hr) with
    ⟨body, rfl, hbs, hl⟩ | ⟨body, rfl, hbs, hl⟩
  · obtain ⟨v, mid', hv, h⟩ := bind_ok_iff.1 h
    obtain ⟨rfl, rfl⟩ := pure_ok_iff.1 h
    obtain ⟨hrun, rfl⟩ := Decoder.ofExcept_ok_iff.1 hv
    obtain ⟨rfl, hf, hdepth⟩ := (Value.takes_readWithin _).run_exactly hrun
    exact ⟨hbs, ⟨hl, hf⟩, fun u hu => Except.ok.inj hu ▸ Nat.le_of_lt_succ hdepth⟩
  · obtain ⟨f, mid', hf, h⟩ := bind_ok_iff.1 h
    obtain ⟨rfl, rfl⟩ := pure_ok_iff.1 h
    obtain ⟨hrun, rfl⟩ := Decoder.ofExcept_ok_iff.1 hf
    obtain ⟨rfl, hf, -⟩ := Failure.takes_read.run_exactly hrun
    exact ⟨hbs, ⟨hl, hf⟩, by rintro u ⟨⟩⟩

/-- What stands in the variant of an event is read from the item it is written as, under the name
    of its kind. -/
private theorem takes_readEventNamed (kind : String) :
    (readEventNamed kind).Takes eventItem
      (fun event => event.kind = kind ∧ ∀ v, event = .next v → v.depth ≤ maxDepth) := by
  intro bs rest event h
  unfold readEventNamed at h
  -- The name of the variant decides what is read, and an unknown one is refused.
  split at h
  · next hkind =>
    obtain ⟨v, mid, hv, h⟩ := bind_ok_iff.1 h
    obtain ⟨rfl, rfl⟩ := pure_ok_iff.1 h
    obtain ⟨hbs, hf, hdepth⟩ := Value.takes_readWithin _ hv
    refine ⟨hbs, hf, hkind.symm, fun u hu => ?_⟩
    injection hu with hu
    exact hu ▸ Nat.le_of_lt_succ hdepth
  · split at h
    · next _ hkind =>
      obtain ⟨f, mid, hf, h⟩ := bind_ok_iff.1 h
      obtain ⟨rfl, rfl⟩ := pure_ok_iff.1 h
      obtain ⟨hbs, hf, -⟩ := Failure.takes_read hf
      exact ⟨hbs, hf, hkind.symm, by rintro u ⟨⟩⟩
    · split at h
      · next _ _ hkind =>
        obtain ⟨_, mid, hu, h⟩ := bind_ok_iff.1 h
        obtain ⟨rfl, rfl⟩ := pure_ok_iff.1 h
        have hbs := Reader.tag_ok (Decoder.lift_ok_iff.1 hu)
        exact ⟨hbs, trivial, hkind.symm, by rintro u ⟨⟩⟩
      -- No other name is known.
      · exact absurd h Reader.throw_ne_ok

/-- An event is accepted in one form only, with its value nested no deeper than allowed. -/
theorem takes_readEvent :
    readEvent.Takes (fun event => .variant event.kind (eventItem event))
      (fun event => ∀ v, event = .next v → v.depth ≤ maxDepth) := by
  intro bs rest event h
  obtain ⟨⟨kind, body⟩, mid, hr, h⟩ := bind_ok_iff.1 h
  obtain ⟨hevent, rfl⟩ := Decoder.ofExcept_ok_iff.1 h
  have hvariant := Decoder.lift_ok_iff.1 hr
  obtain ⟨hbs, hl⟩ := Reader.variant_ok hvariant
  obtain ⟨rfl, hf, rfl, hdepth⟩ := (takes_readEventNamed kind).run_exactly hevent
  exact ⟨hbs, ⟨Reader.variant_name_fits hvariant, hl, hf⟩, hdepth⟩

/-- An outcome whose lengths fit and that is not too deep is written as its item. -/
theorem reply_toEnvelope (id : CallId) {result : Except Failure WireValue}
    (hf : (resultItem result).Fits) (hdepth : ∀ v, result = .ok v → v.depth ≤ maxDepth) :
    (reply id result).toEnvelope =
      .ok ((({ body := (resultItem result).encode } : Envelope).set Attribute.tagName
        (.u64 replyTag)).set Attribute.callName (.u64 id.val)) := by
  obtain ⟨w, hw, hg⟩ : ∃ w, writeResult result {} = .ok w ∧
      Writer.Grows {} (resultItem result).encode 1 w := by
    -- Both sides are written between a beginning and a close.
    cases result with
    | ok v =>
      obtain ⟨w₁, ho⟩ := Writer.begin_ok (w := {}) (t := .resultOk) rfl .result
      have hi := Writer.begin_inside ho
      obtain ⟨w₂, hv⟩ := Value.writeWithin_ok (hi.accepts (by decide)) hf.2
        (Nat.lt_succ_of_le (hdepth v rfl))
      have hg := (Value.writeWithin_grows v _ hv).2.2
      obtain ⟨w₃, hc⟩ := hi.close_ok hg (by simp) hf.1
      exact ⟨w₃, writeResult_eq_ok_iff.2 ⟨w₁, w₂, ho, hv, hc⟩, (hi.close_grows hg hc).1⟩
    | error f =>
      obtain ⟨w₁, ho⟩ := Writer.begin_ok (w := {}) (t := .resultErr) rfl .result
      have hi := Writer.begin_inside ho
      obtain ⟨w₂, hv⟩ := Failure.write_ok (hi.accepts (by decide)) hf.2
      have hg := (Failure.write_grows hv).2
      obtain ⟨w₃, hc⟩ := hi.close_ok hg (by simp) hf.1
      exact ⟨w₃, writeResult_error_ok_iff.2 ⟨w₁, w₂, ho, hv, hc⟩, (hi.close_grows hg hc).1⟩
  -- What was written is complete, so its bytes are those of the item.
  have hbytes := Writer.bytes_of_grows hg
  exact bind_eq_ok_iff.2 ⟨w, hw, bind_eq_ok_iff.2 ⟨_, ofWire_eq_ok_iff.2 hbytes, rfl⟩⟩

/-- An answer with a value whose lengths fit can be written exactly if it is not too deep, and is
    refused for its depth otherwise. -/
theorem reply_of_fits (id : CallId) {v : WireValue} (hf : ReplyFits v) :
    (v.depth ≤ maxDepth → ∃ e, (reply id (.ok v)).toEnvelope = .ok e) ∧
      (maxDepth < v.depth → (reply id (.ok v)).toEnvelope = .error .nestingTooDeep) := by
  constructor
  · intro hshallow
    refine ⟨_, reply_toEnvelope id hf fun u hu => ?_⟩
    cases hu
    exact hshallow
  · intro hdeep
    -- The container can be begun, so the depth of the value is all that is left to refuse.
    obtain ⟨w, ho⟩ := Writer.begin_ok (w := {}) (t := .resultOk) rfl .result
    have hv : v.write w = .error .nestingTooDeep :=
      Value.writeWithin_deep ((Writer.begin_inside ho).accepts (by decide)) hf.2 hdeep
    have ho' : ofWire (Writer.okBegin {}) = .ok w := ofWire_eq_ok_iff.2 ho
    simp [toEnvelope, writeResult, ho', hv, bind, Except.bind]

/-- An event whose lengths fit and that is not too deep is written as its item. -/
theorem observation_toEnvelope (id : StreamId) (event : Notification WireValue)
    (hf : (Item.variant event.kind (eventItem event)).Fits)
    (hdepth : ∀ v, event = .next v → v.depth ≤ maxDepth) :
    (observation id event).toEnvelope =
      .ok ((({ body := (Item.variant event.kind (eventItem event)).encode } : Envelope).set
        Attribute.tagName (.u64 observationTag)).set Attribute.streamName (.u64 id.val)) := by
  obtain ⟨hn, hl, hf⟩ := hf
  obtain ⟨w₁, ho⟩ := Writer.variantBegin_ok (w := {}) rfl hn
  have hi := (Writer.variantBegin_inside ho).1
  have haccepts := hi.accepts (by decide)
  -- The three events differ only in what is written inside the variant.
  obtain ⟨w₂, hw⟩ : ∃ w₂, writeInside event w₁ = .ok w₂ := by
    cases event with
    | next v => exact Value.writeWithin_ok haccepts hf (Nat.lt_succ_of_le (hdepth v rfl))
    | error f => exact Failure.write_ok haccepts hf
    | completed => exact Value.ofWire_ok (Writer.put_ok haccepts _ _)
  have hg := (readEventNamed_encode hw).1
  obtain ⟨w₃, hc⟩ := hi.close_ok hg (by simp) hl
  have hw' : writeEvent event {} = .ok w₃ := writeEvent_ok_iff.2 ⟨w₁, w₂, ho, hw, hc⟩
  have hbytes := Writer.bytes_of_grows (hi.close_grows hg hc).1
  exact bind_eq_ok_iff.2 ⟨w₃, hw', bind_eq_ok_iff.2 ⟨_, ofWire_eq_ok_iff.2 hbytes, rfl⟩⟩

/-- What the parts of an envelope are read as if it is a server's message. -/
theorem ofEnvelope_ok {e : Envelope} {m : ServerMessage} (h : ofEnvelope e = .ok m) :
    (∃ (id : CallId) (result : Except Failure WireValue),
      e.u64 Attribute.tagName = .ok replyTag ∧ e.u64 Attribute.callName = .ok id.val ∧
      readResult.exactly.run e.body = .ok result ∧ m = reply id result) ∨
    ∃ (id : StreamId) (event : Notification WireValue),
      e.u64 Attribute.tagName = .ok observationTag ∧ e.u64 Attribute.streamName = .ok id.val ∧
      readEvent.exactly.run e.body = .ok event ∧ m = observation id event := by
  obtain ⟨tag, htag, h⟩ := bind_eq_ok_iff.1 h
  -- As with clients, the tag decides which id is asked for.
  split at h
  · next hreply =>
    subst hreply
    obtain ⟨id, hid, h⟩ := bind_eq_ok_iff.1 h
    obtain ⟨result, hresult, h⟩ := bind_eq_ok_iff.1 h
    exact .inl ⟨⟨id⟩, result, htag, hid, hresult, (Except.ok.inj h).symm⟩
  · split at h
    · next _ hobservation =>
      subst hobservation
      obtain ⟨id, hid, h⟩ := bind_eq_ok_iff.1 h
      obtain ⟨event, hevent, h⟩ := bind_eq_ok_iff.1 h
      exact .inr ⟨⟨id⟩, event, htag, hid, hevent, (Except.ok.inj h).symm⟩
    · cases h

/-- A server's message is written into the envelope it was read from. -/
theorem toEnvelope_of_ofEnvelope {e : Envelope} {m : ServerMessage} (h : ofEnvelope e = .ok m) :
    m.toEnvelope = .ok (e.restrict m.attributeNames) := by
  rcases ofEnvelope_ok h with ⟨id, result, htag, hid, hresult, rfl⟩ |
    ⟨id, event, htag, hid, hevent, rfl⟩
  · obtain ⟨hbody, hf, hdepth⟩ := takes_readResult.run_exactly hresult
    rw [reply_toEnvelope _ hf hdepth, ← hbody, attributeNames, ← set_restrict (u64_ok_iff.1 hid),
      ← set_restrict (u64_ok_iff.1 htag), restrict_nil]
  · obtain ⟨hbody, hf, hdepth⟩ := takes_readEvent.run_exactly hevent
    rw [observation_toEnvelope _ _ hf hdepth, ← hbody, attributeNames,
      ← set_restrict (u64_ok_iff.1 hid), ← set_restrict (u64_ok_iff.1 htag), restrict_nil]

end ServerMessage

/-! ## Either way -/

/-- Messages of this kind have one envelope each: the one they are read from is the one they are
    written into, but for attributes of other names, and different bodies say different things. -/
structure OneEnvelope {M : Type} (ofEnvelope : Envelope → Except CodecError M)
    (toEnvelope : M → Except CodecError Envelope) (attributeNames : M → List String) : Prop where
  rewritten : ∀ {e : Envelope} {m : M}, ofEnvelope e = .ok m →
    toEnvelope m = .ok (e.restrict (attributeNames m))
  distinct : ∀ {e e' : Envelope} {m : M}, ofEnvelope e = .ok m → ofEnvelope e' = .ok m →
    e.body = e'.body

/-- A family in which every accepted envelope is rewritten as its restriction has one envelope a
message. -/
private theorem OneEnvelope.of_rewritten {M : Type} {ofEnvelope : Envelope → Except CodecError M}
    {toEnvelope : M → Except CodecError Envelope} {attributeNames : M → List String}
    (h : ∀ {e : Envelope} {m : M}, ofEnvelope e = .ok m →
      toEnvelope m = .ok (e.restrict (attributeNames m))) :
    OneEnvelope ofEnvelope toEnvelope attributeNames where
  rewritten := h
  distinct := fun {e e' m} h₁ h₂ => by
    have hsame : e.restrict (attributeNames m) = e'.restrict (attributeNames m) :=
      Except.ok.inj ((h h₁).symm.trans (h h₂))
    simpa using congrArg Envelope.body hsame

/-- Whatever is accepted as a message, from either side, would be written just like that. -/
theorem messages_canonical :
    OneEnvelope ClientMessage.ofEnvelope ClientMessage.toEnvelope ClientMessage.attributeNames ∧
      OneEnvelope ServerMessage.ofEnvelope ServerMessage.toEnvelope
        ServerMessage.attributeNames :=
  ⟨.of_rewritten ClientMessage.toEnvelope_of_ofEnvelope,
    .of_rewritten ServerMessage.toEnvelope_of_ofEnvelope⟩

end StreamRpc
