import StreamRpc.Proofs.Message.RoundTrip
import StreamRpc.Proofs.Wire.Skipping

/-! # Messages of clients and messages of servers

The two sides number their messages alike and name the attributes alike, so that nothing in the
attributes of a request says that it is not an answer.  Their bodies begin with different tags.
No envelope is a message of both, and one that gets to the wrong side is turned down there.

* `Envelope.not_both`        no envelope can be read on both sides
* `ClientMessage.misdirected`, `ServerMessage.misdirected`
                             how a message is turned down on its own side
* `families_kept_apart`      every message is, before and after it was flattened
-/

namespace StreamRpc

open Wire (Bytes Reader Tag)
open Wire.Reader (bind_of_error)

/-! ## Bodies -/

/-- Blobs with equal bytes have equal tags. -/
private theorem Wire.blob_tag_inj {t t' : Tag} {body body' : Bytes}
    (h : Wire.blob t body = Wire.blob t' body') : t = t' :=
  Tag.byte_injective (List.cons.inj h).1

/-- Whatever a client says, its body is a list. -/
private theorem ClientMessage.body_of_ofEnvelope {e : Envelope} {m : ClientMessage}
    (h : ofEnvelope e = .ok m) : ∃ body, e.body = Wire.blob .list body := by
  rcases ofEnvelope_ok h with ⟨r, -, -, -, -, hargs, -⟩ | ⟨ids, -, hids, -⟩
  · exact ⟨_, (Value.takes_readList.run_exactly hargs).1⟩
  · exact ⟨_, (takes_readIds.run_exactly hids).1⟩

/-- The tag that the body of a server's message begins with. -/
def ServerMessage.bodyTag : ServerMessage → Tag
  | reply _ (.ok _) => .resultOk
  | reply _ (.error _) => .resultErr
  | observation _ _ => .variant

/-- No server message has a list for its body. -/
private theorem ServerMessage.bodyTag_ne_list (m : ServerMessage) : m.bodyTag ≠ .list := by
  unfold bodyTag
  split <;> decide

/-- Whatever a server says, its body is something else. -/
private theorem ServerMessage.body_of_ofEnvelope {e : Envelope} {m : ServerMessage}
    (h : ofEnvelope e = .ok m) : ∃ body, e.body = Wire.blob m.bodyTag body := by
  rcases ofEnvelope_ok h with ⟨id, result, -, -, hresult, rfl⟩ | ⟨id, event, -, -, hevent, rfl⟩
  · have hbody := (takes_readResult.run_exactly hresult).1
    cases result <;> exact ⟨_, hbody⟩
  · exact ⟨_, (takes_readEvent.run_exactly hevent).1⟩

/-- No envelope, however it came about, is a message of a client and a message of a server. -/
theorem Envelope.not_both {e : Envelope} {m : ClientMessage} {m' : ServerMessage}
    (h : ClientMessage.ofEnvelope e = .ok m) : ServerMessage.ofEnvelope e ≠ .ok m' := by
  intro h'
  obtain ⟨body, hbody⟩ := ClientMessage.body_of_ofEnvelope h
  obtain ⟨body', hbody'⟩ := ServerMessage.body_of_ofEnvelope h'
  exact m'.bodyTag_ne_list (Wire.blob_tag_inj (hbody'.symm.trans hbody))

/-! ## Attributes -/

/-- Reading an absent number is an error that names the attribute. -/
private theorem Envelope.u64_of_absent {e : Envelope} {name : String}
    (h : e.attribute? name = none) :
    e.u64 name = .error (.missingAttribute name) := by
  simp only [u64, h]

/-- Reading an absent text is an error that names the attribute. -/
private theorem Envelope.str_of_absent {e : Envelope} {name : String}
    (h : e.attribute? name = none) :
    e.str name = .error (.missingAttribute name) := by
  simp only [str, h]

/-- An envelope that is written into itself has no other attributes. -/
private theorem Envelope.absent_of_restrict {e : Envelope} {names : List String}
    (h : e = e.restrict names) {name : String} (hname : name ∉ names) :
    e.attribute? name = none := by
  rw [h, attribute_restrict, if_neg hname]

/-! ## On the wrong side -/

namespace ClientMessage

/-- How a server's message is expected where a client's message is: a request could be an answer,
    but for its body, and a close message lacks the number of a stream. -/
def misdirected : ClientMessage → CodecError
  | request _ => .wire (.unexpectedTag .resultOk .list)
  | closed _ => .missingAttribute Attribute.streamName

/-- A client message is written with the attributes of its kind and no others. -/
private theorem restrict_of_toEnvelope {m : ClientMessage} {e : Envelope}
    (h : m.toEnvelope = .ok e) :
    e = e.restrict m.attributeNames :=
  Except.ok.inj (h.symm.trans (toEnvelope_of_ofEnvelope (ofEnvelope_toEnvelope h)))

/-- A client's message is turned down by clients. -/
private theorem ofEnvelope_misdirected {m : ClientMessage} {e : Envelope}
    (h : m.toEnvelope = .ok e) :
    ServerMessage.ofEnvelope e = .error m.misdirected := by
  have hread := ofEnvelope_toEnvelope h
  rcases ofEnvelope_ok hread with ⟨r, htag, -, hid, -, -, rfl⟩ | ⟨ids, htag, -, rfl⟩
  · -- A request has all the attributes that an answer has.
    obtain ⟨body, hbody⟩ := body_of_ofEnvelope hread
    have hresult : Reader.result e.body = .error (.unexpectedTag .resultOk .list) e.body := by
      rw [hbody]
      exact Reader.typed_result.otherTag .list _ (by decide)
    have hrun : ServerMessage.readResult.exactly.run e.body = .error (misdirected (request r)) :=
      Decoder.run_exactly_of_error (bind_of_error (Decoder.lift_of_error hresult))
    rw [ServerMessage.ofEnvelope_of_replyTag htag hid, hrun]
    rfl
  · have hid : e.u64 Attribute.streamName = .error (misdirected (closed ids)) :=
      Envelope.u64_of_absent <| Envelope.absent_of_restrict (restrict_of_toEnvelope h) <|
        show Attribute.streamName ∉ [Attribute.tagName] by decide
    have htag' : e.u64 Attribute.tagName = .ok ServerMessage.observationTag := htag
    have hne : ServerMessage.observationTag ≠ ServerMessage.replyTag := by decide
    simp only [ServerMessage.ofEnvelope, htag', hid, bind, Except.bind, hne, if_true, if_false]

end ClientMessage

namespace ServerMessage

/-- How a client's message is expected where a server's message is: an answer lacks the queue that
    answers go to, and an observation could be a close message, but for its body. -/
def misdirected : ServerMessage → CodecError
  | reply _ _ => .missingAttribute Attribute.replyToName
  | observation _ _ => .wire (.unexpectedTag .list .variant)

/-- A server message is written with the attributes of its kind and no others. -/
private theorem restrict_of_toEnvelope {m : ServerMessage} {e : Envelope}
    (h : m.toEnvelope = .ok e) :
    e = e.restrict m.attributeNames :=
  Except.ok.inj (h.symm.trans (toEnvelope_of_ofEnvelope (ofEnvelope_toEnvelope h)))

/-- A server's message is turned down by servers. -/
private theorem ofEnvelope_misdirected {m : ServerMessage} {e : Envelope}
    (h : m.toEnvelope = .ok e) :
    ClientMessage.ofEnvelope e = .error m.misdirected := by
  have hread := ofEnvelope_toEnvelope h
  rcases ofEnvelope_ok hread with ⟨id, result, htag, -, -, rfl⟩ | ⟨id, event, htag, -, -, rfl⟩
  -- A reply has the tag of a request, but no queue to reply to.
  · have htag' : e.u64 Attribute.tagName = .ok ClientMessage.requestTag := htag
    have hreplyTo : e.str Attribute.replyToName = .error (misdirected (reply id result)) :=
      Envelope.str_of_absent <| Envelope.absent_of_restrict (restrict_of_toEnvelope h) <|
        show Attribute.replyToName ∉ [Attribute.callName, Attribute.tagName] by decide
    simp only [ClientMessage.ofEnvelope, htag', hreplyTo, bind, Except.bind, if_true]
  -- An observation has the tag of a list of closed streams, and its body is none.
  · obtain ⟨body, hbody⟩ := body_of_ofEnvelope hread
    have hlist : Reader.list e.body = .error (.unexpectedTag .list .variant) e.body := by
      rw [hbody]
      exact (Reader.typed_blob .list rfl).otherTag .variant _ (by decide)
    have hrun : ClientMessage.readIds.exactly.run e.body =
        .error (misdirected (observation id event)) :=
      Decoder.run_exactly_of_error (bind_of_error (Decoder.lift_of_error hlist))
    rw [ClientMessage.ofEnvelope_of_closedTag htag, hrun]
    rfl

end ServerMessage

/-! ## Both ways -/

/-- A message of one side is turned down on that side, also when it was flattened in between.  And
    no envelope at all is accepted on both. -/
theorem families_kept_apart :
    (∀ (m : ClientMessage) (e : Envelope), m.toEnvelope = .ok e →
      ServerMessage.ofEnvelope e = .error m.misdirected ∧
        ∀ bs, e.toBytes = .ok bs → ∃ e', Envelope.ofBytes bs = .ok e' ∧
          ServerMessage.ofEnvelope e' = .error m.misdirected) ∧
    (∀ (m : ServerMessage) (e : Envelope), m.toEnvelope = .ok e →
      ClientMessage.ofEnvelope e = .error m.misdirected ∧
        ∀ bs, e.toBytes = .ok bs → ∃ e', Envelope.ofBytes bs = .ok e' ∧
          ClientMessage.ofEnvelope e' = .error m.misdirected) ∧
    ∀ (e : Envelope) (m : ClientMessage) (m' : ServerMessage),
      ¬(ClientMessage.ofEnvelope e = .ok m ∧ ServerMessage.ofEnvelope e = .ok m') := by
  refine ⟨fun m e h => ?_, fun m e h => ?_, fun e m m' h => Envelope.not_both h.1 h.2⟩
  -- The byte form gives the envelope back, so nothing new has to be shown for it.
  · have hrefused := ClientMessage.ofEnvelope_misdirected h
    exact ⟨hrefused, fun bs hbs => ⟨e, Envelope.ofBytes_toBytes hbs, hrefused⟩⟩
  · have hrefused := ServerMessage.ofEnvelope_misdirected h
    exact ⟨hrefused, fun bs hbs => ⟨e, Envelope.ofBytes_toBytes hbs, hrefused⟩⟩

/-- A request with the very attributes of an answer, whose argument looks like one, and an event
    that stands where the numbers of a close message would. -/
theorem families_kept_apart_alike :
    let call : ClientMessage := .request {
      replyTo := "rpc.client.a", id := ⟨7⟩, method := "m", args := [.present (.u64 7)] }
    let event : ServerMessage := .observation ⟨7⟩ (.next (.list [.u64 7]))
    (∃ e bs e', call.toEnvelope = .ok e ∧ e.toBytes = .ok bs ∧ Envelope.ofBytes bs = .ok e' ∧
      ServerMessage.ofEnvelope e' = .error (.wire (.unexpectedTag .resultOk .list))) ∧
      ∃ e bs e', event.toEnvelope = .ok e ∧ e.toBytes = .ok bs ∧ Envelope.ofBytes bs = .ok e' ∧
        ClientMessage.ofEnvelope e' = .error (.wire (.unexpectedTag .list .variant)) := by
  obtain ⟨hclient, hserver, -⟩ := families_kept_apart
  -- The call has all the attributes of an answer, so only its body gives it away; the event
  -- likewise.
  constructor
  · have h := ClientMessage.request_toEnvelope (r := {
      replyTo := "rpc.client.a", id := ⟨7⟩, method := "m", args := [.present (.u64 7)] })
      ⟨by decide, ⟨by decide, trivial⟩, trivial⟩ (by decide)
    obtain ⟨bs, hbs⟩ := Envelope.toBytes_of_fits (ClientMessage.fits h (by decide) (by decide))
    obtain ⟨e', he', hrefused⟩ := (hclient _ _ h).2 bs hbs
    exact ⟨_, bs, e', h, hbs, he', hrefused⟩
  · have h := ServerMessage.observation_toEnvelope ⟨7⟩ (.next (.list [.u64 7]))
      ⟨by decide, by decide, by decide, trivial, trivial⟩ (by rintro v ⟨⟩; decide)
    obtain ⟨bs, hbs⟩ := Envelope.toBytes_of_fits (ServerMessage.fits h (by decide))
    obtain ⟨e', he', hrefused⟩ := (hserver _ _ h).2 bs hbs
    exact ⟨_, bs, e', h, hbs, he', hrefused⟩

end StreamRpc
