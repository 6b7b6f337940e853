import StreamRpc.Proofs.Message.RoundTrip
import StreamRpc.Proofs.Wire.Delimiting

/-! # Missing and additional bytes are noticed

Bytes that an envelope or the body of a message is read from are all that it can be read from.  If
the last ones are missing, wherever the cut is, reading runs into the end; if others follow, it
says how many.

* `ReadsExactly`                 neither fewer bytes nor more will do
* `Envelope.readsExactly`        of a flattened envelope
* `ClientMessage.readsExactly`, `ServerMessage.readsExactly`
                                 of the body of a message
* `cuts_and_padding_noticed`     of whatever was written
-/

namespace StreamRpc

open Wire (Bytes Reader)
open Wire.Reader (Framed framed_blob framed_result framed_variant bind_of_ok bind_of_error)

/-- These bytes are read as `a`, a part of them that lacks the end is said to end too early, and of
    bytes that follow them it is said how many they are. -/
structure ReadsExactly {α : Type} (read : Bytes → Except CodecError α) (bs : Bytes) (a : α) :
    Prop where
  whole : read bs = .ok a
  cut : ∀ front, front <+: bs → front ≠ bs → read front = .error (.wire .unexpectedEnd)
  padded : ∀ more, more ≠ [] →
    read (bs ++ more) = .error (.wire (.trailingBytes more.length))

namespace ReadsExactly

variable {α β : Type} {read : Bytes → Except CodecError α} {bs : Bytes} {a : α}

/-- What is made of the result makes no difference. -/
private theorem map (h : ReadsExactly read bs a) (f : α → β) :
    ReadsExactly (fun bs => f <$> read bs) bs (f a) where
  whole := by rw [h.whole]; rfl
  cut front hfront hne := by rw [h.cut front hfront hne]; rfl
  padded more hne := by rw [h.padded more hne]; rfl

/-- Reading exactly depends on the reader's results only. -/
private theorem congr {read' : Bytes → Except CodecError α} (h : ReadsExactly read bs a)
    (heq : ∀ bs, read' bs = read bs) : ReadsExactly read' bs a := by
  obtain rfl : read' = read := funext heq
  exact h

end ReadsExactly

/-- Of what follows the bytes of a read it is said how many they are, if nothing may follow. -/
private theorem Decoder.exactly_padded {α : Type} {d : Decoder α} {bs more : Bytes} {a : α}
    (h : d bs = .ok a more) (hne : more ≠ []) :
    d.exactly.run bs = .error (.wire (.trailingBytes more.length)) := by
  have hfinish : Reader.finish more = .error (.trailingBytes more.length) more := by
    simp [Reader.finish, hne]
  have hfails : d.exactly bs = .error (.wire (.trailingBytes more.length)) more := by
    rw [Decoder.exactly, bind_of_ok h]
    exact bind_of_error (Decoder.lift_of_error hfinish)
  exact Decoder.run_of_error hfails

/-- Bytes that say where they end, and that are read to their end, are read exactly. -/
private theorem Wire.Reader.Framed.readsExactly {α : Type} {d : Decoder α} {bs : Bytes} {a : α}
    (hd : Framed (.wire .unexpectedEnd) d) (h : d.exactly.run bs = .ok a) :
    ReadsExactly d.exactly.run bs a := by
  obtain ⟨taken, hbs, hdelimits⟩ := hd (Decoder.run_exactly_ok_iff.1 h)
  obtain rfl : bs = taken := hbs.trans (List.append_nil _)
  refine ⟨h, fun front hfront hne => ?_, fun more hne => ?_⟩
  · obtain ⟨rest, hrest⟩ := hdelimits.cut front hfront hne
    exact Decoder.run_exactly_of_error hrest
  · exact Decoder.exactly_padded (hdelimits.whole more) hne

/-! ## Envelopes -/

namespace Envelope

/-- A value is read with its end marked: every shorter input ends unexpectedly. -/
private theorem framed_read : Framed (.wire .unexpectedEnd) read := by
  refine (Decoder.framed_lift (framed_blob _)).bind fun entries => ?_
  refine (Decoder.framed_ofExcept _).bind fun attributes => ?_
  exact (Decoder.framed_lift (framed_blob _)).bind fun body => .pure _

/-- Bytes that an envelope is read from are read exactly. -/
theorem readsExactly {bs : Bytes} {e : Envelope} (h : ofBytes bs = .ok e) :
    ReadsExactly ofBytes bs e :=
  framed_read.readsExactly h

end Envelope

/-! ## What clients say -/

/-- A list of values is read with its end marked. -/
private theorem Value.framed_readList : Framed (.wire .unexpectedEnd) readList :=
  (Decoder.framed_lift (framed_blob _)).bind fun _ => Decoder.framed_ofExcept _

namespace ClientMessage

/-- A list of ids is read with its end marked. -/
private theorem framed_readIds : Framed (.wire .unexpectedEnd) readIds := by
  refine (Decoder.framed_lift (framed_blob _)).bind fun body => ?_
  exact (Decoder.framed_ofExcept _).bind fun ids => .pure _

/-- The body that a client's message is read from is read exactly. -/
theorem readsExactly {e : Envelope} {m : ClientMessage} (h : ofEnvelope e = .ok m) :
    ReadsExactly (fun body => ofEnvelope { e with body }) e.body m := by
  -- With another body the attributes are the same, and the body alone decides.
  rcases ofEnvelope_ok h with ⟨r, htag, hreplyTo, hid, hmethod, hargs, rfl⟩ |
    ⟨ids, htag, hids, rfl⟩
  · exact ((Value.framed_readList.readsExactly hargs).map _).congr fun body =>
      ofEnvelope_of_requestTag (e := { e with body }) htag hreplyTo hid hmethod
  · exact ((framed_readIds.readsExactly hids).map closed).congr fun body =>
      ofEnvelope_of_closedTag (e := { e with body }) htag

end ClientMessage

/-! ## What servers say -/

namespace ServerMessage

/-- A result is read with its end marked. -/
private theorem framed_readResult : Framed (.wire .unexpectedEnd) readResult := by
  refine (Decoder.framed_lift framed_result).bind fun side => ?_
  split
  · exact (Decoder.framed_ofExcept _).bind fun _ => .pure _
  · exact (Decoder.framed_ofExcept _).bind fun _ => .pure _

/-- An event is read with its end marked. -/
private theorem framed_readEvent : Framed (.wire .unexpectedEnd) readEvent :=
  (Decoder.framed_lift framed_variant).bind fun _ => Decoder.framed_ofExcept _

/-- The body that a server's message is read from is read exactly. -/
theorem readsExactly {e : Envelope} {m : ServerMessage} (h : ofEnvelope e = .ok m) :
    ReadsExactly (fun body => ofEnvelope { e with body }) e.body m := by
  rcases ofEnvelope_ok h with ⟨id, result, htag, hid, hresult, rfl⟩ |
    ⟨id, event, htag, hid, hevent, rfl⟩
  · exact ((framed_readResult.readsExactly hresult).map (reply id)).congr fun body =>
      ofEnvelope_of_replyTag (e := { e with body }) htag hid
  · exact ((framed_readEvent.readsExactly hevent).map (observation id)).congr fun body =>
      ofEnvelope_of_observationTag (e := { e with body }) htag hid

end ServerMessage

/-! ## Whatever was written -/

/-- Of a flattened envelope, and of the body of every message in its envelope, a missing end and
    additional bytes are noticed, and told apart. -/
theorem cuts_and_padding_noticed :
    (∀ (e : Envelope) (bs : Bytes), e.toBytes = .ok bs → ReadsExactly Envelope.ofBytes bs e) ∧
      (∀ (m : ClientMessage) (e : Envelope), m.toEnvelope = .ok e →
        ReadsExactly (fun body => ClientMessage.ofEnvelope { e with body }) e.body m) ∧
      ∀ (m : ServerMessage) (e : Envelope), m.toEnvelope = .ok e →
        ReadsExactly (fun body => ServerMessage.ofEnvelope { e with body }) e.body m :=
  ⟨fun _ _ h => Envelope.readsExactly (Envelope.ofBytes_toBytes h),
    fun _ _ h => ClientMessage.readsExactly (ClientMessage.ofEnvelope_toEnvelope h),
    fun _ _ h => ServerMessage.readsExactly (ServerMessage.ofEnvelope_toEnvelope h)⟩

/-- A call that is cut inside of the length of its argument list, an event of a stream that is
    followed by two bytes, and its flattened envelope without the last byte. -/
theorem cuts_and_padding_noticed_nested :
    let call : ClientMessage := .request {
      replyTo := "rpc.client.a", id := ⟨0⟩, method := "m", args := [.record [("x", .bool true)]] }
    let event : ServerMessage := .observation ⟨5⟩ (.next (.list [.stream ⟨6⟩, .absent]))
    (∃ e, call.toEnvelope = .ok e ∧
      ClientMessage.ofEnvelope { e with body := e.body.take 3 } = .error (.wire .unexpectedEnd)) ∧
      ∃ e bs, event.toEnvelope = .ok e ∧ e.toBytes = .ok bs ∧
        ServerMessage.ofEnvelope { e with body := e.body ++ [0x01, 0x04] } =
          .error (.wire (.trailingBytes 2)) ∧
        Envelope.ofBytes bs.dropLast = .error (.wire .unexpectedEnd) := by
  obtain ⟨henvelope, hclient, hserver⟩ := cuts_and_padding_noticed
  -- The call is cut in the middle of a field name; to the event two bytes are added.
  constructor
  · have h := ClientMessage.request_toEnvelope (r := {
      replyTo := "rpc.client.a", id := ⟨0⟩, method := "m", args := [.record [("x", .bool true)]] })
      ⟨by decide, ⟨by decide, ⟨by decide, by decide, trivial⟩, trivial⟩, trivial⟩ (by decide)
    exact ⟨_, h, (hclient _ _ h).cut _ (List.take_prefix _ _) (by decide)⟩
  · have h := ServerMessage.observation_toEnvelope ⟨5⟩ (.next (.list [.stream ⟨6⟩, .absent]))
      ⟨by decide, by decide, by decide, trivial, trivial, trivial⟩ (by rintro v ⟨⟩; decide)
    obtain ⟨bs, hbs⟩ := Envelope.toBytes_of_fits (ServerMessage.fits h (by decide))
    refine ⟨_, bs, h, hbs, (hserver _ _ h).padded _ (by decide), ?_⟩
    refine (henvelope _ _ hbs).cut _ (List.dropLast_prefix _) fun heq => ?_
    -- Nothing is missing only if there are no bytes at all, but an envelope has some.
    have hlength : bs.length - 1 = bs.length := by rw [← List.length_dropLast, heq]
    have hbytes := congrArg List.length (Envelope.spells_of_toBytes hbs).bytes
    simp only [Wire.blob, List.length_append, List.length_cons] at hbytes
    omega

end StreamRpc
