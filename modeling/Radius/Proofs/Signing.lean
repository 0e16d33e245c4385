import Radius.Proofs.Refusal
import Radius.Proofs.MissingTag

/-!
What one side signs the other side accepts. The Message-Authenticator is computed before the
authenticator is written into the header, and verified with the same octets put back there; so the
receiver finds both of them valid, and can only miss a Message-Authenticator that was never there.
-/

namespace Radius

open MessageAuthenticator in
/-- Records before and after they are signed. Only the value of the first Message-Authenticator can
be another one. -/
inductive SignedAs : List Record → List Record → Prop
  | unsigned {records : List Record}
      (unsigned : ∀ record ∈ records, isCarriedBy record = false) : SignedAs records records
  | signed {before behind : List Record} {blank value : Digest}
      (first : ∀ record ∈ before, isCarriedBy record = false) :
      SignedAs (before ++ holding blank :: behind) (before ++ holding value :: behind)

theorem totalLength_of_signedAs {lowered sent : List Record} (signed : SignedAs lowered sent) :
    Record.totalLength sent = Record.totalLength lowered := by
  cases signed with
  | unsigned => rfl
  | signed first =>
      simp [Record.totalLength, Record.writeAll, MessageAuthenticator.octets_holding,
        OctetField.length_octets]

namespace Frame

open MessageAuthenticator

variable {frame : Frame} {secret octets : Octets} {max : Nat}

def Sealed (frame : Frame) (secret : Octets) (header : Authenticator) : Prop :=
  ∀ before value behind, frame.Carries before value behind →
    value = frame.signature secret header before behind

theorem sign_octets (frame : Frame) (secret : Octets) :
    ∃ sent, SignedAs frame.records sent ∧
      PacketCodec.sign frame.octets secret = { frame with records := sent }.octets ∧
      Sealed { frame with records := sent } secret frame.authenticator := by
  unfold PacketCodec.sign
  rcases carries_or_unsigned frame with ⟨before, blank, behind, carries⟩ | unsigned
  · refine ⟨before ++ holding (frame.signature secret frame.authenticator before behind) :: behind,
      ?_, ?_, ?_⟩
    · rw [carries.cut]
      exact .signed carries.first
    · have zeros := overwrite_value carries (OctetField.zero valueLength)
      rw [find?_of_carries carries]
      simp only [MessageAuthenticator.sign, expected, zeros]
      exact overwrite_value carries (frame.signature secret frame.authenticator before behind)
    · intro otherBefore value otherBehind again
      obtain ⟨rfl, rfl, rfl⟩ := carries_unique again.cut carries.first again.first
      rfl
  · refine ⟨frame.records, .unsigned unsigned, ?_, ?_⟩
    · rw [find?_of_unsigned unsigned]
    · intro before value behind carries
      exact absurd unsigned (not_unsigned_of_carries carries)

theorem responseHash_octets (frame : Frame) (authenticator request : Authenticator)
    (secret : Octets) :
    Authenticator.responseHash md5 { frame with authenticator }.octets request secret =
      Authenticator.responseHash md5 frame.octets request secret := by
  unfold Authenticator.responseHash
  rw [Authenticator.offset, take_octets, take_octets, drop_octets, drop_octets]
  rfl

end Frame

namespace PacketCodec

variable {codec : PacketCodec} {checks : Checks} {packet : Packet} {secret octets : Octets}
  {identifier : UInt8} {header : Authenticator} {frame : Frame} {cause : PacketError}
  {source rest : Entropy}

theorem refused_iff_of_sealed (spans : frame.Spans codec.config.maxPacketSize octets)
    (genuine : checks.genuine frame) (valid : frame.Sealed secret (checks.header frame)) :
    codec.Refused checks octets secret cause ↔
      cause = .missingMessageAuthenticator ∧ frame.Unsigned ∧
        (frame.HasEapMessage ∨ checks.required = true) := by
  rw [refused_iff_of_spans spans]
  constructor
  · rintro (⟨forged, -⟩ | ⟨-, rejected⟩)
    · exact absurd genuine forged
    · cases rejected with
      | missigned carries differs => exact absurd (valid _ _ _ carries) differs
      | unsigned unsigned needed => exact ⟨rfl, unsigned, needed⟩
  · rintro ⟨rfl, unsigned, needed⟩
    exact .inr ⟨genuine, .unsigned unsigned needed⟩

theorem encodeFrame_eq_ok
    (encoded : codec.encodeFrame packet secret identifier header source = (.ok octets, rest)) :
    ∃ lowered sent, lowerAll ⟨md5, secret, header⟩ codec.dictionary packet.attributes source =
        (.ok lowered, rest) ∧ SignedAs lowered sent ∧
      Frame.Spans ⟨packet.code, identifier, header, sent⟩ codec.config.maxPacketSize octets ∧
      Frame.Sealed ⟨packet.code, identifier, header, sent⟩ secret header := by
  obtain ⟨lowered, middle, lowers, framed⟩ := Drawing.bind_eq_ok_iff.mp encoded
  obtain ⟨unsigned, final, written, finished⟩ := Drawing.bind_eq_ok_iff.mp framed
  obtain ⟨rfl, rfl⟩ := Drawing.pure_eq_ok_iff.mp finished
  obtain ⟨built, rfl⟩ := Drawing.ofExcept_eq_ok_iff.mp written
  obtain ⟨within, counted, rfl⟩ := Frame.write_eq_ok_iff.mp built
  obtain ⟨sent, signed, spelled, valid⟩ :=
    Frame.sign_octets ⟨packet.code, identifier, header, lowered⟩ secret
  have length : Frame.length ⟨packet.code, identifier, header, sent⟩ =
      Frame.length ⟨packet.code, identifier, header, lowered⟩ := by
    simp only [Frame.length, totalLength_of_signedAs signed]
  exact ⟨lowered, sent, lowers, signed, ⟨spelled, length ▸ within, length ▸ counted⟩, valid⟩

theorem decodeRequest_of_accepted (spans : frame.Spans codec.config.maxPacketSize octets)
    (accepted : ∀ cause, ¬codec.Refused (codec.requestChecks octets secret) octets secret cause) :
    codec.decodeRequest octets secret =
      (codec.decodeFrame frame secret ((codec.requestChecks octets secret).header frame)).map
        .ok := by
  unfold decodeRequest
  cases authentic : codec.authenticateRequest octets secret with
  | error cause => exact absurd (authenticateRequest_eq_error_iff.mp authentic) (accepted cause)
  | ok answer =>
      rw [authenticateRequest_eq] at authentic
      obtain ⟨again, alike, rfl⟩ := of_authenticate_eq_ok authentic
      cases eq_of_spans spans alike
      rfl

theorem decodeResponse_of_accepted {request : Authenticator}
    (spans : frame.Spans codec.config.maxPacketSize octets)
    (accepted : ∀ cause,
      ¬codec.Refused (responseChecks octets secret request) octets secret cause) :
    codec.decodeResponse octets secret request =
      (codec.decodeFrame frame secret request).map .ok := by
  unfold decodeResponse
  cases authentic : codec.authenticateResponse octets secret request with
  | error cause => exact absurd (authenticateResponse_eq_error_iff.mp authentic) (accepted cause)
  | ok answer =>
      rw [authenticateResponse_eq] at authentic
      obtain ⟨again, alike, rfl⟩ := of_authenticate_eq_ok authentic
      cases eq_of_spans spans alike
      rfl

/-- The octets of a packet. Its records are those that were lowered, but for the value of the first
Message-Authenticator. -/
structure Emits (code identifier : UInt8) (authenticator : Authenticator)
    (lowered sent : List Record) (octets : Octets) : Prop where
  signed : SignedAs lowered sent
  octets_eq : octets = code :: identifier :: (Octets.bigEndian 2 octets.length ++
    authenticator.octets ++ Record.writeAll sent)
  counted : octets.length ≤ Frame.maxLength

def MissesSignature (records : List Record) (required : Bool) : Prop :=
  (∀ record ∈ records, MessageAuthenticator.isCarriedBy record = false) ∧
    ((∃ record ∈ records, record.type = StandardAttribute.eapMessage.type) ∨ required = true)

/-- How the receiver answers: one error if the Message-Authenticator is missing, and else with what
the records carry. -/
structure Answers (decoded : Except Fault (Except PacketError Packet)) (misses : Prop)
    (carried : Except Fault Packet) : Prop where
  refused : ∀ cause, decoded = .ok (.error cause) ↔
    cause = .missingMessageAuthenticator ∧ misses
  received : ¬misses → decoded = carried.map .ok

section Exchange

variable {code : UInt8} {authenticator : Authenticator} {lowered sent : List Record} {max : Nat}

theorem emits_of_spans (signed : SignedAs lowered sent)
    (spans : Frame.Spans ⟨code, identifier, authenticator, sent⟩ max octets) :
    Emits code identifier authenticator lowered sent octets := by
  have length := congrArg List.length spans.octets_eq
  rw [Frame.length_octets] at length
  refine ⟨signed, ?_, length ▸ spans.counted⟩
  rw [length]
  exact spans.octets_eq

theorem spans_write (spans : Frame.Spans ⟨code, identifier, header, sent⟩ max octets)
    (authenticator : Authenticator) :
    Frame.Spans ⟨code, identifier, authenticator, sent⟩ max
      (Authenticator.write octets authenticator) := by
  refine ⟨?_, spans.within, spans.counted⟩
  rw [spans.octets_eq, Frame.write_octets]

theorem genuine_write (spans : Frame.Spans ⟨code, identifier, header, sent⟩ max octets)
    (request : Authenticator) {written : Octets}
    (hashed : written = Authenticator.write octets
      (Authenticator.responseHash md5 octets request secret)) :
    (written.drop 4).take 16 =
      (md5 (written.take 4 ++ request.octets ++ written.drop 20 ++ secret)).octets := by
  have same := Frame.responseHash_octets ⟨code, identifier, header, sent⟩
    (Authenticator.responseHash md5 octets request secret) request secret
  rw [← spans.octets_eq, ← (spans_write spans _).octets_eq, ← hashed] at same
  have field := Frame.field_octets ⟨code, identifier,
    Authenticator.responseHash md5 octets request secret, sent⟩
  rw [← (spans_write spans _).octets_eq, ← hashed, ← same] at field
  exact field

theorem sealed_write (valid : Frame.Sealed ⟨code, identifier, header, sent⟩ secret header)
    (authenticator : Authenticator) :
    Frame.Sealed ⟨code, identifier, authenticator, sent⟩ secret header :=
  fun before value behind carries => valid before value behind ⟨carries.cut, carries.first⟩

theorem answers_request {request : Frame} (spans : request.Spans codec.config.maxPacketSize octets)
    (genuine : (codec.requestChecks octets secret).genuine request)
    (valid : request.Sealed secret ((codec.requestChecks octets secret).header request)) :
    Answers (codec.decodeRequest octets secret)
      (MissesSignature request.records codec.config.requireMessageAuthenticator)
      (codec.decodeFrame request secret ((codec.requestChecks octets secret).header request)) := by
  refine ⟨fun cause => ?_, fun complete => ?_⟩
  · exact decodeRequest_eq_error_iff.trans (refused_iff_of_sealed spans genuine valid)
  · apply decodeRequest_of_accepted spans
    intro cause failed
    exact complete ((refused_iff_of_sealed spans genuine valid).mp failed).2

theorem answers_response {response : Frame} {request : Authenticator}
    (spans : response.Spans codec.config.maxPacketSize octets)
    (genuine : (responseChecks octets secret request).genuine response)
    (valid : response.Sealed secret request) :
    Answers (codec.decodeResponse octets secret request) (MissesSignature response.records false)
      (codec.decodeFrame response secret request) := by
  refine ⟨fun cause => ?_, fun complete => ?_⟩
  · exact decodeResponse_eq_error_iff.trans (refused_iff_of_sealed spans genuine valid)
  · apply decodeResponse_of_accepted spans
    intro cause failed
    exact complete ((refused_iff_of_sealed spans genuine valid).mp failed).2

end Exchange

section Encoding

variable {given : Option Authenticator} {request : Authenticator} {sources left : Sources}
  {encoded : EncodedRequest}

theorem encodeRequest_eq_ok
    (ran : codec.encodeRequest packet secret given sources = (.ok encoded, left)) :
    ∃ octets drawn,
      codec.encodeFrame packet secret sources.identifier
          (codec.requestHeader packet given sources.entropy).1
          (codec.requestHeader packet given sources.entropy).2 = (.ok octets, drawn) ∧
      encoded = codec.finishRequest packet secret sources.identifier
        (codec.requestHeader packet given sources.entropy).1 octets := by
  unfold encodeRequest Sources.takeIdentifier at ran
  dsimp only at ran
  rcases built : codec.encodeFrame packet secret sources.identifier
    (codec.requestHeader packet given sources.entropy).1
    (codec.requestHeader packet given sources.entropy).2 with ⟨found, drawn⟩
  rw [built] at ran
  cases found with
  | error cause => cases ran
  | ok octets =>
      cases ran
      exact ⟨octets, drawn, rfl, rfl⟩

theorem encodeResponse_eq_ok
    (ran : codec.encodeResponse packet secret identifier request sources = (.ok octets, left)) :
    ∃ unhashed drawn,
      codec.encodeFrame packet secret identifier request sources.entropy =
        (.ok unhashed, drawn) ∧
      octets = Authenticator.write unhashed
        (Authenticator.responseHash md5 unhashed request secret) := by
  unfold encodeResponse at ran
  rcases built : codec.encodeFrame packet secret identifier request sources.entropy with
    ⟨found, drawn⟩
  rw [built] at ran
  cases found with
  | error cause => cases ran
  | ok unhashed =>
      cases ran
      exact ⟨unhashed, drawn, rfl, rfl⟩

theorem finishRequest_passes {sent : List Record} {octets : Octets}
    (header_eq : (codec.requestHeader packet given sources.entropy).1 = header)
    (spans : Frame.Spans ⟨packet.code, identifier, header, sent⟩ codec.config.maxPacketSize octets)
    (valid : Frame.Sealed ⟨packet.code, identifier, header, sent⟩ secret header)
    (finished : encoded = codec.finishRequest packet secret identifier header octets) :
    Frame.Spans ⟨packet.code, encoded.identifier, encoded.authenticator, sent⟩
        codec.config.maxPacketSize encoded.octets ∧
      (codec.requestChecks encoded.octets secret).genuine
        ⟨packet.code, encoded.identifier, encoded.authenticator, sent⟩ ∧
      (codec.requestChecks encoded.octets secret).header
        ⟨packet.code, encoded.identifier, encoded.authenticator, sent⟩ = header ∧
      Frame.Sealed ⟨packet.code, encoded.identifier, encoded.authenticator, sent⟩ secret header := by
  unfold finishRequest at finished
  by_cases hashed : codec.isHashed packet.code = true
  · rw [if_pos hashed] at finished
    unfold requestHeader at header_eq
    rw [if_pos hashed] at header_eq
    simp only [Authenticator.requestHash] at finished
    have genuine := genuine_write spans (OctetField.zero 16) (congrArg EncodedRequest.octets finished)
    cases finished
    refine ⟨spans_write spans _, fun _ => genuine, ?_, sealed_write valid _⟩
    simp only [requestChecks, if_pos hashed]
    exact header_eq
  · rw [if_neg hashed] at finished
    cases finished
    refine ⟨spans, fun unhashed => absurd unhashed hashed, ?_, valid⟩
    simp only [requestChecks, if_neg hashed]

end Encoding

/-- What one side signs the other side accepts: whatever is encoded is a packet with the header it
was encoded for, and is decoded with the same codec and secret unless it needs a
Message-Authenticator that it does not have. -/
theorem encode_accepted (codec : PacketCodec) (packet : Packet) (secret : Octets) :
    (∀ given sources encoded left,
      codec.encodeRequest packet secret given sources = (.ok encoded, left) →
      ∃ lowered sent drawn,
        lowerAll ⟨md5, secret, (codec.requestHeader packet given sources.entropy).1⟩
            codec.dictionary packet.attributes
            (codec.requestHeader packet given sources.entropy).2 = (.ok lowered, drawn) ∧
        Emits packet.code encoded.identifier encoded.authenticator lowered sent encoded.octets ∧
        Answers (codec.decodeRequest encoded.octets secret)
          (MissesSignature sent codec.config.requireMessageAuthenticator)
          (codec.decodeFrame
            ⟨packet.code, encoded.identifier, encoded.authenticator, sent⟩ secret
            (codec.requestHeader packet given sources.entropy).1)) ∧
    (∀ identifier request sources octets left,
      codec.encodeResponse packet secret identifier request sources = (.ok octets, left) →
      ∃ lowered sent drawn authenticator,
        lowerAll ⟨md5, secret, request⟩ codec.dictionary packet.attributes sources.entropy =
          (.ok lowered, drawn) ∧
        Emits packet.code identifier authenticator lowered sent octets ∧
        Answers (codec.decodeResponse octets secret request) (MissesSignature sent false)
          (codec.decodeFrame ⟨packet.code, identifier, authenticator, sent⟩ secret request)) := by
  constructor
  · intro given sources encoded left ran
    obtain ⟨octets, drawn, built, finished⟩ := encodeRequest_eq_ok ran
    obtain ⟨lowered, sent, lowers, signed, spans, valid⟩ := encodeFrame_eq_ok built
    obtain ⟨written, genuine, header, sealed⟩ := finishRequest_passes rfl spans valid finished
    have answers := answers_request written genuine (by rw [header]; exact sealed)
    rw [header] at answers
    exact ⟨lowered, sent, drawn, lowers, emits_of_spans signed written, answers⟩
  · intro identifier request sources octets left ran
    obtain ⟨unhashed, drawn, built, rfl⟩ := encodeResponse_eq_ok ran
    obtain ⟨lowered, sent, lowers, signed, spans, valid⟩ := encodeFrame_eq_ok built
    have written := spans_write spans (Authenticator.responseHash md5 unhashed request secret)
    exact ⟨lowered, sent, drawn, _, lowers, emits_of_spans signed written,
      answers_response written (genuine_write spans request rfl) (sealed_write valid _)⟩

def unsignedAccounting : Packet :=
  ⟨4, [.raw ⟨1, [98], by decide⟩, .raw (MessageAuthenticator.holding (OctetField.zero 16))], none⟩

def unsignedChallenge : Packet := ⟨11, [.raw ⟨79, [1], by decide⟩], none⟩

theorem exists_of_isSome {failure value state : Type} {ran : Except failure value × state}
    (answered : ran.1.toOption.isSome = true) : ∃ found left, ran = (.ok found, left) := by
  rcases ran with ⟨result, left⟩
  cases result with
  | error cause => contradiction
  | ok found => exact ⟨found, left, rfl⟩

theorem encode_accepted_accountingAndChallenge :
    (∃ encoded left,
      (DefinitionTable.standard.codec Config.default).encodeRequest unsignedAccounting [115] none
        ⟨.cycle [], 7⟩ = (.ok encoded, left) ∧
      ∃ lowered sent drawn,
        lowerAll ⟨md5, [115], ((DefinitionTable.standard.codec Config.default).requestHeader
              unsignedAccounting none (.cycle [])).1⟩
            DefinitionTable.standard.toDictionary unsignedAccounting.attributes
            ((DefinitionTable.standard.codec Config.default).requestHeader
              unsignedAccounting none (.cycle [])).2 = (.ok lowered, drawn) ∧
        Emits 4 encoded.identifier encoded.authenticator lowered sent encoded.octets ∧
        Answers ((DefinitionTable.standard.codec Config.default).decodeRequest encoded.octets [115])
          (MissesSignature sent false)
          ((DefinitionTable.standard.codec Config.default).decodeFrame
            ⟨4, encoded.identifier, encoded.authenticator, sent⟩ [115]
            ((DefinitionTable.standard.codec Config.default).requestHeader
              unsignedAccounting none (.cycle [])).1)) ∧
    (∃ octets left,
      (DefinitionTable.standard.codec Config.default).encodeResponse unsignedChallenge [115] 7
        (OctetField.zero 16) ⟨.cycle [], 0⟩ = (.ok octets, left) ∧
      ∃ lowered sent drawn authenticator,
        lowerAll ⟨md5, [115], OctetField.zero 16⟩ DefinitionTable.standard.toDictionary
          unsignedChallenge.attributes (.cycle []) = (.ok lowered, drawn) ∧
        Emits 11 7 authenticator lowered sent octets ∧
        Answers ((DefinitionTable.standard.codec Config.default).decodeResponse octets [115]
            (OctetField.zero 16)) (MissesSignature sent false)
          ((DefinitionTable.standard.codec Config.default).decodeFrame
            ⟨11, 7, authenticator, sent⟩ [115] (OctetField.zero 16))) := by
  obtain ⟨encoded, left, requested⟩ : ∃ encoded left,
      (DefinitionTable.standard.codec Config.default).encodeRequest unsignedAccounting [115] none
        ⟨.cycle [], 7⟩ = (.ok encoded, left) :=
    exists_of_isSome (by decide +kernel)
  obtain ⟨octets, remaining, responded⟩ : ∃ octets left,
      (DefinitionTable.standard.codec Config.default).encodeResponse unsignedChallenge [115] 7
        (OctetField.zero 16) ⟨.cycle [], 0⟩ = (.ok octets, left) :=
    exists_of_isSome (by decide +kernel)
  exact ⟨⟨encoded, left, requested,
      (encode_accepted _ unsignedAccounting [115]).1 none ⟨.cycle [], 7⟩ encoded left requested⟩,
    ⟨octets, remaining, responded, (encode_accepted _ unsignedChallenge [115]).2 7
      (OctetField.zero 16) ⟨.cycle [], 0⟩ octets remaining responded⟩⟩

end PacketCodec

end Radius
