import Radius.Proofs.FrameFormat

/-!
Which packets are refused, and why. A packet is refused for what is wrong with its frame, then for
the authenticator in its header, then for its Message-Authenticator. Requests and responses are
refused for exactly these reasons, with the error of the first of them in this order.
-/

namespace Radius

namespace Frame

open MessageAuthenticator

/-- The Message-Authenticator that the frame should have: the keyed hash of its octets, with the
given header and zeros for the value. -/
def signature (frame : Frame) (secret : Octets) (header : Authenticator)
    (before behind : List Record) : Digest :=
  hmacMd5 secret
    ({ frame with authenticator := header }.signed before (OctetField.zero 16) behind).octets

def HasEapMessage (frame : Frame) : Prop :=
  ∃ record ∈ frame.records, record.type = StandardAttribute.eapMessage.type

inductive Rejected (frame : Frame) (secret : Octets) (header : Authenticator) (required : Bool) :
    PacketError → Prop
  | missigned {before behind : List Record} {value : Digest}
      (carries : frame.Carries before value behind)
      (differs : value ≠ frame.signature secret header before behind) :
      Rejected frame secret header required .messageAuthenticatorMismatch
  | unsigned (unsigned : frame.Unsigned) (needed : frame.HasEapMessage ∨ required = true) :
      Rejected frame secret header required .missingMessageAuthenticator

section Checks

variable {frame : Frame} {before behind : List Record} {value : Digest} {secret : Octets}
  {header : Authenticator} {required : Bool} {cause : PacketError} {result : Type}

theorem not_unsigned_of_carries (carries : frame.Carries before value behind) :
    ¬frame.Unsigned := by
  intro unsigned
  have member : holding value ∈ frame.records := by
    rw [carries.cut]
    exact List.mem_append_right before List.mem_cons_self
  have carried := isCarriedBy_holding value
  rw [unsigned _ member] at carried
  contradiction

theorem carries_unique {otherBefore otherBehind : List Record} {other : Digest}
    (cut : before ++ holding value :: behind = otherBefore ++ holding other :: otherBehind)
    (first : ∀ record ∈ before, isCarriedBy record = false)
    (again : ∀ record ∈ otherBefore, isCarriedBy record = false) :
    before = otherBefore ∧ value = other ∧ behind = otherBehind := by
  have bare {record : Record} {value : Digest} (same : record = holding value)
      (unsigned : isCarriedBy record = false) : False := by
    rw [same, isCarriedBy_holding] at unsigned
    contradiction
  induction before generalizing otherBefore with
  | nil =>
      cases otherBefore with
      | nil =>
          obtain ⟨same, rest⟩ := List.cons.inj cut
          exact ⟨rfl, OctetField.octets_inj.mp (congrArg Record.value same), rest⟩
      | cons front tail =>
          obtain ⟨same, -⟩ := List.cons.inj cut
          exact (bare same.symm (again front List.mem_cons_self)).elim
  | cons front tail ih =>
      cases otherBefore with
      | nil =>
          obtain ⟨same, -⟩ := List.cons.inj cut
          exact (bare same (first front List.mem_cons_self)).elim
      | cons otherFront otherTail =>
          obtain ⟨same, rest⟩ := List.cons.inj cut
          obtain ⟨alike, others⟩ := ih rest
            (fun record member => first record (List.mem_cons_of_mem front member))
            (fun record member => again record (List.mem_cons_of_mem otherFront member))
          exact ⟨by rw [same, alike], others⟩

theorem expected_eq (carries : frame.Carries before value behind) :
    expected hmacMd5 (Authenticator.write frame.octets header) secret (valueOffset before) =
      frame.signature secret header before behind := by
  have patched : Carries { frame with authenticator := header } before value behind :=
    ⟨carries.cut, carries.first⟩
  have zeros := overwrite_value patched (OctetField.zero valueLength)
  rw [expected, write_octets, zeros]
  rfl

theorem verify_iff (carries : frame.Carries before value behind) :
    verify hmacMd5 (Authenticator.write frame.octets header) secret (valueOffset before) = true ↔
      value = frame.signature secret header before behind := by
  have patched : Carries { frame with authenticator := header } before value behind :=
    ⟨carries.cut, carries.first⟩
  have field := value_of_carries patched
  have inside := congrArg List.length field
  rw [List.length_take, List.length_drop, value.length_octets] at inside
  rw [verify, expected_eq carries, write_octets, field, decide_eq_true_eq, OctetField.octets_inj]
  simp only [valueLength] at inside ⊢
  constructor
  · exact fun valid => valid.2
  · intro same
    exact ⟨by omega, same⟩

theorem check_of_carries (carries : frame.Carries before value behind) :
    PacketCodec.checkMessageAuthenticator frame.octets secret header frame =
      if value = frame.signature secret header before behind then .ok true
      else .error .messageAuthenticatorMismatch := by
  unfold PacketCodec.checkMessageAuthenticator
  rw [find?_of_carries carries]
  simp only [verify_iff carries]

theorem any_eapMessage : (frame.records.any fun record =>
      record.type = StandardAttribute.eapMessage.type) = true ↔ frame.HasEapMessage := by
  simp [HasEapMessage]

theorem check_of_unsigned (unsigned : frame.Unsigned) [Decidable frame.HasEapMessage] :
    PacketCodec.checkMessageAuthenticator frame.octets secret header frame =
      if frame.HasEapMessage then .error .missingMessageAuthenticator else .ok false := by
  unfold PacketCodec.checkMessageAuthenticator
  rw [find?_of_unsigned unsigned]
  simp only [any_eapMessage]

theorem rejected_iff_of_carries (carries : frame.Carries before value behind) :
    frame.Rejected secret header required cause ↔
      value ≠ frame.signature secret header before behind ∧
        cause = .messageAuthenticatorMismatch := by
  constructor
  · intro rejected
    cases rejected with
    | missigned again differs =>
        obtain ⟨rfl, rfl, rfl⟩ :=
          carries_unique (carries.cut.symm.trans again.cut) carries.first again.first
        exact ⟨differs, rfl⟩
    | unsigned unsigned => exact absurd unsigned (not_unsigned_of_carries carries)
  · rintro ⟨differs, rfl⟩
    exact .missigned carries differs

theorem rejected_iff_of_unsigned (unsigned : frame.Unsigned) :
    frame.Rejected secret header required cause ↔
      (frame.HasEapMessage ∨ required = true) ∧ cause = .missingMessageAuthenticator := by
  constructor
  · intro rejected
    cases rejected with
    | missigned carries => exact absurd unsigned (not_unsigned_of_carries carries)
    | unsigned _ needed => exact ⟨needed, rfl⟩
  · rintro ⟨needed, rfl⟩
    exact .unsigned unsigned needed

theorem checked_eq_error_iff {octets : Octets} {max : Nat} (spans : frame.Spans max octets)
    {found : result} :
    ((PacketCodec.checkMessageAuthenticator octets secret header frame >>= fun signed =>
        if ¬signed ∧ required then .error .missingMessageAuthenticator else .ok found) :
      Except PacketError result) = .error cause ↔
      frame.Rejected secret header required cause := by
  classical
  rw [spans.octets_eq]
  rcases carries_or_unsigned frame with ⟨before, value, behind, carries⟩ | unsigned
  · rw [check_of_carries carries, rejected_iff_of_carries carries]
    by_cases valid : value = frame.signature secret header before behind
    · simp [valid, bind, Except.bind]
    · simp [valid, bind, Except.bind, eq_comm]
  · rw [check_of_unsigned unsigned, rejected_iff_of_unsigned unsigned]
    by_cases eap : frame.HasEapMessage
    · simp [eap, bind, Except.bind, eq_comm]
    · rw [if_neg eap]
      by_cases needed : required = true
      · simp [eap, needed, bind, Except.bind, eq_comm]
      · simp [eap, needed, bind, Except.bind]

end Checks

end Frame

namespace PacketCodec

/-- What is checked in a frame: that the authenticator is genuine, and the Message-Authenticator
with the given header. -/
structure Checks where
  genuine : Frame → Prop
  mismatch : PacketError
  header : Frame → Authenticator
  required : Bool

/-- A hashed request is hashed and signed with zeros in place of its authenticator; the
authenticator of any other request is not checked. -/
def requestChecks (codec : PacketCodec) (octets secret : Octets) : Checks where
  genuine frame := codec.isHashed frame.code = true → (octets.drop 4).take 16 =
    (md5 (octets.take 4 ++ List.replicate 16 0 ++ octets.drop 20 ++ secret)).octets
  mismatch := .requestAuthenticatorMismatch
  header frame := if codec.isHashed frame.code then OctetField.zero 16 else frame.authenticator
  required := codec.config.requireMessageAuthenticator

def responseChecks (octets secret : Octets) (request : Authenticator) : Checks where
  genuine _ := (octets.drop 4).take 16 =
    (md5 (octets.take 4 ++ request.octets ++ octets.drop 20 ++ secret)).octets
  mismatch := .responseAuthenticatorMismatch
  header _ := request
  required := false

/-- Why octets are refused, with the error of the first check that they do not pass. -/
inductive Refused (codec : PacketCodec) (checks : Checks) (octets secret : Octets) :
    PacketError → Prop
  | malformed {cause : PacketError}
      (malformed : Frame.Malformed codec.config.maxPacketSize octets cause) :
      Refused codec checks octets secret cause
  | forged {frame : Frame} (spans : frame.Spans codec.config.maxPacketSize octets)
      (forged : ¬checks.genuine frame) : Refused codec checks octets secret checks.mismatch
  | rejected {frame : Frame} {cause : PacketError}
      (spans : frame.Spans codec.config.maxPacketSize octets) (genuine : checks.genuine frame)
      (rejected : frame.Rejected secret (checks.header frame) checks.required cause) :
      Refused codec checks octets secret cause

variable {codec : PacketCodec} {checks : Checks} {octets secret : Octets}
  {request : Authenticator} {frame : Frame} {cause other : PacketError} {max : Nat} {result : Type}

theorem eq_of_spans {again : Frame} (spans : frame.Spans max octets)
    (alike : again.Spans max octets) : frame = again :=
  Except.ok.inj ((Frame.read_eq_ok_iff.mpr spans).symm.trans (Frame.read_eq_ok_iff.mpr alike))

theorem eq_of_malformed (malformed : Frame.Malformed max octets cause)
    (again : Frame.Malformed max octets other) : cause = other :=
  Except.error.inj
    ((Frame.read_eq_error_iff.mpr malformed).symm.trans (Frame.read_eq_error_iff.mpr again))

theorem not_malformed_of_spans (spans : frame.Spans max octets) :
    ¬Frame.Malformed max octets cause := by
  intro malformed
  have failed := Frame.read_eq_error_iff.mpr malformed
  rw [Frame.read_eq_ok_iff.mpr spans] at failed
  contradiction

theorem verifyResponse_iff (spans : frame.Spans max octets) :
    Authenticator.verifyResponse md5 octets request secret = true ↔ (octets.drop 4).take 16 =
      (md5 (octets.take 4 ++ request.octets ++ octets.drop 20 ++ secret)).octets := by
  have long : Packet.headerLength ≤ octets.length := by
    rw [spans.octets_eq, Frame.length_octets, Frame.length]
    omega
  rw [Authenticator.verifyResponse, decide_eq_true_eq]
  constructor
  · exact fun valid => valid.2
  · exact fun genuine => ⟨long, genuine⟩

theorem refused_iff_of_malformed
    (malformed : Frame.Malformed codec.config.maxPacketSize octets other) :
    codec.Refused checks octets secret cause ↔ cause = other := by
  constructor
  · intro refused
    cases refused with
    | malformed again => exact eq_of_malformed again malformed
    | forged spans => exact absurd malformed (not_malformed_of_spans spans)
    | rejected spans => exact absurd malformed (not_malformed_of_spans spans)
  · rintro rfl
    exact .malformed malformed

theorem refused_iff_of_spans (spans : frame.Spans codec.config.maxPacketSize octets) :
    codec.Refused checks octets secret cause ↔
      ¬checks.genuine frame ∧ cause = checks.mismatch ∨
      checks.genuine frame ∧
        frame.Rejected secret (checks.header frame) checks.required cause := by
  constructor
  · intro refused
    cases refused with
    | malformed malformed => exact absurd malformed (not_malformed_of_spans spans)
    | forged again forged =>
        cases eq_of_spans spans again
        exact .inl ⟨forged, rfl⟩
    | rejected again genuine rejected =>
        cases eq_of_spans spans again
        exact .inr ⟨genuine, rejected⟩
  · rintro (⟨forged, rfl⟩ | ⟨genuine, rejected⟩)
    · exact .forged spans forged
    · exact .rejected spans genuine rejected

def authenticate (codec : PacketCodec) (checks : Checks) (genuine : Frame → Bool)
    (octets secret : Octets) (found : Frame → result) : Except PacketError result := do
  let frame ← Frame.read codec.config.maxPacketSize octets
  if ¬genuine frame then throw checks.mismatch
  let signed ← checkMessageAuthenticator octets secret (checks.header frame) frame
  if ¬signed ∧ checks.required then throw .missingMessageAuthenticator
  return found frame

theorem authenticate_eq_error_iff {genuine : Frame → Bool} {found : Frame → result}
    (decides : ∀ frame, frame.Spans codec.config.maxPacketSize octets →
      (genuine frame = true ↔ checks.genuine frame)) :
    codec.authenticate checks genuine octets secret found = .error cause ↔
      codec.Refused checks octets secret cause := by
  unfold authenticate
  cases read : Frame.read codec.config.maxPacketSize octets with
  | error other =>
      rw [refused_iff_of_malformed (Frame.read_eq_error_iff.mp read)]
      constructor
      · intro failed
        cases failed
        rfl
      · rintro rfl
        rfl
  | ok frame =>
      have spans := Frame.read_eq_ok_iff.mp read
      rw [refused_iff_of_spans spans]
      change (if ¬genuine frame then _ else _) = _ ↔ _
      by_cases passes : genuine frame = true
      · have decided := (decides frame spans).mp passes
        rw [if_neg (not_not_intro passes)]
        refine (Frame.checked_eq_error_iff spans).trans ?_
        simp [decided]
      · have forged : ¬checks.genuine frame :=
          fun decided => passes ((decides frame spans).mpr decided)
        rw [if_pos passes]
        constructor
        · intro failed
          cases failed
          exact .inl ⟨forged, rfl⟩
        · rintro (⟨-, rfl⟩ | ⟨decided, -⟩)
          · rfl
          · exact absurd decided forged

theorem of_authenticate_eq_ok {genuine : Frame → Bool} {found : Frame → result} {answer : result}
    (passed : codec.authenticate checks genuine octets secret found = .ok answer) :
    ∃ frame, Frame.Spans frame codec.config.maxPacketSize octets ∧ answer = found frame := by
  obtain ⟨frame, read, checked⟩ := Result.bind_eq_ok_iff.mp passed
  refine ⟨frame, Frame.read_eq_ok_iff.mp read, ?_⟩
  by_cases passes : genuine frame = true
  · rw [if_neg (not_not_intro passes)] at checked
    obtain ⟨signed, -, last⟩ := Result.bind_eq_ok_iff.mp checked
    by_cases missing : ¬signed ∧ checks.required
    · rw [if_pos missing] at last
      contradiction
    · rw [if_neg missing] at last
      exact (Except.ok.inj last).symm
  · rw [if_pos passes] at checked
    contradiction

theorem authenticateRequest_eq :
    codec.authenticateRequest octets secret =
      codec.authenticate (codec.requestChecks octets secret)
        (fun frame => !codec.isHashed frame.code || Authenticator.verifyRequest md5 octets secret)
        octets secret (fun frame => (frame, (codec.requestChecks octets secret).header frame)) := by
  have same (hashed valid : Bool) : (¬(!hashed || valid) = true) ↔ hashed = true ∧ ¬valid = true := by
    cases hashed <;> cases valid <;> decide
  unfold authenticateRequest authenticate
  simp only [same]
  rfl

theorem authenticateResponse_eq :
    codec.authenticateResponse octets secret request =
      codec.authenticate (responseChecks octets secret request)
        (fun _ => Authenticator.verifyResponse md5 octets request secret) octets secret id := by
  unfold authenticateResponse authenticate
  simp only [responseChecks, Bool.false_eq_true, and_false, if_false]
  rfl

theorem authenticateRequest_eq_error_iff :
    codec.authenticateRequest octets secret = .error cause ↔
      codec.Refused (codec.requestChecks octets secret) octets secret cause := by
  rw [authenticateRequest_eq]
  apply authenticate_eq_error_iff
  intro frame spans
  have verified : Authenticator.verifyRequest md5 octets secret = true ↔ (octets.drop 4).take 16 =
      (md5 (octets.take 4 ++ List.replicate 16 0 ++ octets.drop 20 ++ secret)).octets :=
    verifyResponse_iff spans
  rw [Bool.or_eq_true, verified, Bool.not_eq_true']
  cases hashed : codec.isHashed frame.code with
  | false => simp [requestChecks, hashed]
  | true => simp [requestChecks, hashed]

theorem authenticateResponse_eq_error_iff :
    codec.authenticateResponse octets secret request = .error cause ↔
      codec.Refused (responseChecks octets secret request) octets secret cause := by
  rw [authenticateResponse_eq]
  apply authenticate_eq_error_iff
  intro frame spans
  exact verifyResponse_iff spans

theorem decodeFrame_ne_error {header : Authenticator} :
    (codec.decodeFrame frame secret header).map (Except.ok : Packet → Except PacketError Packet) ≠
      .ok (.error cause) := by
  cases codec.decodeFrame frame secret header with
  | error fault => exact nofun
  | ok packet => exact nofun

theorem decodeRequest_eq_error_iff :
    codec.decodeRequest octets secret = .ok (.error cause) ↔
      codec.Refused (codec.requestChecks octets secret) octets secret cause := by
  rw [← authenticateRequest_eq_error_iff, decodeRequest]
  cases codec.authenticateRequest octets secret with
  | error other => simp
  | ok found => simp [decodeFrame_ne_error]

theorem decodeResponse_eq_error_iff :
    codec.decodeResponse octets secret request = .ok (.error cause) ↔
      codec.Refused (responseChecks octets secret request) octets secret cause := by
  rw [← authenticateResponse_eq_error_iff, decodeResponse]
  cases codec.authenticateResponse octets secret request with
  | error other => simp
  | ok found => simp [decodeFrame_ne_error]

/-- Requests and responses are refused exactly for what they are checked for, each with the error of
the first check that it does not pass. -/
theorem decode_refused_iff (codec : PacketCodec) (octets secret : Octets) (request : Authenticator)
    (cause : PacketError) :
    (codec.decodeRequest octets secret = .ok (.error cause) ↔
      codec.Refused (codec.requestChecks octets secret) octets secret cause) ∧
    (codec.decodeResponse octets secret request = .ok (.error cause) ↔
      codec.Refused (responseChecks octets secret request) octets secret cause) :=
  ⟨decodeRequest_eq_error_iff, decodeResponse_eq_error_iff⟩

end PacketCodec

end Radius
