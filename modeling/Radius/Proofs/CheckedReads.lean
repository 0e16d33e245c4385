import Radius.Proofs.AuthenticatorSearch
import Radius.Proofs.SealedField

/-!
The reads of a packet, each checked against the octets that are there. Framing and authentication
look at octets by place, cut them at places that the octets themselves name, and subtract lengths.
Here a place that is not there is a failure of its own, so that what is computed can be told from
what would stop a reader. No octets make it fail.
-/

namespace Radius

/-- A place, a range or a difference that is not there. -/
inductive Misread
  | index (place length : Nat)
  | slice (first stop length : Nat)
  | difference (left right : Nat)
  | oversized (length : Nat)
deriving DecidableEq

namespace Checked

section Accesses

variable {item : Type}

def index (items : List item) (place : Nat) : Except Misread item :=
  match items[place]? with
  | some found => .ok found
  | none => .error (.index place items.length)

def slice (items : List item) (first stop : Nat) : Except Misread (List item) :=
  if first ≤ stop ∧ stop ≤ items.length then .ok ((items.take stop).drop first)
  else .error (.slice first stop items.length)

def split (items : List item) (place : Nat) : Except Misread (List item × List item) := do
  let front ← slice items 0 place
  let back ← slice items place items.length
  return (front, back)

def minus (left right : Nat) : Except Misread Nat :=
  if right ≤ left then .ok (left - right) else .error (.difference left right)

def field (count : Nat) (octets : Octets) (first : Nat) : Except Misread (OctetField count) := do
  let part ← slice octets first (first + count)
  match OctetField.ofOctets? count part with
  | some field => return field
  | none => throw (.oversized part.length)

def overwrite (octets : Octets) (first : Nat) (patch : Octets) : Except Misread Octets := do
  let _ ← slice octets first (first + patch.length)
  return octets.overwrite first patch

variable {items rest : List item} {first count place : Nat}

theorem index_eq {found : item} (here : items[place]? = some found) :
    index items place = .ok found := by
  rw [index, here]

theorem index_of_drop {found : item} (cut : items.drop place = found :: rest) :
    index items place = .ok found :=
  index_eq (by rw [← List.head?_drop, cut, List.head?_cons])

theorem slice_add (inside : first + count ≤ items.length) :
    slice items first (first + count) = .ok ((items.drop first).take count) := by
  rw [slice, if_pos ⟨Nat.le_add_right .., inside⟩, List.drop_take, Nat.add_sub_cancel_left]

theorem slice_front (inside : place ≤ items.length) :
    slice items 0 place = .ok (items.take place) := by
  rw [slice, if_pos ⟨Nat.zero_le _, inside⟩, List.drop_zero]

theorem slice_back (inside : place ≤ items.length) :
    slice items place items.length = .ok (items.drop place) := by
  rw [slice, if_pos ⟨inside, Nat.le_refl _⟩, List.take_length]

theorem split_eq (inside : place ≤ items.length) :
    split items place = .ok (items.take place, items.drop place) := by
  rw [split, slice_front inside, slice_back inside]
  rfl

theorem minus_eq {left right : Nat} (within : right ≤ left) :
    minus left right = .ok (left - right) :=
  if_pos within

theorem overwrite_eq {octets patch : Octets} (inside : first + patch.length ≤ octets.length) :
    overwrite octets first patch = .ok (octets.overwrite first patch) := by
  rw [overwrite, slice_add inside]
  rfl

theorem field_eq {octets : Octets} (inside : first + count ≤ octets.length)
    (width : ((octets.drop first).take count).length = count) :
    field count octets first = .ok ⟨(octets.drop first).take count, width⟩ := by
  rw [field, slice_add inside]
  simp only [bind, Except.bind, OctetField.ofOctets?, dif_pos width]
  rfl

theorem field_whole {octets : Octets} (width : octets.length = count) :
    field count octets 0 = .ok ⟨octets, width⟩ := by
  subst width
  rw [field, Nat.zero_add, slice_front (Nat.le_refl _), List.take_length]
  simp only [bind, Except.bind, OctetField.ofOctets?, dite_true]
  rfl

end Accesses

section Framing

def recordAt (octets : Octets) (offset : Nat) : Except Misread (Except RecordDefect Record) := do
  let remaining := octets.length - offset
  if remaining < Record.headerLength then return .error (.headerCut remaining)
  else
    let type ← index octets offset
    let length ← index octets (offset + 1)
    if length.toNat < Record.headerLength then return .error (.lengthBelowHeader length.toNat)
    else if remaining < length.toNat then return .error (.overrun length.toNat remaining)
    else
      let count ← minus length.toNat Record.headerLength
      let value ← slice octets (offset + Record.headerLength) (offset + Record.headerLength + count)
      if fits : value.length ≤ maxRecordValue then return .ok ⟨type, value, fits⟩
      else throw (.oversized value.length)

def records (octets : Octets) (offset : Nat) : Except Misread (Except RecordFault (List Record)) :=
  if _inside : offset < octets.length then do
    match ← recordAt octets offset with
    | .error defect => return .error ⟨offset, defect⟩
    | .ok record =>
        let later ← records octets (offset + record.encodedLength)
        return later.map (record :: ·)
  else return .ok []
termination_by octets.length - offset
decreasing_by
  rw [Record.encodedLength, Record.headerLength]
  omega

def frame (max : Nat) (octets : Octets) : Except Misread (Except PacketError Frame) := do
  if octets.length < Packet.headerLength then return .error (.invalidLength octets.length)
  else if max < octets.length then return .error (.packetTooLarge octets.length max)
  else
    let header ← slice octets 0 4
    let declared := Octets.ofBigEndian [← index header 2, ← index header 3]
    if declared < Packet.headerLength then return .error (.invalidLength declared)
    else if declared ≠ octets.length then return .error (.lengthMismatch declared octets.length)
    else
      let authenticator ← field 16 octets 4
      match ← records octets Packet.headerLength with
      | .error fault => return .error (.malformedAttribute fault)
      | .ok records => return .ok ⟨← index header 0, ← index header 1, authenticator, records⟩

variable {octets rest : Octets} {type length : UInt8} {offset : Nat}

theorem recordAt_of_header (cut : octets.drop offset = type :: length :: rest) :
    recordAt octets offset =
      if length.toNat < Record.headerLength then .ok (.error (.lengthBelowHeader length.toNat))
      else if Record.headerLength + rest.length < length.toNat then
        .ok (.error (.overrun length.toNat (Record.headerLength + rest.length)))
      else
        .ok (.ok ⟨type, rest.take (length.toNat - Record.headerLength),
          Record.length_take_le length rest⟩) := by
  have behind : octets.drop (offset + 1) = length :: rest := by
    rw [← List.drop_drop, cut, List.drop_succ_cons, List.drop_zero]
  have beyond : octets.drop (offset + Record.headerLength) = rest := by
    rw [← List.drop_drop, cut]
    rfl
  have total := congrArg List.length cut
  rw [List.length_drop, List.length_cons, List.length_cons] at total
  have remaining : octets.length - offset = Record.headerLength + rest.length := by
    rw [total, Record.headerLength, Nat.add_comm 2]
  simp only [recordAt, remaining, index_of_drop cut, index_of_drop behind, bind, Except.bind]
  rw [if_neg (by omega)]
  split
  · rfl
  · rename_i enough
    split
    · rfl
    · rename_i within
      have value : slice octets (offset + Record.headerLength)
          (offset + Record.headerLength + (length.toNat - Record.headerLength)) =
            .ok (rest.take (length.toNat - Record.headerLength)) := by
        rw [slice_add (by omega), beyond]
      rw [minus_eq (Nat.not_lt.mp enough)]
      simp only [value, dif_pos (Record.length_take_le length rest)]
      rfl

theorem recordAt_eq (octets : Octets) (offset : Nat) :
    recordAt octets offset = .ok ((Record.read (octets.drop offset)).map Prod.fst) := by
  cases found : Record.read (octets.drop offset) with
  | error defect =>
      have broken := Record.read_eq_error_iff.mp found
      generalize cut : octets.drop offset = left at broken
      cases broken with
      | cut short =>
          rw [← cut, List.length_drop] at short ⊢
          simp only [recordAt, if_pos short]
          rfl
      | below low => rw [recordAt_of_header cut, if_pos low]; rfl
      | overrun enough beyond =>
          rw [recordAt_of_header cut, if_neg (Nat.not_lt.mpr enough), if_pos beyond]
          rfl
  | ok result =>
      obtain ⟨record, rest⟩ := result
      have cut : octets.drop offset =
          record.type :: UInt8.ofNat record.encodedLength :: (record.value ++ rest) :=
        (Record.octets_of_read found).symm
      have counted : (UInt8.ofNat record.encodedLength).toNat =
          Record.headerLength + record.value.length := record.length_octet
      have value : (record.value ++ rest).take
          ((UInt8.ofNat record.encodedLength).toNat - Record.headerLength) = record.value := by
        rw [counted, Nat.add_sub_cancel_left, List.take_left]
      have total : (record.value ++ rest).length = record.value.length + rest.length :=
        List.length_append
      rw [recordAt_of_header cut, if_neg (by omega), if_neg (by omega)]
      simp only [value, Except.map]

/-- No record is read past the end, and the records are those that the octets from the place on are
read as. -/
theorem records_eq (octets : Octets) (offset : Nat) :
    records octets offset = .ok (Record.readAll offset (octets.drop offset)) := by
  -- on the octets left, of which a record takes two at least
  induction size : octets.length - offset using Nat.strongRecOn generalizing offset with
  | ind bound ih =>
      rw [records]
      by_cases inside : offset < octets.length
      · obtain ⟨first, later, cut⟩ : ∃ first later, octets.drop offset = first :: later := by
          apply List.exists_cons_of_ne_nil
          rw [Ne, List.drop_eq_nil_iff]
          omega
        rw [dif_pos inside, recordAt_eq, cut, Record.readAll_cons]
        cases found : Record.read (first :: later) with
        | error defect => rfl
        | ok result =>
            obtain ⟨record, rest⟩ := result
            have behind : octets.drop (offset + record.encodedLength) = rest := by
              rw [← List.drop_drop, cut, ← Record.octets_of_read found,
                List.drop_left' record.length_octets]
            have shorter : octets.length - (offset + record.encodedLength) < bound := by
              simp only [Record.encodedLength, Record.headerLength]
              omega
            simp only [Except.map, bind, Except.bind]
            rw [ih _ shorter _ rfl, behind]
            cases Record.readAll (offset + record.encodedLength) rest with
            | error fault => rfl
            | ok later => rfl
      · rw [dif_neg inside, List.drop_eq_nil_of_le (Nat.not_lt.mp inside), Record.readAll]
        rfl

theorem frame_eq (max : Nat) (octets : Octets) : frame max octets = .ok (Frame.read max octets) := by
  rw [frame, Frame.read]
  by_cases short : octets.length < Packet.headerLength
  · rw [if_pos short, dif_neg (Nat.not_le.mpr short)]
    rfl
  have long := Nat.not_lt.mp short
  rw [if_neg short, dif_pos long]
  by_cases large : max < octets.length
  · rw [if_pos large, if_pos large]
    rfl
  rw [if_neg large, if_neg large]
  have sixteen : 4 + 16 ≤ octets.length := long
  rcases octets with - | ⟨code, - | ⟨identifier, - | ⟨high, - | ⟨low, rest⟩⟩⟩⟩
  case cons.cons.cons.cons =>
    have header : slice (code :: identifier :: high :: low :: rest) 0 4 =
        .ok [code, identifier, high, low] := slice_front (by simp)
    have first : index [code, identifier, high, low] 0 = .ok code := rfl
    have second : index [code, identifier, high, low] 1 = .ok identifier := rfl
    have third : index [code, identifier, high, low] 2 = .ok high := rfl
    have fourth : index [code, identifier, high, low] 3 = .ok low := rfl
    have declared : Frame.declaredLength (code :: identifier :: high :: low :: rest) =
        Octets.ofBigEndian [high, low] := rfl
    simp only [header, first, second, third, fourth, bind, Except.bind, declared]
    split
    · rfl
    · split
      · rfl
      · have width := (Frame.authenticatorOf _ long).length_octets
        rw [field_eq sixteen width, records_eq]
        cases Record.readAll Packet.headerLength
            ((code :: identifier :: high :: low :: rest).drop Packet.headerLength) with
        | error fault => rfl
        | ok records => rfl
  all_goals contradiction

end Framing

section Authentication

def responseHash (octets : Octets) (request : Authenticator) (secret : Octets) :
    Except Misread Digest := do
  let front ← slice octets 0 Authenticator.offset
  let behind ← slice octets Packet.headerLength octets.length
  return md5 (front ++ request.octets ++ behind ++ secret)

def verifyResponse (octets : Octets) (request : Authenticator) (secret : Octets) :
    Except Misread Bool := do
  if octets.length < Packet.headerLength then return false
  else
    let expected ← responseHash octets request secret
    let found ← slice octets Authenticator.offset (Authenticator.offset + 16)
    return found = expected.octets

def verifySignature (octets secret : Octets) (offset : Nat) : Except Misread Bool := do
  let stop := offset + MessageAuthenticator.valueLength
  if octets.length < stop then return false
  else
    let cleared ← overwrite octets offset (OctetField.zero MessageAuthenticator.valueLength).octets
    let found ← slice octets offset stop
    return found = (hmacMd5 secret cleared).octets

def checkMessageAuthenticator (octets secret : Octets) (header : Authenticator) (frame : Frame) :
    Except Misread (Except PacketError Bool) := do
  let place ← (MessageAuthenticator.walk octets Packet.headerLength).mapError
    fun outside => Misread.index outside.place octets.length
  match place with
  | none =>
      if frame.records.any fun record => record.type = StandardAttribute.eapMessage.type then
        return .error .missingMessageAuthenticator
      else return .ok false
  | some offset =>
      let copy ← overwrite octets Authenticator.offset header.octets
      if ← verifySignature copy secret offset then return .ok true
      else return .error .messageAuthenticatorMismatch

variable (codec : PacketCodec)

def authenticateRequest (octets secret : Octets) :
    Except Misread (Except PacketError (Frame × Authenticator)) := do
  match ← frame codec.config.maxPacketSize octets with
  | .error cause => return .error cause
  | .ok frame =>
      let hashed := codec.isHashed frame.code
      let genuine ← if hashed then verifyResponse octets (OctetField.zero 16) secret else pure true
      if ¬genuine then return .error .requestAuthenticatorMismatch
      else
        let header := if hashed then OctetField.zero 16 else frame.authenticator
        match ← checkMessageAuthenticator octets secret header frame with
        | .error cause => return .error cause
        | .ok signed =>
            if ¬signed ∧ codec.config.requireMessageAuthenticator then
              return .error .missingMessageAuthenticator
            else return .ok (frame, header)

def authenticateResponse (octets secret : Octets) (request : Authenticator) :
    Except Misread (Except PacketError Frame) := do
  match ← frame codec.config.maxPacketSize octets with
  | .error cause => return .error cause
  | .ok frame =>
      let genuine ← verifyResponse octets request secret
      if ¬genuine then return .error .responseAuthenticatorMismatch
      else
        match ← checkMessageAuthenticator octets secret request frame with
        | .error cause => return .error cause
        | .ok _ => return .ok frame

variable {octets : Octets} (secret : Octets) (request : Authenticator)

theorem responseHash_eq (long : Packet.headerLength ≤ octets.length) :
    responseHash octets request secret =
      .ok (Authenticator.responseHash md5 octets request secret) := by
  rw [responseHash, slice_front (Nat.le_trans (by decide) long), slice_back long]
  rfl

theorem verifyResponse_eq :
    verifyResponse octets request secret =
      .ok (Authenticator.verifyResponse md5 octets request secret) := by
  rw [verifyResponse, Authenticator.verifyResponse]
  by_cases short : octets.length < Packet.headerLength
  · rw [if_pos short, decide_eq_false (fun whole => Nat.not_le.mpr short whole.1)]
    rfl
  · have long := Nat.not_lt.mp short
    have found : slice octets Authenticator.offset (Authenticator.offset + 16) =
        .ok (Authenticator.field octets) := slice_add long
    rw [if_neg short, responseHash_eq secret request long, found]
    simp only [bind, Except.bind, pure, Except.pure, long, true_and]

theorem verifySignature_eq (offset : Nat) :
    verifySignature octets secret offset =
      .ok (MessageAuthenticator.verify hmacMd5 octets secret offset) := by
  simp only [verifySignature, MessageAuthenticator.verify]
  by_cases short : octets.length < offset + MessageAuthenticator.valueLength
  · rw [if_pos short, decide_eq_false (fun whole => Nat.not_le.mpr short whole.1)]
    rfl
  · have inside := Nat.not_lt.mp short
    rw [if_neg short, overwrite_eq inside, slice_add inside]
    simp only [bind, Except.bind, pure, Except.pure, inside, true_and]
    rfl

theorem checkMessageAuthenticator_eq (long : Packet.headerLength ≤ octets.length)
    (header : Authenticator) (frame : Frame) :
    checkMessageAuthenticator octets secret header frame =
      .ok (PacketCodec.checkMessageAuthenticator octets secret header frame) := by
  have searched : MessageAuthenticator.walk octets Packet.headerLength =
      .ok (MessageAuthenticator.find? octets) := MessageAuthenticator.walk_eq octets _
  have written : overwrite octets Authenticator.offset header.octets =
      .ok (Authenticator.write octets header) := by
    apply overwrite_eq
    rw [header.length_octets]
    exact long
  rw [checkMessageAuthenticator, PacketCodec.checkMessageAuthenticator, searched]
  simp only [Except.mapError, bind, Except.bind]
  cases MessageAuthenticator.find? octets with
  | none =>
      dsimp only
      split
      · rfl
      · rfl
  | some offset =>
      simp only [written, verifySignature_eq]
      split
      · rfl
      · rfl

theorem length_of_read {max : Nat} {found : Frame} (read : Frame.read max octets = .ok found) :
    Packet.headerLength ≤ octets.length := by
  rw [(Frame.read_eq_ok_iff.mp read).octets_eq, Frame.length_octets, Frame.length]
  exact Nat.le_add_right ..

theorem authenticateRequest_eq :
    authenticateRequest codec octets secret = .ok (codec.authenticateRequest octets secret) := by
  rw [authenticateRequest, PacketCodec.authenticateRequest, frame_eq]
  cases read : Frame.read codec.config.maxPacketSize octets with
  | error cause => rfl
  | ok found =>
      have long := length_of_read read
      simp only [bind, Except.bind]
      cases codec.isHashed found.code with
      | false =>
          simp only [pure, Except.pure, Bool.false_eq_true, if_false, false_and,
            checkMessageAuthenticator_eq secret long]
          cases PacketCodec.checkMessageAuthenticator octets secret found.authenticator found with
          | error cause => rfl
          | ok signed => cases signed <;> cases codec.config.requireMessageAuthenticator <;> rfl
      | true =>
          simp only [if_true, verifyResponse_eq, true_and, Authenticator.verifyRequest,
            checkMessageAuthenticator_eq secret long]
          cases Authenticator.verifyResponse md5 octets (OctetField.zero 16) secret with
          | false => rfl
          | true =>
              cases PacketCodec.checkMessageAuthenticator octets secret (OctetField.zero 16)
                found with
              | error cause => rfl
              | ok signed => cases signed <;> cases codec.config.requireMessageAuthenticator <;> rfl

theorem authenticateResponse_eq :
    authenticateResponse codec octets secret request =
      .ok (codec.authenticateResponse octets secret request) := by
  rw [authenticateResponse, PacketCodec.authenticateResponse, frame_eq]
  cases read : Frame.read codec.config.maxPacketSize octets with
  | error cause => rfl
  | ok found =>
      have long := length_of_read read
      simp only [bind, Except.bind, verifyResponse_eq, checkMessageAuthenticator_eq secret long]
      cases Authenticator.verifyResponse md5 octets request secret with
      | false => rfl
      | true =>
          cases PacketCodec.checkMessageAuthenticator octets secret request found with
          | error cause => rfl
          | ok signed => rfl

end Authentication

end Checked

end Radius
