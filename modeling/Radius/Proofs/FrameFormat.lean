import Radius.Packet.Codec
import Radius.Proofs.Computation

/-!
The format of a frame. Octets are read as a frame exactly if they are the octets of one that is
within the limits, and the error for all others names the first thing that is wrong. A field that is
overwritten in the octets is changed in the frame, and the Message-Authenticator that is found in the
octets is the first record in the frame that carries one.
-/

namespace Radius

namespace Octets

theorem overwrite_append (front field behind patch : Octets) (same : field.length = patch.length) :
    overwrite (front ++ (field ++ behind)) front.length patch = front ++ (patch ++ behind) := by
  rw [overwrite, List.take_left, ← List.drop_drop, List.drop_left, ← same, List.drop_left,
    List.append_assoc]

end Octets

namespace Record

inductive Broken : Octets → RecordDefect → Prop
  | cut {octets : Octets} (short : octets.length < headerLength) :
      Broken octets (.headerCut octets.length)
  | below {type length : UInt8} {rest : Octets} (low : length.toNat < headerLength) :
      Broken (type :: length :: rest) (.lengthBelowHeader length.toNat)
  | overrun {type length : UInt8} {rest : Octets} (enough : headerLength ≤ length.toNat)
      (beyond : headerLength + rest.length < length.toNat) :
      Broken (type :: length :: rest) (.overrun length.toNat (headerLength + rest.length))

theorem read_eq_error_iff {octets : Octets} {defect : RecordDefect} :
    read octets = .error defect ↔ Broken octets defect := by
  constructor
  · intro failed
    rcases octets with - | ⟨type, - | ⟨length, rest⟩⟩
    · cases failed
      exact .cut (by decide)
    · cases failed
      exact .cut (by simp [headerLength] : [type].length < headerLength)
    · simp only [read] at failed
      split at failed
      · rename_i low
        cases failed
        exact .below low
      · rename_i enough
        split at failed
        · rename_i beyond
          cases failed
          rw [List.length_take] at beyond
          exact .overrun (by omega) (by omega)
        · contradiction
  · intro broken
    cases broken with
    | cut short =>
        rcases octets with - | ⟨type, - | ⟨length, rest⟩⟩
        · rfl
        · rfl
        · rw [List.length_cons, List.length_cons, headerLength] at short
          omega
    | below low => simp only [read, if_pos low]
    | @overrun type length rest enough beyond =>
        have few : headerLength + (rest.take (length.toNat - headerLength)).length <
            length.toNat := by
          rw [List.length_take]
          omega
        simp only [read, if_neg (Nat.not_lt.mpr enough), if_pos few]

theorem writeAll_append (front behind : List Record) :
    writeAll (front ++ behind) = writeAll front ++ writeAll behind :=
  List.flatMap_append

theorem readAll_cons (offset : Nat) (first : UInt8) (later : Octets) :
    readAll offset (first :: later) =
      match read (first :: later) with
      | .error defect => .error ⟨offset, defect⟩
      | .ok (record, rest) => do
          let records ← readAll (offset + record.encodedLength) rest
          return record :: records := by
  rw [readAll]
  split
  · rename_i defect failed
    rw [failed]
  · rename_i record rest found
    rw [found]

theorem readAll_eq_error_iff {offset : Nat} {octets : Octets} {fault : RecordFault} :
    readAll offset octets = .error fault ↔
      ∃ before rest defect, octets = writeAll before ++ rest ∧ rest ≠ [] ∧ Broken rest defect ∧
        fault = ⟨offset + totalLength before, defect⟩ := by
  constructor
  · intro failed
    fun_induction readAll offset octets with
    | case1 => contradiction
    | case2 offset first later defect broken =>
        cases failed
        exact ⟨[], first :: later, defect, rfl, List.cons_ne_nil _ _,
          read_eq_error_iff.mp broken, rfl⟩
    | case3 offset first later record rest found ih =>
        rcases Result.bind_eq_error_iff.mp failed with failed | ⟨records, -, finished⟩
        · obtain ⟨before, behind, defect, rfl, nonempty, broken, rfl⟩ := ih failed
          refine ⟨record :: before, behind, defect, ?_, nonempty, broken, ?_⟩
          · rw [← octets_of_read found, ← List.append_assoc]
            rfl
          · have head : writeAll (record :: before) = record.octets ++ writeAll before := rfl
            rw [totalLength, totalLength, head, List.length_append, length_octets, Nat.add_assoc]
        · contradiction
  · rintro ⟨before, rest, defect, rfl, nonempty, broken, rfl⟩
    induction before generalizing offset with
    | nil =>
        obtain ⟨first, later, rfl⟩ := List.exists_cons_of_ne_nil nonempty
        rw [writeAll, List.flatMap_nil, List.nil_append, readAll_cons,
          read_eq_error_iff.mpr broken]
        rfl
    | cons record before ih =>
        have head : writeAll (record :: before) = record.octets ++ writeAll before := rfl
        have front := read_octets record (writeAll before ++ rest)
        rw [totalLength, head, List.append_assoc, List.length_append, length_octets]
        simp only [octets, List.cons_append] at front ⊢
        rw [readAll_cons, front]
        dsimp only
        rw [ih, Nat.add_assoc]
        rfl

end Record

namespace Frame

def header (frame : Frame) : Octets :=
  frame.code :: frame.identifier ::
    (Octets.bigEndian 2 frame.length ++ frame.authenticator.octets)

theorem octets_eq_header (frame : Frame) :
    frame.octets = frame.header ++ Record.writeAll frame.records := rfl

theorem length_header (frame : Frame) : frame.header.length = Packet.headerLength := by
  simp [header, Packet.headerLength, frame.authenticator.length_octets]

theorem length_octets (frame : Frame) : frame.octets.length = frame.length := by
  rw [octets_eq_header, List.length_append, length_header]
  rfl

structure Spans (frame : Frame) (max : Nat) (octets : Octets) : Prop where
  octets_eq : octets = frame.octets
  within : frame.length ≤ max
  counted : frame.length ≤ maxLength

/-- The octets are those of no frame, and the error is that of the first thing that is wrong. -/
inductive Malformed (max : Nat) (octets : Octets) : PacketError → Prop
  | short (short : octets.length < Packet.headerLength) :
      Malformed max octets (.invalidLength octets.length)
  | large (long : Packet.headerLength ≤ octets.length) (large : max < octets.length) :
      Malformed max octets (.packetTooLarge octets.length max)
  | declaresShort (long : Packet.headerLength ≤ octets.length) (within : octets.length ≤ max)
      (short : declaredLength octets < Packet.headerLength) :
      Malformed max octets (.invalidLength (declaredLength octets))
  | declaresOther (long : Packet.headerLength ≤ octets.length) (within : octets.length ≤ max)
      (enough : Packet.headerLength ≤ declaredLength octets)
      (other : declaredLength octets ≠ octets.length) :
      Malformed max octets (.lengthMismatch (declaredLength octets) octets.length)
  | record (long : Packet.headerLength ≤ octets.length) (within : octets.length ≤ max)
      (declared : declaredLength octets = octets.length) {before : List Record} {rest : Octets}
      {defect : RecordDefect}
      (records : octets.drop Packet.headerLength = Record.writeAll before ++ rest)
      (nonempty : rest ≠ []) (broken : Record.Broken rest defect) :
      Malformed max octets (.malformedAttribute
        ⟨Packet.headerLength + Record.totalLength before, defect⟩)

section Reading

variable {frame : Frame} {max : Nat} {octets : Octets} {cause : PacketError}

theorem declaredLength_octets (counted : frame.length ≤ maxLength) :
    declaredLength frame.octets = frame.length := by
  have field : (frame.octets.drop 2).take 2 = Octets.bigEndian 2 frame.length := by
    rw [Frame.octets, List.drop_succ_cons, List.drop_succ_cons, List.drop_zero, List.append_assoc,
      List.take_left' (Octets.length_bigEndian ..)]
  rw [declaredLength, field, Octets.ofBigEndian_bigEndian]
  apply Nat.mod_eq_of_lt
  simp only [maxLength] at counted
  simp only [Octets.weight]
  omega

theorem drop_octets (frame : Frame) :
    frame.octets.drop Packet.headerLength = Record.writeAll frame.records := by
  rw [octets_eq_header, ← length_header frame, List.drop_left]

theorem octets_split (frame : Frame) :
    frame.octets = (frame.code :: frame.identifier :: Octets.bigEndian 2 frame.length) ++
      (frame.authenticator.octets ++ Record.writeAll frame.records) := by
  rw [octets, List.append_assoc]
  rfl

theorem length_front (frame : Frame) :
    (frame.code :: frame.identifier :: Octets.bigEndian 2 frame.length).length = 4 := by
  simp

theorem take_octets (frame : Frame) :
    frame.octets.take 4 = frame.code :: frame.identifier :: Octets.bigEndian 2 frame.length := by
  rw [octets_split, List.take_left' frame.length_front]

theorem field_octets (frame : Frame) :
    (frame.octets.drop 4).take 16 = frame.authenticator.octets := by
  rw [octets_split, List.drop_left' frame.length_front,
    List.take_left' frame.authenticator.length_octets]

theorem authenticatorOf_octets (frame : Frame)
    (long : Packet.headerLength ≤ frame.octets.length) :
    authenticatorOf frame.octets long = frame.authenticator := by
  have field := frame.field_octets
  cases authentic : frame.authenticator with
  | mk expected exact =>
      rw [authentic] at field
      simp only [authenticatorOf, field]

theorem read_octets (within : frame.length ≤ max) (counted : frame.length ≤ maxLength) :
    read max frame.octets = .ok frame := by
  have total := length_octets frame
  have long : Packet.headerLength ≤ frame.octets.length := by
    rw [total, length]
    omega
  have declared := declaredLength_octets counted
  unfold read
  rw [dif_pos long, if_neg (by omega), if_neg (by omega), if_neg (by omega), drop_octets,
    Record.readAll_writeAll, authenticatorOf_octets]
  rfl

theorem octets_of_fields (long : Packet.headerLength ≤ octets.length)
    (declared : declaredLength octets = octets.length) {records : List Record}
    (split : octets.drop Packet.headerLength = Record.writeAll records) :
    octets = Frame.octets ⟨octets.getD 0 0, octets.getD 1 0, authenticatorOf octets long, records⟩ := by
  match octets, long with
  | code :: identifier :: first :: second :: rest, long =>
      have behind : rest.drop 16 = Record.writeAll records := split
      have total : (code :: identifier :: first :: second :: rest).length =
          Packet.headerLength + Record.totalLength records := by
        rw [Record.totalLength, ← split, List.length_drop]
        omega
      have field : Octets.bigEndian 2 (Packet.headerLength + Record.totalLength records) =
          [first, second] := by
        rw [← total, ← declared]
        exact Octets.bigEndian_ofBigEndian [first, second]
      simp only [Frame.octets, length, field, ← behind, authenticatorOf, List.drop_succ_cons,
        List.drop_zero, List.cons_append, List.nil_append, List.take_append_drop]
      rfl

theorem read_eq_ok_iff : read max octets = .ok frame ↔ frame.Spans max octets := by
  constructor
  · intro found
    unfold read at found
    split at found
    · rename_i long
      split at found
      · contradiction
      · rename_i within
        split at found
        · contradiction
        · rename_i enough
          split at found
          · contradiction
          · rename_i declared
            have exact := Decidable.of_not_not declared
            obtain ⟨records, split, built⟩ := Result.bind_eq_ok_iff.mp found
            have whole := Record.writeAll_of_readAll (Result.mapError_eq_ok_iff.mp split)
            cases built
            have same := octets_of_fields long exact whole.symm
            have total := (congrArg List.length same).trans (length_octets _)
            have small : declaredLength octets < Octets.weight ((octets.drop 2).take 2).length :=
              Octets.ofBigEndian_lt _
            rw [List.length_take, List.length_drop, Nat.min_eq_left] at small
            · simp only [Octets.weight] at small
              exact ⟨same, by omega, by simp only [maxLength]; omega⟩
            · simp only [Packet.headerLength] at long
              omega
    · contradiction
  · rintro ⟨rfl, within, counted⟩
    exact read_octets within counted

theorem write_eq_ok_iff :
    write max frame = .ok octets ↔
      frame.length ≤ max ∧ frame.length ≤ maxLength ∧ octets = frame.octets := by
  unfold write
  by_cases large : max < frame.length
  · rw [if_pos large]
    simp [Nat.not_le.mpr large]
  · rw [if_neg large]
    by_cases uncounted : maxLength < frame.length
    · rw [if_pos uncounted]
      simp [Nat.not_le.mpr uncounted]
    · rw [if_neg uncounted]
      simp [Nat.not_lt.mp large, Nat.not_lt.mp uncounted, eq_comm]

theorem read_eq_error_iff : read max octets = .error cause ↔ Malformed max octets cause := by
  constructor
  · intro failed
    unfold read at failed
    split at failed
    · rename_i long
      split at failed
      · rename_i large
        cases failed
        exact .large long large
      · rename_i within
        rw [Nat.not_lt] at within
        split at failed
        · rename_i short
          cases failed
          exact .declaresShort long within short
        · rename_i enough
          rw [Nat.not_lt] at enough
          split at failed
          · rename_i other
            cases failed
            exact .declaresOther long within enough other
          · rename_i declared
            rcases Result.bind_eq_error_iff.mp failed with failed | ⟨records, -, finished⟩
            · obtain ⟨fault, unread, rfl⟩ := Result.mapError_eq_error_iff.mp failed
              obtain ⟨before, rest, defect, split, nonempty, broken, rfl⟩ :=
                Record.readAll_eq_error_iff.mp unread
              exact .record long within (Decidable.of_not_not declared) split nonempty broken
            · contradiction
    · rename_i short
      cases failed
      exact .short (Nat.not_le.mp short)
  · intro malformed
    unfold read
    cases malformed with
    | short short => rw [dif_neg (Nat.not_le.mpr short)]
    | large long large => rw [dif_pos long, if_pos large]
    | declaresShort long within short =>
        rw [dif_pos long, if_neg (Nat.not_lt.mpr within), if_pos short]
    | declaresOther long within enough other =>
        rw [dif_pos long, if_neg (Nat.not_lt.mpr within), if_neg (Nat.not_lt.mpr enough),
          if_pos other]
    | @record long within declared before rest defect split nonempty broken =>
        have unread : Record.readAll Packet.headerLength (octets.drop Packet.headerLength) =
            .error ⟨Packet.headerLength + Record.totalLength before, defect⟩ :=
          Record.readAll_eq_error_iff.mpr ⟨before, rest, defect, split, nonempty, broken, rfl⟩
        rw [dif_pos long, if_neg (Nat.not_lt.mpr within), if_neg (by omega), if_neg (by omega),
          unread]
        rfl

end Reading

end Frame

namespace MessageAuthenticator

def holding (value : Digest) : Record :=
  ⟨StandardAttribute.messageAuthenticator.type, value.octets, by
    rw [value.length_octets]
    decide⟩

theorem isCarriedBy_holding (value : Digest) : isCarriedBy (holding value) = true := by
  simp [isCarriedBy, holding, valueLength, value.length_octets]

theorem exists_of_isCarriedBy {record : Record} (carried : isCarriedBy record = true) :
    ∃ value, record = holding value := by
  cases record with
  | mk type value fits =>
      simp only [isCarriedBy, Bool.decide_and, Bool.and_eq_true, decide_eq_true_eq] at carried
      obtain ⟨rfl, exact⟩ := carried
      exact ⟨⟨value, exact⟩, rfl⟩

theorem octets_holding (value : Digest) :
    (holding value).octets = [StandardAttribute.messageAuthenticator.type, 18] ++ value.octets := by
  simp [holding, Record.octets, Record.encodedLength, Record.headerLength, value.length_octets]

theorem findFrom?_octets (offset : Nat) (record : Record) (rest : Octets) :
    findFrom? offset (record.octets ++ rest) =
      if isCarriedBy record then some (offset + Record.headerLength)
      else findFrom? (offset + record.encodedLength) rest := by
  rw [findFrom?]
  split
  · rename_i unread
    rw [Record.read_octets] at unread
    contradiction
  · rename_i found
    rw [Record.read_octets] at found
    cases found
    rfl

theorem findFrom?_writeAll_none {records : List Record}
    (unsigned : ∀ record ∈ records, isCarriedBy record = false) (offset : Nat) :
    findFrom? offset (Record.writeAll records) = none := by
  induction records generalizing offset with
  | nil =>
      rw [Record.writeAll, List.flatMap_nil, findFrom?]
      rfl
  | cons record records ih =>
      have head : Record.writeAll (record :: records) = record.octets ++ Record.writeAll records := rfl
      have bare := unsigned record List.mem_cons_self
      rw [head, findFrom?_octets, bare]
      exact ih (fun other member => unsigned other (List.mem_cons_of_mem record member)) _

theorem findFrom?_writeAll_some {before : List Record}
    (first : ∀ record ∈ before, isCarriedBy record = false) (value : Digest)
    (behind : List Record) (offset : Nat) :
    findFrom? offset (Record.writeAll (before ++ holding value :: behind)) =
      some (offset + Record.totalLength before + Record.headerLength) := by
  induction before generalizing offset with
  | nil =>
      have head : Record.writeAll (holding value :: behind) =
          (holding value).octets ++ Record.writeAll behind := rfl
      rw [List.nil_append, head, findFrom?_octets, isCarriedBy_holding]
      rfl
  | cons record before ih =>
      have head : Record.writeAll (record :: before ++ holding value :: behind) =
          record.octets ++ Record.writeAll (before ++ holding value :: behind) := rfl
      have length : Record.totalLength (record :: before) =
          record.encodedLength + Record.totalLength before := by
        rw [Record.totalLength, Record.totalLength, ← Record.length_octets, ← List.length_append]
        rfl
      have bare := first record List.mem_cons_self
      rw [head, findFrom?_octets, bare, length, ← Nat.add_assoc]
      exact ih (fun other member => first other (List.mem_cons_of_mem record member)) _

end MessageAuthenticator

namespace Frame

open MessageAuthenticator

variable {frame : Frame} {before behind : List Record} {value other : Digest}

/-- The first record that carries a Message-Authenticator, and the value that it carries. -/
structure Carries (frame : Frame) (before : List Record) (value : Digest) (behind : List Record) :
    Prop where
  cut : frame.records = before ++ holding value :: behind
  first : ∀ record ∈ before, isCarriedBy record = false

def Unsigned (frame : Frame) : Prop := ∀ record ∈ frame.records, isCarriedBy record = false

theorem carries_or_unsigned (frame : Frame) :
    (∃ before value behind, frame.Carries before value behind) ∨ frame.Unsigned := by
  cases found : frame.records.find? isCarriedBy with
  | none =>
      refine .inr fun record member => ?_
      simpa using List.find?_eq_none.mp found record member
  | some record =>
      obtain ⟨carried, before, behind, cut, first⟩ := List.find?_eq_some_iff_append.mp found
      obtain ⟨value, rfl⟩ := exists_of_isCarriedBy carried
      exact .inl ⟨before, value, behind, cut, fun other member => by simpa using first other member⟩

def valueOffset (before : List Record) : Nat :=
  Packet.headerLength + Record.totalLength before + Record.headerLength

theorem find?_of_carries (carries : frame.Carries before value behind) :
    find? frame.octets = some (valueOffset before) := by
  rw [find?, drop_octets, carries.cut, findFrom?_writeAll_some carries.first]
  rfl

theorem find?_of_unsigned (unsigned : frame.Unsigned) : find? frame.octets = none := by
  rw [find?, drop_octets, findFrom?_writeAll_none unsigned]

def signed (frame : Frame) (before : List Record) (value : Digest) (behind : List Record) : Frame :=
  { frame with records := before ++ holding value :: behind }

theorem octets_signed (frame : Frame) (before behind : List Record) :
    ∃ front : Octets, front.length = valueOffset before ∧ ∀ value : Digest,
      (frame.signed before value behind).octets =
        front ++ (value.octets ++ Record.writeAll behind) := by
  have length (value : Digest) : (frame.signed before value behind).length =
      (frame.signed before (OctetField.zero 16) behind).length := by
    simp [signed, Frame.length, Record.totalLength, Record.writeAll, octets_holding,
      OctetField.length_octets]
  have header (value : Digest) : (frame.signed before value behind).header =
      (frame.signed before (OctetField.zero 16) behind).header := by
    rw [Frame.header, length value]
    rfl
  refine ⟨(frame.signed before (OctetField.zero 16) behind).header ++ Record.writeAll before ++
    [StandardAttribute.messageAuthenticator.type, 18], ?_, ?_⟩
  · rw [List.length_append, List.length_append, length_header]
    rfl
  · intro value
    have records : Record.writeAll (frame.signed before value behind).records =
        Record.writeAll before ++ ((holding value).octets ++ Record.writeAll behind) :=
      Record.writeAll_append before (holding value :: behind)
    rw [octets_eq_header, header, records, octets_holding]
    simp only [List.append_assoc]

theorem overwrite_value (carries : frame.Carries before value behind) (other : Digest) :
    frame.octets.overwrite (valueOffset before) other.octets =
      (frame.signed before other behind).octets := by
  have same : frame = frame.signed before value behind := by
    rw [signed, ← carries.cut]
  obtain ⟨front, length, spelled⟩ := octets_signed frame before behind
  rw [same, spelled, ← length, Octets.overwrite_append, ← spelled]
  · rfl
  · rw [value.length_octets, other.length_octets]

theorem value_of_carries (carries : frame.Carries before value behind) :
    (frame.octets.drop (valueOffset before)).take valueLength = value.octets := by
  have same : frame = frame.signed before value behind := by
    rw [signed, ← carries.cut]
  obtain ⟨front, length, spelled⟩ := octets_signed frame before behind
  rw [same, spelled, ← length, List.drop_left, valueLength, List.take_left' value.length_octets]

theorem write_octets (frame : Frame) (header : Authenticator) :
    Authenticator.write frame.octets header = { frame with authenticator := header }.octets := by
  have spelled := octets_split { frame with authenticator := header }
  rw [Authenticator.write, spelled, octets_split frame, Authenticator.offset,
    ← length_front frame, Octets.overwrite_append]
  · rfl
  · rw [frame.authenticator.length_octets, header.length_octets]

end Frame

end Radius
