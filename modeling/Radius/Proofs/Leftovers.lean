import Radius.Packet.Validation
import Radius.Proofs.MissingTag
import Radius.Proofs.Refusal

/-!
What strict validation leaves undecoded. An attribute that the dictionary knows can stay in encoded
form as a record, or inside a container. Strict validation refuses a packet for the records only. So
what it lets through undecoded are the containers with a payload that the definition of what they
enclose has refused; lifting leaves no other container closed that the dictionary could open.
-/

namespace Radius

namespace Attribute

/-- The dictionary has a definition for what is still in encoded form: the value of a record, or
what a container encloses. -/
inductive Undecoded (dictionary : Dictionary) (entry : Attribute) : Prop
  | record {record : Record} {definition : AttributeDefinition} (unread : entry = .raw record)
      (known : dictionary.attribute? (.topLevel record.type) = some definition) :
      Undecoded dictionary entry
  | enclosed {container : Container} {definition : AttributeDefinition}
      (holds : entry.value? = some (.container container))
      (known : dictionary.attribute? (entry.path.append container.segments) = some definition) :
      Undecoded dictionary entry

/-- A container, and the definition of what it encloses: one that stands in no container, or one
that does not accept the payload. -/
inductive Withheld (exchange : Exchange) (dictionary : Dictionary) (entry : Attribute) : Prop
  | intro {container : Container} {definition : AttributeDefinition}
      (holds : entry.value? = some (.container container))
      (known : dictionary.attribute? (entry.path.append container.segments) = some definition)
      (refuses : definition.carrier.isNested = true →
        definition.decodeAttribute exchange dictionary container.payload = .ok none) :
      Withheld exchange dictionary entry

variable {dictionary : Dictionary} {entry : Attribute}

theorem isUndecoded_iff :
    Packet.isUndecoded dictionary entry = true ↔
      ∃ record definition, entry = .raw record ∧
        dictionary.attribute? (.topLevel record.type) = some definition := by
  cases entry with
  | raw record =>
      simp [Packet.isUndecoded, isRaw, record?, path, Option.isSome_iff_exists]
  | _ => simp [Packet.isUndecoded, isRaw, record?]

end Attribute

namespace Packet

variable {packet : Packet} {dictionary : Dictionary}

theorem validate_strict_eq_ok_iff :
    packet.validate dictionary .strict = .ok () ↔
      packet.validateContent = .ok () ∧ (dictionary.packet? packet.code).isSome = true ∧
        ∀ entry ∈ packet.attributes, isUndecoded dictionary entry = false := by
  have strict : packet.validateDecoded dictionary = .ok () ↔
      (dictionary.packet? packet.code).isSome = true ∧
        ∀ entry ∈ packet.attributes, isUndecoded dictionary entry = false := by
    unfold validateDecoded
    cases dictionary.packet? packet.code with
    | none => simp
    | some definition =>
        cases first : packet.attributes.find? (isUndecoded dictionary) with
        | none => simpa using List.find?_eq_none.mp first
        | some entry =>
            have member := List.mem_of_find?_eq_some first
            have unread := List.find?_some first
            simp only [Option.isNone_some, Bool.false_eq_true, if_false, Option.isSome_some,
              true_and, reduceCtorEq, false_iff]
            intro every
            rw [every entry member] at unread
            contradiction
  unfold validate
  rw [Result.bind_eq_ok_iff, if_pos rfl, strict]
  constructor
  · rintro ⟨_, content, decoded⟩
    exact ⟨content, decoded⟩
  · rintro ⟨content, decoded⟩
    exact ⟨(), content, decoded⟩

end Packet

namespace Lifting

variable {exchange : Exchange} {dictionary : Dictionary} {records : List Record}
  {entry : Attribute} {entries : List Attribute}

theorem closed_of_liftAll (lifted : liftAll exchange dictionary records = .ok entries)
    (member : entry ∈ entries) : openOnce exchange dictionary entry = .ok none := by
  obtain ⟨promoted, -, opened⟩ := Result.bind_eq_ok_iff.mp lifted
  obtain ⟨front, -, expanded⟩ := Result.exists_of_mapM_eq_ok opened member
  exact (expand_eq_ok_iff.mp expanded).2

theorem unread_of_closed {container : Container} {definition : AttributeDefinition}
    (closed : openOnce exchange dictionary entry = .ok none)
    (holds : entry.value? = some (.container container))
    (known : dictionary.attribute? (entry.path.append container.segments) = some definition)
    (nested : definition.carrier.isNested = true) :
    definition.decodeAttribute exchange dictionary container.payload = .ok none := by
  rw [openOnce_of_container holds, openContainer, known] at closed
  dsimp only at closed
  rw [if_pos nested] at closed
  obtain ⟨found, read, marked⟩ := Result.bind_eq_ok_iff.mp closed
  rw [Option.map_eq_none_iff.mp (Except.ok.inj marked)] at read
  exact read

theorem undecoded_iff_withheld (lifted : liftAll exchange dictionary records = .ok entries)
    (member : entry ∈ entries) (read : Packet.isUndecoded dictionary entry = false) :
    entry.Undecoded dictionary ↔ entry.Withheld exchange dictionary := by
  constructor
  · intro undecoded
    cases undecoded with
    | record unread known =>
        rw [Attribute.isUndecoded_iff.mpr ⟨_, _, unread, known⟩] at read
        contradiction
    | enclosed holds known =>
        exact .intro holds known (unread_of_closed (closed_of_liftAll lifted member) holds known)
  · rintro ⟨holds, known, -⟩
    exact .enclosed holds known

end Lifting

namespace PacketCodec

variable {codec : PacketCodec} {octets secret : Octets} {request : Authenticator} {packet : Packet}

theorem of_decodeFrame {frame : Frame} {header : Authenticator}
    (decoded : (codec.decodeFrame frame secret header).map Except.ok =
      .ok (.ok packet : Except PacketError Packet)) :
    liftAll ⟨md5, secret, header⟩ codec.dictionary frame.records = .ok packet.attributes ∧
      packet.code = frame.code ∧
      packet.received = some ⟨frame.identifier, frame.authenticator⟩ := by
  cases found : codec.decodeFrame frame secret header with
  | error fault =>
      rw [found] at decoded
      contradiction
  | ok whole =>
      rw [found] at decoded
      cases decoded
      obtain ⟨entries, lifted, built⟩ := Result.bind_eq_ok_iff.mp found
      cases built
      exact ⟨lifted, rfl, rfl⟩

theorem lifted_of_decodeRequest (decoded : codec.decodeRequest octets secret = .ok (.ok packet)) :
    ∃ received records, packet.received = some received ∧
      liftAll ⟨md5, secret, if codec.isHashed packet.code then OctetField.zero 16
        else received.authenticator⟩ codec.dictionary records = .ok packet.attributes := by
  unfold decodeRequest at decoded
  cases authentic : codec.authenticateRequest octets secret with
  | error cause =>
      rw [authentic] at decoded
      cases decoded
  | ok answer =>
      rw [authentic] at decoded
      rw [authenticateRequest_eq] at authentic
      obtain ⟨frame, -, rfl⟩ := of_authenticate_eq_ok authentic
      obtain ⟨lifted, code, received⟩ := of_decodeFrame decoded
      rw [code]
      exact ⟨_, frame.records, received, lifted⟩

theorem lifted_of_decodeResponse
    (decoded : codec.decodeResponse octets secret request = .ok (.ok packet)) :
    ∃ records, liftAll ⟨md5, secret, request⟩ codec.dictionary records = .ok packet.attributes := by
  unfold decodeResponse at decoded
  cases authentic : codec.authenticateResponse octets secret request with
  | error cause =>
      rw [authentic] at decoded
      cases decoded
  | ok frame =>
      rw [authentic] at decoded
      exact ⟨frame.records, (of_decodeFrame decoded).1⟩

/-- In a packet that was decoded and passes strict validation, the values still in encoded form that
the dictionary has a definition for are those withheld in containers. -/
theorem leftovers_of_validate (codec : PacketCodec) (octets secret : Octets)
    (request : Authenticator) {packet : Packet}
    (valid : packet.validate codec.dictionary .strict = .ok ()) :
    (codec.decodeRequest octets secret = .ok (.ok packet) →
      ∃ received, packet.received = some received ∧ ∀ entry ∈ packet.attributes,
        (entry.Undecoded codec.dictionary ↔
          entry.Withheld ⟨md5, secret, if codec.isHashed packet.code then OctetField.zero 16
            else received.authenticator⟩ codec.dictionary)) ∧
    (codec.decodeResponse octets secret request = .ok (.ok packet) →
      ∀ entry ∈ packet.attributes,
        (entry.Undecoded codec.dictionary ↔
          entry.Withheld ⟨md5, secret, request⟩ codec.dictionary)) := by
  obtain ⟨-, -, read⟩ := Packet.validate_strict_eq_ok_iff.mp valid
  constructor
  · intro decoded
    obtain ⟨received, records, same, lifted⟩ := lifted_of_decodeRequest decoded
    refine ⟨received, same, ?_⟩
    intro entry member
    exact Lifting.undecoded_iff_withheld lifted member (read entry member)
  · intro decoded entry member
    obtain ⟨records, lifted⟩ := lifted_of_decodeResponse decoded
    exact Lifting.undecoded_iff_withheld lifted member (read entry member)

end PacketCodec

def vendorInteger : AttributeDefinition :=
  ⟨⟨26, [9, 1]⟩, "Vendor-Integer", .integer, .vendorSpecific, none⟩

namespace DefinitionTable

def vendorIntegers : DefinitionTable := standard.insertAttribute vendorInteger

theorem reachable_vendorIntegers : vendorIntegers.Reachable := by
  have defined : standard.defineAttribute ⟨26, [9, 1]⟩ "Vendor-Integer" .integer none =
      .ok vendorInteger := by decide +kernel
  exact .addAttribute .standard (addAttribute_eq_ok defined)

end DefinitionTable

namespace PacketCodec

def vendorRequest (length : UInt8) (payload : Octets) : Octets :=
  [1, 0, 0, length] ++ List.replicate 16 0 ++ [1, 3, 97] ++ 3 :: 19 :: List.replicate 17 7 ++
    [32, 3, 110] ++ 26 :: (length - 45) :: 0 :: 0 :: 0 :: 9 :: 1 :: (length - 51) :: payload

def vendorPacket (last : Attribute) : Packet :=
  ⟨1, [.standard 1 (.plain (.text "a")), .standard 3 (.plain (.string (List.replicate 17 7))),
    .standard 32 (.plain (.text "n")), last], some ⟨0, OctetField.zero 16⟩⟩

theorem leftovers_of_validate_vendorInteger :
    (vendorPacket (.vendorSpecific (.topLevel 26) 9 1 (.plain (.integer 7)))).validate
        DefinitionTable.vendorIntegers.toDictionary .strict = .ok () ∧
      (DefinitionTable.vendorIntegers.codec Config.default).decodeRequest
          (vendorRequest 57 [0, 0, 0, 7]) [115] =
        .ok (.ok (vendorPacket (.vendorSpecific (.topLevel 26) 9 1 (.plain (.integer 7))))) ∧
      ∀ entry ∈ (vendorPacket
          (.vendorSpecific (.topLevel 26) 9 1 (.plain (.integer 7)))).attributes,
        ¬entry.Undecoded DefinitionTable.vendorIntegers.toDictionary := by
  have valid : (vendorPacket (.vendorSpecific (.topLevel 26) 9 1 (.plain (.integer 7)))).validate
      (DefinitionTable.vendorIntegers.codec Config.default).dictionary .strict = .ok () := by
    decide +kernel
  have decoded : (DefinitionTable.vendorIntegers.codec Config.default).decodeRequest
      (vendorRequest 57 [0, 0, 0, 7]) [115] =
        .ok (.ok (vendorPacket (.vendorSpecific (.topLevel 26) 9 1 (.plain (.integer 7))))) := by
    decide +kernel
  refine ⟨valid, decoded, ?_⟩
  intro entry member undecoded
  obtain ⟨received, -, leftovers⟩ :=
    (leftovers_of_validate _ _ _ (OctetField.zero 16) valid).1 decoded
  obtain ⟨holds, -, -⟩ := (leftovers entry member).mp undecoded
  -- none of the four attributes holds a container
  simp only [vendorPacket, List.mem_cons, List.not_mem_nil, or_false] at member
  rcases member with rfl | rfl | rfl | rfl <;> cases holds

/-- An octet is no integer, so it stays in its container, and the packet passes. -/
theorem passed_withheldInteger :
    DefinitionTable.vendorIntegers.Reachable ∧
      (DefinitionTable.vendorIntegers.codec Config.default).decodeRequest
          (vendorRequest 54 [0xFF]) [115] =
        .ok (.ok (vendorPacket (.standard 26 (.container (.vsa 9 1 [0xFF]))))) ∧
      (vendorPacket (.standard 26 (.container (.vsa 9 1 [0xFF])))).validate
        DefinitionTable.vendorIntegers.toDictionary .strict = .ok () ∧
      ∃ entry ∈ (vendorPacket (.standard 26 (.container (.vsa 9 1 [0xFF])))).attributes,
        entry.Undecoded DefinitionTable.vendorIntegers.toDictionary := by
  refine ⟨DefinitionTable.reachable_vendorIntegers, by decide +kernel, by decide +kernel, ?_⟩
  have known : DefinitionTable.vendorIntegers.toDictionary.attribute?
      ((TypePath.topLevel 26).append (Container.vsa 9 1 [0xFF]).segments) = some vendorInteger := by
    decide +kernel
  exact ⟨.standard 26 (.container (.vsa 9 1 [0xFF])), by decide, .enclosed rfl known⟩

end PacketCodec

end Radius
