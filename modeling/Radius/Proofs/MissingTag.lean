import Radius.Proofs.CheckedLifting

/-!
The one input that decoding is not defined on. A value whose type has a tag in every value, behind a
filter that leaves the tag in clear, is split after its first octet; an empty value has no first
octet. Decoding has an answer for every packet that carries no such value, at the top level or in a
container that is opened, and no other read of it can fail.
-/

namespace Radius

namespace AttributeDefinition

variable {definition : AttributeDefinition} {exchange : Exchange} {dictionary : Dictionary}
  {octets : Octets} {fault : Fault}

/-- The value has a tag octet in every case, and a filter leaves that octet in clear. -/
def NeedsTag (definition : AttributeDefinition) : Prop :=
  definition.filter ≠ none ∧ (definition.dataType = .taggedString ∨
    definition.dataType = .taggedText ∨ definition.dataType = .taggedInteger)

theorem clearLength_eq_error_iff :
    definition.clearLength octets = .error fault ↔
      fault = .tagOctetMissing ∧ octets = [] ∧ (definition.dataType = .taggedString ∨
        definition.dataType = .taggedText ∨ definition.dataType = .taggedInteger) := by
  unfold clearLength
  cases octets with
  | nil => cases definition.dataType <;> simp [eq_comm]
  | cons first later => cases definition.dataType <;> simp

theorem decodeAttribute_eq_error_iff :
    definition.decodeAttribute exchange dictionary octets = .error fault ↔
      fault = .tagOctetMissing ∧ definition.NeedsTag ∧ octets = [] := by
  have step : definition.decodeAttribute exchange dictionary octets = .error fault ↔
      definition.decodeValue exchange dictionary octets = .error fault := by
    unfold decodeAttribute
    rw [Result.bind_eq_error_iff]
    simp [pure, Except.pure]
  rw [step]
  -- only in front of a hidden value is a tag split off before the value is read
  cases hides : definition.filter with
  | none => simp [decodeValue, hides, NeedsTag]
  | some filter =>
      have split : definition.decodeValue exchange dictionary octets = .error fault ↔
          definition.clearLength octets = .error fault := by
        unfold decodeValue
        rw [hides]
        dsimp only
        rw [Result.bind_eq_error_iff]
        simp [pure, Except.pure]
      rw [split, clearLength_eq_error_iff, NeedsTag, hides]
      constructor
      · rintro ⟨same, empty, tagged⟩
        exact ⟨same, ⟨by simp, tagged⟩, empty⟩
      · rintro ⟨same, ⟨-, tagged⟩, empty⟩
        exact ⟨same, empty, tagged⟩

end AttributeDefinition

namespace Lifting

variable {exchange : Exchange} {dictionary : Dictionary} {fault : Fault}

def RecordMissesTag (dictionary : Dictionary) (record : Record) : Prop :=
  ∃ definition, dictionary.attribute? (.topLevel record.type) = some definition ∧
    definition.carrier = .standard ∧ definition.NeedsTag ∧ record.value = []

def ContainerMissesTag (dictionary : Dictionary) (entry : Attribute) : Prop :=
  ∃ container definition, entry.value? = some (.container container) ∧
    dictionary.attribute? (entry.path.append container.segments) = some definition ∧
    definition.carrier.isNested = true ∧ definition.NeedsTag ∧ container.payload = []

/-- Some value that lifting comes to has no octet for its tag. -/
def MissesTag (exchange : Exchange) (dictionary : Dictionary) (records : List Record) : Prop :=
  (∃ record ∈ records, RecordMissesTag dictionary record) ∨
    ∃ promoted, promoteAll exchange dictionary (records.map .raw) = .ok promoted ∧
      ∃ entry ∈ promoted, ∃ inner, Reaches exchange dictionary entry inner ∧
        ContainerMissesTag dictionary inner

theorem openOnce_eq_error_iff {entry : Attribute} :
    openOnce exchange dictionary entry = .error fault ↔
      fault = .tagOctetMissing ∧ ContainerMissesTag dictionary entry := by
  constructor
  · intro failed
    unfold openOnce at failed
    split at failed
    · rename_i container holds
      unfold openContainer at failed
      split at failed
      · contradiction
      · rename_i definition known
        split at failed
        · rename_i nested
          rcases Result.bind_eq_error_iff.mp failed with failed | ⟨found, -, failed⟩
          · obtain ⟨same, needs, empty⟩ :=
              AttributeDefinition.decodeAttribute_eq_error_iff.mp failed
            exact ⟨same, container, definition, holds, known, nested, needs, empty⟩
          · contradiction
        · contradiction
    · contradiction
  · rintro ⟨same, container, definition, holds, known, nested, needs, empty⟩
    rw [openOnce_of_container holds, openContainer, known]
    dsimp only
    rw [if_pos nested, Result.bind_eq_error_iff]
    exact .inl (AttributeDefinition.decodeAttribute_eq_error_iff.mpr ⟨same, needs, empty⟩)

theorem fault_of_expand {entry : Attribute} {found : Fault}
    (failed : expand exchange dictionary entry = .error found) : found = .tagOctetMissing := by
  obtain ⟨inner, -, stuck⟩ := expand_eq_error_iff.mp failed
  exact (openOnce_eq_error_iff.mp stuck).1

theorem not_missing_of_settles {group rest : List Record} {settled : List Attribute}
    (settles : Settles exchange dictionary group settled rest) :
    ∀ record ∈ group, ¬RecordMissesTag dictionary record := by
  -- the values of longer groups are put together before they are read
  have apart : ∀ {type : UInt8} {definition : AttributeDefinition} {record : Record},
      dictionary.attribute? (.topLevel type) = some definition →
      definition.carrier ≠ .standard → record.type = type →
      ¬RecordMissesTag dictionary record := by
    rintro type definition record known other rfl ⟨found, listed, carried, -⟩
    cases known.symm.trans listed
    exact other carried
  cases settles with
  | unknown absent =>
      intro record member
      rw [List.mem_singleton.mp member]
      rintro ⟨definition, known, -⟩
      rw [absent] at known
      contradiction
  | standard known carried read =>
      intro record member
      rw [List.mem_singleton.mp member]
      rintro ⟨definition, found, -, needs, empty⟩
      cases known.symm.trans found
      cases read.symm.trans
        (AttributeDefinition.decodeAttribute_eq_error_iff.mpr ⟨rfl, needs, empty⟩)
  | unpaired known carried short =>
      intro record member
      exact apart known (by simp [carried]) (by rw [List.mem_singleton.mp member])
  | unfinished known carried chain =>
      intro record member
      exact apart known (by simp [carried]) (type_of_chainOf chain record member)
  | joined known carried chain =>
      intro record member
      exact apart known (by simp [carried]) (type_of_chainOf chain record member)
  | run known carried alike stops =>
      intro record member
      rcases List.mem_cons.mp member with rfl | inside
      · exact apart known (by simp [carried]) rfl
      · exact apart known (by simp [carried]) (alike record inside)

theorem promoteAll_eq_error_iff (layered : dictionary.Layered) {records : List Record} :
    promoteAll exchange dictionary (records.map .raw) = .error fault ↔
      fault = .tagOctetMissing ∧ ∃ record ∈ records, RecordMissesTag dictionary record := by
  induction size : records.length using Nat.strongRecOn generalizing records with
  | ind bound ih =>
      cases records with
      | nil =>
          rw [List.map_nil, promoteAll]
          simp
      | cons record later =>
          rcases settles_or_fails exchange layered record later with
            ⟨group, settled, rest, rfl, settles⟩ | ⟨definition, found, known, carried, failed⟩
          · have tagged := not_missing_of_settles settles
            have shorter : rest.length < bound := by
              rw [← size, List.length_cons, List.length_append]
              omega
            -- a group that settles does not fail, so the fault comes from what follows it
            have passes : promoteAll exchange dictionary
                ((record :: group ++ rest).map .raw) = .error fault ↔
                promoteAll exchange dictionary (rest.map .raw) = .error fault := by
              rw [promoteAll_of_settles layered settles, Result.bind_eq_error_iff]
              simp [pure, Except.pure]
            rw [← List.cons_append, passes, ih rest.length shorter rfl]
            constructor
            · rintro ⟨same, other, member, misses⟩
              exact ⟨same, other, List.mem_append_right _ member, misses⟩
            · rintro ⟨same, other, member, misses⟩
              rcases List.mem_append.mp member with front | behind
              · exact absurd misses (tagged other front)
              · exact ⟨same, other, behind, misses⟩
          · obtain ⟨rfl, needs, empty⟩ :=
              AttributeDefinition.decodeAttribute_eq_error_iff.mp failed
            rw [List.map_cons, promoteAll_cons, promoteOnce_standard known carried, failed]
            constructor
            · intro stopped
              cases stopped
              exact ⟨rfl, record, List.mem_cons_self, definition, known, carried, needs, empty⟩
            · rintro ⟨rfl, -⟩
              rfl

theorem liftAll_eq_error_iff (layered : dictionary.Layered) {records : List Record} :
    liftAll exchange dictionary records = .error fault ↔
      fault = .tagOctetMissing ∧ MissesTag exchange dictionary records := by
  unfold liftAll
  rw [Result.bind_eq_error_iff, promoteAll_eq_error_iff layered]
  constructor
  · rintro (⟨same, misses⟩ | ⟨promoted, ran, failed⟩)
    · exact ⟨same, .inl misses⟩
    · obtain ⟨entry, member, stopped⟩ := Result.exists_of_mapM_eq_error failed
      obtain ⟨inner, reached, stuck⟩ := expand_eq_error_iff.mp stopped
      obtain ⟨same, misses⟩ := openOnce_eq_error_iff.mp stuck
      exact ⟨same, .inr ⟨promoted, ran, entry, member, inner, reached, misses⟩⟩
  · rintro ⟨rfl, misses | ⟨promoted, ran, entry, member, inner, reached, misses⟩⟩
    · exact .inl ⟨rfl, misses⟩
    · have stopped : expand exchange dictionary entry = .error .tagOctetMissing :=
        expand_eq_error_iff.mpr ⟨inner, reached, openOnce_eq_error_iff.mpr ⟨rfl, misses⟩⟩
      exact .inr ⟨promoted, ran, Result.mapM_eq_error_of_mem member stopped
        fun _ _ failed => fault_of_expand failed⟩

end Lifting

namespace PacketCodec

variable {codec : PacketCodec} {octets secret : Octets} {header : Authenticator} {frame : Frame}
  {fault : Fault}

theorem decodeFrame_eq_error_iff (layered : codec.dictionary.Layered) :
    (codec.decodeFrame frame secret header).map (Except.ok : Packet → Except PacketError Packet) =
        .error fault ↔
      fault = .tagOctetMissing ∧
        Lifting.MissesTag ⟨md5, secret, header⟩ codec.dictionary frame.records := by
  have lifted : (codec.decodeFrame frame secret header).map
        (Except.ok : Packet → Except PacketError Packet) = .error fault ↔
      liftAll ⟨md5, secret, header⟩ codec.dictionary frame.records = .error fault := by
    unfold decodeFrame
    cases liftAll ⟨md5, secret, header⟩ codec.dictionary frame.records with
    | error found => simp [bind, Except.bind, Except.map]
    | ok attributes => simp [bind, Except.bind, Except.map, pure, Except.pure]
  rw [lifted, Lifting.liftAll_eq_error_iff layered]

end PacketCodec

def DefinitionTable.codec (table : DefinitionTable) (config : Config) : PacketCodec :=
  ⟨table.toDictionary, config⟩

namespace PacketCodec

/-- Decoding has an answer, a packet or an error of the protocol, for all octets but those of an
authentic packet with a value that misses its tag. With every read checked it is the same decoding,
and what stops it there is the split behind the first octet of an empty value. -/
theorem decode_eq_error_iff {table : DefinitionTable} (reachable : table.Reachable)
    (config : Config) (octets secret : Octets) (request : Authenticator) (fault : Fault) :
    ((table.codec config).decodeRequest octets secret = .error fault ↔
      fault = .tagOctetMissing ∧ ∃ frame header,
        (table.codec config).authenticateRequest octets secret = .ok (frame, header) ∧
        Lifting.MissesTag ⟨md5, secret, header⟩ table.toDictionary frame.records) ∧
    ((table.codec config).decodeResponse octets secret request = .error fault ↔
      fault = .tagOctetMissing ∧ ∃ frame,
        (table.codec config).authenticateResponse octets secret request = .ok frame ∧
        Lifting.MissesTag ⟨md5, secret, request⟩ table.toDictionary frame.records) ∧
    Checked.decodeRequest (table.codec config) octets secret =
      ((table.codec config).decodeRequest octets secret).mapError (fun _ => Checked.missingTag) ∧
    Checked.decodeResponse (table.codec config) octets secret request =
      ((table.codec config).decodeResponse octets secret request).mapError
        (fun _ => Checked.missingTag) := by
  have layered : (table.codec config).dictionary.Layered :=
    DefinitionTable.layered_of_reachable reachable
  refine ⟨?_, ?_, Checked.decodeRequest_eq _ octets secret,
    Checked.decodeResponse_eq _ octets secret request⟩
  · unfold decodeRequest
    cases authentic : (table.codec config).authenticateRequest octets secret with
    | error cause => simp
    | ok found =>
        obtain ⟨frame, header⟩ := found
        dsimp only
        rw [decodeFrame_eq_error_iff layered]
        constructor
        · rintro ⟨same, misses⟩
          exact ⟨same, frame, header, rfl, misses⟩
        · rintro ⟨same, other, given, authentic, misses⟩
          cases authentic
          exact ⟨same, misses⟩
  · unfold decodeResponse
    cases authentic : (table.codec config).authenticateResponse octets secret request with
    | error cause => simp
    | ok frame =>
        dsimp only
        rw [decodeFrame_eq_error_iff layered]
        constructor
        · rintro ⟨same, misses⟩
          exact ⟨same, frame, rfl, misses⟩
        · rintro ⟨same, other, authentic, misses⟩
          cases authentic
          exact ⟨same, misses⟩

def emptyTunnelPassword : Octets := [1, 0, 0, 22] ++ List.replicate 16 0 ++ [69, 2]

/-- Under the standard dictionary its decoding has no answer. -/
theorem decode_emptyTunnelPassword :
    (DefinitionTable.standard.codec Config.default).decodeRequest emptyTunnelPassword [] =
      .error .tagOctetMissing := by
  decide +kernel

theorem missesTag_emptyTunnelPassword :
    DefinitionTable.standard.Reachable ∧ ∃ frame header,
      (DefinitionTable.standard.codec Config.default).authenticateRequest emptyTunnelPassword [] =
        .ok (frame, header) ∧
      Lifting.MissesTag ⟨md5, [], header⟩ DefinitionTable.standard.toDictionary frame.records :=
  ⟨.standard, ((decode_eq_error_iff .standard Config.default emptyTunnelPassword []
    (OctetField.zero 16) .tagOctetMissing).1.mp (by decide +kernel)).2⟩

end PacketCodec

end Radius
