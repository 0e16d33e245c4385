import Radius.Proofs.Computation
import Radius.Proofs.PrefixBits
import Radius.Value.Decode

/-!
The octets of a value and the value of octets. A value that was read has the declared type and is
written with the octets it was read from; only the reserved bits of a long extended value are not
kept. A container that was built is read back from its octets.
-/

namespace Radius

theorem forall_octet {property : UInt8 → Prop}
    (all : ∀ number : Fin 256, property (UInt8.ofNat number.val)) (octet : UInt8) :
    property octet := by
  have same := all ⟨octet.toNat, octet.toNat_lt⟩
  rwa [UInt8.ofNat_toNat] at same

structure PlainValue.Spells (value : PlainValue) (type : DataType) (octets : Octets) : Prop where
  octets_eq : value.octets = octets
  length_eq : value.encodedLength = octets.length
  type_eq : value.dataType = type

namespace PlainValue

theorem of_readNumber? {width number : Nat} {octets : Octets}
    (read : readNumber? width octets = some number) :
    Octets.bigEndian width number = octets ∧ octets.length = width ∧ number < Octets.weight width := by
  unfold readNumber? at read
  split at read
  · rename_i counted
    cases read
    refine ⟨?_, counted, ?_⟩
    · rw [← counted]
      exact Octets.bigEndian_ofBigEndian octets
    · rw [← counted]
      exact Octets.ofBigEndian_lt octets
  · contradiction

theorem toNat_ofNat_of_lt {number : Nat} (small : number < Octets.weight 4) :
    (UInt32.ofNat number).toNat = number := by
  rw [UInt32.toNat_ofNat']
  exact Nat.mod_eq_of_lt small

theorem length_utf8 (content : String) : (Text.utf8 content).length = content.utf8ByteSize := by
  simp [Text.utf8]

theorem of_splitOptional {octets rest : Octets} {tag : Option Tag}
    (split : Tag.splitOptional octets = (tag, rest)) :
    tag.toList.map Tag.octet ++ rest = octets := by
  cases octets with
  | nil =>
      cases split
      rfl
  | cons first later =>
      rw [Tag.splitOptional] at split
      cases within : Tag.ofOctet? first with
      | none =>
          rw [within] at split
          cases split
          rfl
      | some found =>
          rw [within] at split
          cases split
          simp [Tag.octet_of_ofOctet? within]

theorem of_split? {octets rest : Octets} {tag : Tag}
    (split : Tag.split? octets = some (tag, rest)) : tag.octet :: rest = octets := by
  cases octets with
  | nil => contradiction
  | cons first later =>
      obtain ⟨found, within, same⟩ := Option.map_eq_some_iff.mp split
      cases same
      rw [Tag.octet_of_ofOctet? within]

theorem octets_of_ipv4Prefix {octets : Octets} {value : Ipv4Prefix}
    (read : Ipv4Prefix.decode? octets = some value) : value.octets = octets := by
  unfold Ipv4Prefix.decode? at read
  split at read
  · obtain ⟨address, held, made⟩ := Option.bind_eq_some_iff.mp read
    obtain ⟨-, rfl⟩ := Ipv4Prefix.make_eq_ok_iff.mp (Result.toOption_eq_some_iff.mp made)
    rw [Ipv4Prefix.octets, OctetField.octets_of_ofOctets? held]
  · contradiction

/-- The zeros that fill up a short address are not among the octets it carries. -/
theorem octets_of_ipv6Prefix {octets : Octets} {value : Ipv6Prefix}
    (read : Ipv6Prefix.decode? octets = some value) :
    value.octets = octets ∧ value.encodedLength = octets.length := by
  unfold Ipv6Prefix.decode? at read
  split at read
  · rename_i length rest
    obtain ⟨-, -, read⟩ := Option.bind_eq_some_iff.mp read
    obtain ⟨address, held, read⟩ := Option.bind_eq_some_iff.mp read
    obtain ⟨minimal, made, built⟩ := Option.bind_eq_some_iff.mp read
    have filled := OctetField.octets_of_ofOctets? held
    obtain ⟨-, rfl⟩ := Ipv6Prefix.make_eq_ok_iff.mp (Result.toOption_eq_some_iff.mp made)
    cases built
    refine ⟨?_, ?_⟩
    · simp only [Ipv6Prefix.octets, filled, List.take_left']
    · simp only [Ipv6Prefix.encodedLength, List.length_cons]
      omega
  · contradiction

theorem octets_of_readWord? {width number : Nat} {octets : Octets}
    (narrow : Octets.weight width ≤ Octets.weight 4)
    (read : readNumber? width octets = some number) :
    Octets.bigEndian width (UInt32.ofNat number).toNat = octets ∧ width = octets.length := by
  obtain ⟨written, counted, small⟩ := of_readNumber? read
  rw [toNat_ofNat_of_lt (Nat.lt_of_lt_of_le small narrow)]
  exact ⟨written, counted.symm⟩

theorem octets_of_readField? {width : Nat} {octets : Octets} {field : OctetField width}
    (read : OctetField.ofOctets? width octets = some field) :
    field.octets = octets ∧ width = octets.length := by
  have same := OctetField.octets_of_ofOctets? read
  exact ⟨same, by rw [← same, field.length_octets]⟩

variable {type : DataType} {octets : Octets} {value : PlainValue}

theorem spells_word {build : UInt32 → PlainValue}
    (read : (readNumber? 4 octets).map (fun number => build (UInt32.ofNat number)) = some value)
    (written : ∀ word, (build word).Spells type (Octets.bigEndian 4 word.toNat)) :
    value.Spells type octets := by
  obtain ⟨number, counted, rfl⟩ := Option.map_eq_some_iff.mp read
  obtain ⟨same, -⟩ := octets_of_readWord? (Nat.le_refl _) counted
  rw [← same]
  exact written _

theorem spells_field {width : Nat} {build : OctetField width → PlainValue}
    (read : (OctetField.ofOctets? width octets).map build = some value)
    (written : ∀ field, (build field).Spells type field.octets) :
    value.Spells type octets := by
  obtain ⟨field, held, rfl⟩ := Option.map_eq_some_iff.mp read
  obtain ⟨same, -⟩ := octets_of_readField? held
  rw [← same]
  exact written field

theorem spells_integer64 (read : decode? .integer64 octets = some value) :
    value.Spells .integer64 octets := by
  obtain ⟨number, counted, rfl⟩ := Option.map_eq_some_iff.mp read
  obtain ⟨written, width, small⟩ := of_readNumber? counted
  have whole : (UInt64.ofNat number).toNat = number := by
    rw [UInt64.toNat_ofNat']
    exact Nat.mod_eq_of_lt small
  exact ⟨by rw [PlainValue.octets, whole, written], width.symm, rfl⟩

theorem spells_ipv4Prefix (read : decode? .ipv4Prefix octets = some value) :
    value.Spells .ipv4Prefix octets := by
  obtain ⟨range, held, rfl⟩ := Option.map_eq_some_iff.mp read
  have same := octets_of_ipv4Prefix held
  refine ⟨same, ?_, rfl⟩
  rw [← same, Ipv4Prefix.octets, List.length_cons, List.length_cons, range.address.length_octets]
  rfl

theorem spells_ipv6Prefix (read : decode? .ipv6Prefix octets = some value) :
    value.Spells .ipv6Prefix octets := by
  obtain ⟨range, held, rfl⟩ := Option.map_eq_some_iff.mp read
  obtain ⟨same, counted⟩ := octets_of_ipv6Prefix held
  exact ⟨same, counted, rfl⟩

theorem spells_text (read : decode? .text octets = some value) : value.Spells .text octets := by
  obtain ⟨content, held, rfl⟩ := Option.map_eq_some_iff.mp read
  have same := Text.utf8_of_ofUtf8? held
  exact ⟨same, by rw [← same, length_utf8]; rfl, rfl⟩

theorem spells_optionalTaggedString (read : decode? .optionalTaggedString octets = some value) :
    value.Spells .optionalTaggedString octets := by
  rcases cut : Tag.splitOptional octets with ⟨tag, rest⟩
  rw [decode?, cut] at read
  cases read
  have whole := of_splitOptional cut
  refine ⟨whole, ?_, rfl⟩
  rw [PlainValue.encodedLength, ← whole, List.length_append, List.length_map]

theorem spells_optionalTaggedText (read : decode? .optionalTaggedText octets = some value) :
    value.Spells .optionalTaggedText octets := by
  rcases cut : Tag.splitOptional octets with ⟨tag, rest⟩
  rw [decode?, cut] at read
  obtain ⟨content, held, rfl⟩ := Option.map_eq_some_iff.mp read
  have whole := of_splitOptional cut
  rw [← Text.utf8_of_ofUtf8? held] at whole
  refine ⟨whole, ?_, rfl⟩
  rw [PlainValue.encodedLength, ← whole, List.length_append, List.length_map, length_utf8]

theorem spells_taggedString (read : decode? .taggedString octets = some value) :
    value.Spells .taggedString octets := by
  obtain ⟨⟨tag, rest⟩, held, rfl⟩ := Option.map_eq_some_iff.mp read
  have whole := of_split? held
  exact ⟨whole, by rw [← whole, List.length_cons, Nat.add_comm]; rfl, rfl⟩

theorem spells_taggedText (read : decode? .taggedText octets = some value) :
    value.Spells .taggedText octets := by
  obtain ⟨⟨tag, rest⟩, held, found⟩ := Option.bind_eq_some_iff.mp read
  obtain ⟨content, spelled, built⟩ := Option.bind_eq_some_iff.mp found
  cases built
  have written : Text.utf8 content = rest := Text.utf8_of_ofUtf8? spelled
  have whole := of_split? held
  rw [← written] at whole
  refine ⟨whole, ?_, rfl⟩
  rw [← whole, List.length_cons, length_utf8, Nat.add_comm]
  rfl

theorem spells_taggedInteger (read : decode? .taggedInteger octets = some value) :
    value.Spells .taggedInteger octets := by
  obtain ⟨⟨tag, rest⟩, held, found⟩ := Option.bind_eq_some_iff.mp read
  obtain ⟨number, counted, built⟩ := Option.bind_eq_some_iff.mp found
  cases built
  obtain ⟨written, width⟩ := octets_of_readWord? (by decide) counted
  have whole := of_split? held
  refine ⟨?_, ?_, rfl⟩
  · rw [PlainValue.octets, written, whole]
  · rw [← whole, List.length_cons, ← width]
    rfl

theorem spells_of_decode? (read : decode? type octets = some value) :
    value.Spells type octets := by
  cases type with
  | integer | enum | time =>
      exact spells_word read fun word => ⟨rfl, (Octets.length_bigEndian ..).symm, rfl⟩
  | ipv4Addr | ipv6Addr | ifid =>
      exact spells_field read fun field => ⟨rfl, field.length_octets.symm, rfl⟩
  | string =>
      cases read
      exact ⟨rfl, rfl, rfl⟩
  | integer64 => exact spells_integer64 read
  | ipv4Prefix => exact spells_ipv4Prefix read
  | ipv6Prefix => exact spells_ipv6Prefix read
  | text => exact spells_text read
  | optionalTaggedString => exact spells_optionalTaggedString read
  | optionalTaggedText => exact spells_optionalTaggedText read
  | taggedString => exact spells_taggedString read
  | taggedText => exact spells_taggedText read
  | taggedInteger => exact spells_taggedInteger read
  | _ => contradiction

end PlainValue

/-- No record of a tree is a long extended value, whose reserved bits are not kept. -/
def Dictionary.KeepsTrees (dictionary : Dictionary) : Prop :=
  ∀ ⦃path definition⦄, dictionary.tlv? path = some definition → definition.dataType ≠ .longExtended

namespace Container

def Fits : Container → Prop
  | .extended _ payload => payload.length ≤ maxExtended
  | .longExtended .. => True
  | .vsa vendor _ payload => vendor ≤ maxVendorId ∧ payload.length ≤ maxVsa
  | .evs vendor _ _ => vendor ≤ maxVendorId

theorem length_octets (container : Container) :
    container.octets.length = container.encodedLength := by
  cases container <;>
    simp only [octets, encodedLength, List.length_append, List.length_cons,
      Octets.length_bigEndian] <;> omega

theorem checkLength_eq_ok_iff (payload : Octets) (max : Nat) :
    checkLength payload max = .ok () ↔ payload.length ≤ max := by
  unfold checkLength
  split <;> simp <;> omega

theorem checkVendor_eq_ok_iff (vendor : UInt32) :
    checkVendor vendor = .ok () ↔ vendor ≤ maxVendorId := by
  unfold checkVendor
  split
  · rename_i large
    simp [UInt32.not_le.mpr large]
  · rename_i small
    simp [UInt32.not_lt.mp small]

theorem makeExtended_eq_ok_iff {extendedType : UInt8} {payload : Octets} {value : Container} :
    makeExtended extendedType payload = .ok value ↔
      value = .extended extendedType payload ∧ value.Fits := by
  constructor
  · intro made
    unfold makeExtended at made
    cases checked : checkLength payload maxExtended with
    | error cause => rw [checked] at made; contradiction
    | ok passed =>
        rw [checked] at made
        cases made
        exact ⟨rfl, (checkLength_eq_ok_iff ..).mp checked⟩
  · rintro ⟨rfl, fits⟩
    rw [makeExtended, (checkLength_eq_ok_iff ..).mpr fits]
    rfl

theorem makeVsa_eq_ok_iff {vendor : UInt32} {vendorType : UInt8} {payload : Octets}
    {value : Container} :
    makeVsa vendor vendorType payload = .ok value ↔
      value = .vsa vendor vendorType payload ∧ value.Fits := by
  constructor
  · intro made
    unfold makeVsa at made
    cases known : checkVendor vendor with
    | error cause => rw [known] at made; contradiction
    | ok passed =>
        cases checked : checkLength payload maxVsa with
        | error cause => rw [known, checked] at made; contradiction
        | ok passed =>
            rw [known, checked] at made
            cases made
            exact ⟨rfl, (checkVendor_eq_ok_iff _).mp known, (checkLength_eq_ok_iff ..).mp checked⟩
  · rintro ⟨rfl, known, fits⟩
    rw [makeVsa, (checkVendor_eq_ok_iff _).mpr known, (checkLength_eq_ok_iff ..).mpr fits]
    rfl

theorem makeEvs_eq_ok_iff {vendor : UInt32} {vendorType : UInt8} {payload : Octets}
    {value : Container} :
    makeEvs vendor vendorType payload = .ok value ↔
      value = .evs vendor vendorType payload ∧ value.Fits := by
  constructor
  · intro made
    unfold makeEvs at made
    cases known : checkVendor vendor with
    | error cause => rw [known] at made; contradiction
    | ok passed =>
        rw [known] at made
        cases made
        exact ⟨rfl, (checkVendor_eq_ok_iff _).mp known⟩
  · rintro ⟨rfl, known⟩
    rw [makeEvs, (checkVendor_eq_ok_iff _).mpr known]
    rfl

theorem bigEndian_vendor {octets rest : Octets} (cut : octets.drop 4 = rest) (some : rest ≠ []) :
    Octets.bigEndian 4 (UInt32.ofNat (Octets.ofBigEndian (octets.take 4))).toNat ++ rest =
      octets := by
  have long : (octets.take 4).length = 4 := by
    have counted := congrArg List.length cut
    have positive := List.length_pos_iff.mpr some
    simp only [List.length_drop, List.length_take] at counted ⊢
    omega
  have small := Octets.ofBigEndian_lt (octets.take 4)
  rw [long] at small
  have whole := Octets.bigEndian_ofBigEndian (octets.take 4)
  rw [long] at whole
  rw [PlainValue.toNat_ofNat_of_lt small, whole, ← cut, List.take_append_drop]

theorem vendor_bigEndian (vendor : UInt32) (rest : Octets) :
    UInt32.ofNat (Octets.ofBigEndian ((Octets.bigEndian 4 vendor.toNat ++ rest).take 4)) =
      vendor := by
  have width : (Octets.bigEndian 4 vendor.toNat).length = 4 := Octets.length_bigEndian ..
  have bound : vendor.toNat < Octets.weight 4 := vendor.toNat_lt
  rw [List.take_left' width, Octets.ofBigEndian_bigEndian, Nat.mod_eq_of_lt bound,
    UInt32.ofNat_toNat]

theorem flag_flags (more truncated : Bool) :
    (flags more truncated &&& moreFlag != 0) = more ∧
      (flags more truncated &&& truncatedFlag != 0) = truncated := by
  cases more <;> cases truncated <;> decide

/-- What a container was read from: its own octets, unless it is long extended. -/
structure ReadFrom (value : Container) (octets : Octets) : Prop where
  octets_eq : value.octets = octets
  length_eq : value.encodedLength = octets.length
  fits : value.Fits

theorem readFrom_of_decodeExtended? {octets : Octets} {value : Container}
    (read : decodeExtended? octets = some value) :
    value.ReadFrom octets ∧ value.dataType = .extended := by
  cases octets with
  | nil => contradiction
  | cons extendedType payload =>
      obtain ⟨rfl, fits⟩ := makeExtended_eq_ok_iff.mp (Result.toOption_eq_some_iff.mp read)
      exact ⟨⟨rfl, Nat.add_comm 1 _, fits⟩, rfl⟩

theorem readFrom_of_decodeVsa? {octets : Octets} {value : Container}
    (read : decodeVsa? octets = some value) :
    value.ReadFrom octets ∧ value.dataType = .vsa := by
  unfold decodeVsa? at read
  split at read
  · rename_i vendorType length payload rest
    split at read
    · rename_i counted
      obtain ⟨rfl, fits⟩ := makeVsa_eq_ok_iff.mp (Result.toOption_eq_some_iff.mp read)
      have whole := bigEndian_vendor rest (by simp)
      have final : UInt8.ofNat (2 + payload.length) = length := by
        rw [← counted, UInt8.ofNat_toNat]
      refine ⟨⟨?_, ?_, fits⟩, rfl⟩
      · rw [Container.octets, final]
        exact whole
      · rw [← congrArg List.length whole]
        simp only [Container.encodedLength, List.length_append, Octets.length_bigEndian,
          List.length_cons]
        omega
    · contradiction
  · contradiction

theorem readFrom_of_decodeEvs? {octets : Octets} {value : Container}
    (read : decodeEvs? octets = some value) :
    value.ReadFrom octets ∧ value.dataType = .evs := by
  unfold decodeEvs? at read
  split at read
  · rename_i vendorType payload rest
    obtain ⟨rfl, fits⟩ := makeEvs_eq_ok_iff.mp (Result.toOption_eq_some_iff.mp read)
    have whole := bigEndian_vendor rest (by simp)
    refine ⟨⟨whole, ?_, fits⟩, rfl⟩
    rw [← congrArg List.length whole]
    simp only [Container.encodedLength, List.length_append, Octets.length_bigEndian,
      List.length_cons]
    omega
  · contradiction

theorem flags_of_octet (octet : UInt8) :
    flags (octet &&& moreFlag != 0) (octet &&& truncatedFlag != 0) = octet &&& 0xC0 := by
  revert octet
  apply forall_octet
  decide +kernel

theorem flags_kept_iff (octet : UInt8) : octet &&& 0xC0 = octet ↔ octet &&& 0x3F = 0 := by
  revert octet
  apply forall_octet
  decide +kernel

theorem octets_of_decodeLongExtended? {octets : Octets} {container : Container}
    (read : decodeLongExtended? octets = some container) :
    container.octets = octets.modify 1 (· &&& 0xC0) ∧
      container.encodedLength = octets.length ∧ container.dataType = .longExtended := by
  match octets, read with
  | extendedType :: flags :: payload, read =>
      cases read
      refine ⟨?_, ?_, rfl⟩
      · rw [Container.octets, flags_of_octet]
        rfl
      · simp only [Container.encodedLength, List.length_cons]
        omega

theorem decodeLongExtended?_octets (extendedType : UInt8) (more truncated : Bool)
    (payload : Octets) :
    decodeLongExtended? (Container.longExtended extendedType more truncated payload).octets =
      some (.longExtended extendedType more truncated payload) := by
  obtain ⟨announced, cutShort⟩ := flag_flags more truncated
  rw [Container.octets, decodeLongExtended?, announced, cutShort]

theorem decodeVsa?_octets (vendor : UInt32) (vendorType : UInt8) (payload : Octets)
    (fits : (Container.vsa vendor vendorType payload).Fits) :
    decodeVsa? (Container.vsa vendor vendorType payload).octets =
      some (.vsa vendor vendorType payload) := by
  have counted : (UInt8.ofNat (2 + payload.length)).toNat = 2 + payload.length := by
    have short := fits.2
    simp only [maxVsa, maxRecordValue] at short
    rw [UInt8.toNat_ofNat']
    omega
  have made : makeVsa vendor vendorType payload = .ok (.vsa vendor vendorType payload) :=
    makeVsa_eq_ok_iff.mpr ⟨rfl, fits⟩
  have width : (Octets.bigEndian 4 vendor.toNat).length = 4 := Octets.length_bigEndian ..
  simp only [Container.octets, decodeVsa?]
  rw [List.drop_left' width]
  simp only [counted, if_true]
  rw [vendor_bigEndian, made]
  rfl

theorem decodeEvs?_octets (vendor : UInt32) (vendorType : UInt8) (payload : Octets)
    (fits : (Container.evs vendor vendorType payload).Fits) :
    decodeEvs? (Container.evs vendor vendorType payload).octets =
      some (.evs vendor vendorType payload) := by
  have made : makeEvs vendor vendorType payload = .ok (.evs vendor vendorType payload) :=
    makeEvs_eq_ok_iff.mpr ⟨rfl, fits⟩
  have width : (Octets.bigEndian 4 vendor.toNat).length = 4 := Octets.length_bigEndian ..
  simp only [Container.octets, decodeEvs?]
  rw [List.drop_left' width]
  simp only
  rw [vendor_bigEndian, made]
  rfl

end Container

theorem Concat.ofFragments_eq_ok_iff {fragments : List Octets} {joined : Concat} :
    ofFragments fragments = .ok joined ↔
      joined = ⟨fragments⟩ ∧ fragments ≠ [] ∧
        ∀ fragment ∈ fragments, fragment.length ≤ maxRecordValue := by
  rw [ofFragments]
  split
  · rename_i empty
    constructor
    · intro made
      contradiction
    · intro bounds
      exact absurd (List.isEmpty_iff.mp empty) bounds.2.1
  · rename_i some
    rw [List.isEmpty_iff] at some
    split
    · rename_i long found
      have exceeds := List.find?_some found
      rw [decide_eq_true_iff] at exceeds
      constructor
      · intro made
        contradiction
      · intro bounds
        have short := bounds.2.2 long (List.mem_of_find?_eq_some found)
        exact absurd short (Nat.not_le.mpr exceeds)
    · rename_i none
      have within : ∀ fragment ∈ fragments, fragment.length ≤ maxRecordValue := by
        intro fragment member
        have kept := List.find?_eq_none.mp none fragment member
        rw [decide_eq_true_iff] at kept
        exact Nat.not_lt.mp kept
      rw [Except.ok.injEq, eq_comm]
      exact (and_iff_left ⟨some, within⟩).symm

theorem Record.make_eq_ok_iff {type : UInt8} {octets : Octets} {record : Record} :
    make type octets = .ok record ↔ record.type = type ∧ record.value = octets := by
  constructor
  · intro made
    unfold make at made
    split at made
    · cases made
      exact ⟨rfl, rfl⟩
    · contradiction
  · rintro ⟨rfl, rfl⟩
    rw [make, dif_pos record.length_le]

theorem Record.writeAll_injective : Function.Injective Record.writeAll := by
  intro records others same
  have split := Record.readAll_writeAll 0 records
  rw [same, Record.readAll_writeAll] at split
  exact (Except.ok.inj split).symm

namespace Value

variable {dictionary : Dictionary} {type : DataType} {path : TypePath} {octets : Octets}

theorem decode?_container {container : Container} (fits : container.Fits) :
    decode? dictionary container.dataType path container.octets = some (.container container) := by
  cases container with
  | extended extendedType payload =>
      have made : Container.makeExtended extendedType payload =
          .ok (.extended extendedType payload) :=
        Container.makeExtended_eq_ok_iff.mpr ⟨rfl, fits⟩
      simp only [Container.dataType, decode?, Container.octets, Container.decodeExtended?, made,
        Except.toOption, Option.map_some]
  | longExtended extendedType more truncated payload =>
      simp only [Container.dataType, decode?, Container.decodeLongExtended?_octets,
        Option.map_some]
  | vsa vendor vendorType payload =>
      simp only [Container.dataType, decode?, Container.decodeVsa?_octets _ _ _ fits,
        Option.map_some]
  | evs vendor vendorType payload =>
      simp only [Container.dataType, decode?, Container.decodeEvs?_octets _ _ _ fits,
        Option.map_some]

structure Spells (value : Value) (type : DataType) (octets : Octets) : Prop where
  octets_eq : value.octets = octets
  length_eq : value.encodedLength = octets.length
  type_eq : value.dataType = type

theorem spells_container {container : Container} (read : container.ReadFrom octets)
    (typed : container.dataType = type) : (Value.container container).Spells type octets := by
  refine ⟨?_, ?_, typed⟩
  · rw [Value.octets, read.octets_eq]
  · rw [Value.encodedLength, read.length_eq]

theorem spells_plain {value : PlainValue} (spells : value.Spells type octets) :
    (Value.plain value).Spells type octets := by
  refine ⟨?_, ?_, spells.type_eq⟩
  · rw [Value.octets, spells.octets_eq]
  · rw [Value.encodedLength, spells.length_eq]

theorem spells_concat {value : Concat} (built : Concat.ofFragments [octets] = .ok value) :
    (Value.concat value).Spells .concat octets := by
  obtain ⟨rfl, -⟩ := Concat.ofFragments_eq_ok_iff.mp built
  refine ⟨?_, ?_, rfl⟩
  · simp [Value.octets, Concat.octets]
  · simp [Value.encodedLength, Concat.length]

inductive EntryOf (dictionary : Dictionary) (path : TypePath) (record : Record) :
    UInt8 × Value → Prop
  | declared {definition : TlvDefinition} {value : Value}
      (known : dictionary.tlv? (path.child record.type.toUInt32) = some definition)
      (spelled : decode? dictionary definition.dataType (path.child record.type.toUInt32)
        record.value = some value) : EntryOf dictionary path record (record.type, value)
  | untyped (unread : ∀ definition,
        dictionary.tlv? (path.child record.type.toUInt32) = some definition →
          decode? dictionary definition.dataType (path.child record.type.toUInt32)
            record.value = none) :
      EntryOf dictionary path record (record.type, .plain (.string record.value))

theorem entryOf_decodeRecord (dictionary : Dictionary) (path : TypePath) (record : Record) :
    EntryOf dictionary path record (decodeRecord dictionary path record) := by
  simp only [decodeRecord]
  cases known : dictionary.tlv? (path.child record.type.toUInt32) with
  | none =>
      refine .untyped fun definition listed => ?_
      cases known.symm.trans listed
  | some definition =>
      rw [Option.bind_some]
      cases read : decode? dictionary definition.dataType (path.child record.type.toUInt32)
          record.value with
      | some value => exact .declared known read
      | none =>
          refine .untyped fun other listed => ?_
          cases known.symm.trans listed
          exact read

theorem eq_of_entryOf {record : Record} {entry : UInt8 × Value}
    (kept : EntryOf dictionary path record entry) : entry = decodeRecord dictionary path record := by
  simp only [decodeRecord]
  cases kept with
  | declared known spelled => rw [known, Option.bind_some, spelled, Option.getD_some]
  | untyped unread =>
      rw [Option.bind_eq_none_iff.mpr unread, Option.getD_none]
      rfl

theorem decode?_writeAll (dictionary : Dictionary) (path : TypePath) (records : List Record) :
    decode? dictionary .tlv path (Record.writeAll records) =
      some (.tlv (records.map (decodeRecord dictionary path))) := by
  rw [decode?_tlv, Record.readAll_writeAll]
  rfl

/-- Reserved bits are set in a long extended value: in the octets themselves, or in a record that the
dictionary declares in a tree, at any depth. -/
inductive HasReserved (dictionary : Dictionary) : DataType → TypePath → Octets → Prop
  | flags {path : TypePath} {extendedType flags : UInt8} {payload : Octets}
      (set : flags &&& 0x3F ≠ 0) :
      HasReserved dictionary .longExtended path (extendedType :: flags :: payload)
  | record {path : TypePath} {records : List Record} {record : Record} {definition : TlvDefinition}
      (member : record ∈ records)
      (known : dictionary.tlv? (path.child record.type.toUInt32) = some definition)
      (deeper : HasReserved dictionary definition.dataType (path.child record.type.toUInt32)
        record.value) :
      HasReserved dictionary .tlv path (Record.writeAll records)

theorem hasReserved_longExtended_iff :
    HasReserved dictionary .longExtended path octets ↔ octets.modify 1 (· &&& 0xC0) ≠ octets := by
  constructor
  · rintro (set | _)
    simpa [List.modify_succ_cons, Container.flags_kept_iff] using set
  · match octets with
    | [] | [_] => exact fun changed => absurd rfl changed
    | extendedType :: flags :: payload =>
        intro changed
        refine .flags fun clear => changed ?_
        simp [List.modify_succ_cons, Container.flags_kept_iff, clear]

theorem hasReserved_tlv_iff {records : List Record} :
    HasReserved dictionary .tlv path (Record.writeAll records) ↔
      ∃ record ∈ records, ∃ definition,
        dictionary.tlv? (path.child record.type.toUInt32) = some definition ∧
          HasReserved dictionary definition.dataType (path.child record.type.toUInt32)
            record.value := by
  constructor
  · intro reserved
    generalize joined : Record.writeAll records = octets at reserved
    cases reserved with
    | record member known deeper =>
        cases Record.writeAll_injective joined
        exact ⟨_, member, _, known, deeper⟩
  · rintro ⟨record, member, definition, known, deeper⟩
    exact .record member known deeper

theorem isSome_of_hasReserved (reserved : HasReserved dictionary type path octets) :
    (decode? dictionary type path octets).isSome := by
  cases reserved with
  | flags set =>
      simp only [decode?]
      rfl
  | record member known deeper =>
      rw [decode?_writeAll]
      rfl

/-- How a value is written that was read: with the octets it was read from, except where reserved
bits are set in them. -/
structure Keeps (dictionary : Dictionary) (type : DataType) (path : TypePath) (octets : Octets)
    (value : Value) : Prop where
  octets_eq_iff : value.octets = octets ↔ ¬HasReserved dictionary type path octets
  cleared : type = .longExtended → value.octets = octets.modify 1 (· &&& 0xC0)
  length_octets : value.octets.length = octets.length
  length_eq : value.encodedLength = octets.length
  type_eq : value.dataType = type

structure KeepsRecord (dictionary : Dictionary) (path : TypePath) (record : Record)
    (entry : UInt8 × Value) : Prop where
  type_eq : entry.1 = record.type
  octets_eq_iff : entry.2.octets = record.value ↔
    ∀ definition, dictionary.tlv? (path.child record.type.toUInt32) = some definition →
      ¬HasReserved dictionary definition.dataType (path.child record.type.toUInt32) record.value
  cleared : ∀ definition, dictionary.tlv? (path.child record.type.toUInt32) = some definition →
    definition.dataType = .longExtended → entry.2.octets = record.value.modify 1 (· &&& 0xC0)
  length_octets : entry.2.octets.length = record.value.length
  length_eq : entry.2.encodedLength = record.value.length

theorem not_hasReserved_of_flat (flat : type ≠ .longExtended ∧ type ≠ .tlv) :
    ¬HasReserved dictionary type path octets := by
  intro reserved
  cases reserved with
  | flags set => exact flat.1 rfl
  | record member known deeper => exact flat.2 rfl

theorem keeps_of_spells {value : Value} (spells : value.Spells type octets)
    (flat : type ≠ .longExtended ∧ type ≠ .tlv) : Keeps dictionary type path octets value where
  octets_eq_iff := iff_of_true spells.octets_eq (not_hasReserved_of_flat flat)
  cleared := fun long => absurd long flat.1
  length_octets := by rw [spells.octets_eq]
  length_eq := spells.length_eq
  type_eq := spells.type_eq

theorem keeps_longExtended {container : Container}
    (read : Container.decodeLongExtended? octets = some container) :
    Keeps dictionary .longExtended path octets (.container container) := by
  obtain ⟨written, counted, typed⟩ := Container.octets_of_decodeLongExtended? read
  refine ⟨?_, fun _ => written, ?_, counted, typed⟩
  · rw [hasReserved_longExtended_iff, not_not, ← written]
    rfl
  · rw [Value.octets, written, List.length_modify]

theorem keepsRecord_of_entryOf {record : Record} {entry : UInt8 × Value}
    (kept : EntryOf dictionary path record entry)
    (inside : ∀ (definition : TlvDefinition) value,
      decode? dictionary definition.dataType (path.child record.type.toUInt32) record.value =
        some value →
      Keeps dictionary definition.dataType (path.child record.type.toUInt32) record.value value) :
    KeepsRecord dictionary path record entry := by
  cases kept with
  | @declared definition value known spelled =>
      have keeps := inside definition value spelled
      have only : ∀ other, dictionary.tlv? (path.child record.type.toUInt32) = some other →
          definition = other := fun other listed => Option.some.inj (known.symm.trans listed)
      refine ⟨rfl, ?_, ?_, keeps.length_octets, keeps.length_eq⟩
      · rw [keeps.octets_eq_iff]
        constructor
        · intro unreserved other listed
          rwa [← only other listed]
        · exact fun unreserved => unreserved definition known
      · intro other listed long
        exact keeps.cleared (only other listed ▸ long)
  | untyped unread =>
      refine ⟨rfl, iff_of_true rfl ?_, ?_, rfl, rfl⟩
      · intro definition listed reserved
        have read := isSome_of_hasReserved reserved
        rw [unread definition listed] at read
        contradiction
      · intro definition listed long
        -- octets that are no long extended value have no flags
        have short := unread definition listed
        rw [long] at short
        generalize record.value = content at short ⊢
        match content, short with
        | [], _ => rfl
        | [_], _ => rfl
        | _ :: _ :: _, short =>
            simp only [decode?] at short
            contradiction

theorem length_recordsOctets {records : List (UInt8 × Value)}
    (each : ∀ record ∈ records, record.2.octets.length = record.2.encodedLength) :
    (recordsOctets records).length = recordsLength records := by
  induction records with
  | nil => rfl
  | cons record rest ih =>
      have front := each record List.mem_cons_self
      have behind := ih fun later member => each later (List.mem_cons_of_mem record member)
      rw [recordsOctets, recordsLength, List.length_cons, List.length_cons, List.length_append,
        front, behind]
      omega

theorem recordsOctets_eq_iff {read : Record → UInt8 × Value} {records : List Record}
    (each : ∀ record ∈ records, KeepsRecord dictionary path record (read record)) :
    recordsOctets (records.map read) = Record.writeAll records ↔
      ∀ record ∈ records, (read record).2.octets = record.value := by
  induction records with
  | nil => simp [recordsOctets, Record.writeAll]
  | cons record rest ih =>
      have front := each record List.mem_cons_self
      have behind := ih fun later member => each later (List.mem_cons_of_mem record member)
      have head : Record.writeAll (record :: rest) =
          record.type :: UInt8.ofNat (2 + record.value.length) ::
            (record.value ++ Record.writeAll rest) := rfl
      rw [List.map_cons, recordsOctets, front.type_eq, front.length_eq, head,
        List.forall_mem_cons, ← behind, List.cons_inj_right, List.cons_inj_right]
      constructor
      · intro same
        exact List.append_inj same front.length_octets
      · rintro ⟨same, later⟩
        rw [same, later]

theorem recordsLength_eq {read : Record → UInt8 × Value} {records : List Record}
    (each : ∀ record ∈ records, (read record).2.encodedLength = record.value.length) :
    recordsLength (records.map read) = (Record.writeAll records).length := by
  induction records with
  | nil => rfl
  | cons record rest ih =>
      have front := each record List.mem_cons_self
      have behind := ih fun later member => each later (List.mem_cons_of_mem record member)
      have head : Record.writeAll (record :: rest) = record.octets ++ Record.writeAll rest := rfl
      rw [List.map_cons, recordsLength, front, behind, head, List.length_append,
        Record.length_octets, Record.encodedLength, Record.headerLength]

theorem keeps_tlv {records : List Record}
    (each : ∀ record ∈ records,
      KeepsRecord dictionary path record (decodeRecord dictionary path record)) :
    Keeps dictionary .tlv path (Record.writeAll records)
      (.tlv (records.map (decodeRecord dictionary path))) := by
  have counted := recordsLength_eq fun record member => (each record member).length_eq
  have written : (recordsOctets (records.map (decodeRecord dictionary path))).length =
      recordsLength (records.map (decodeRecord dictionary path)) := by
    apply length_recordsOctets
    rw [List.forall_mem_map]
    intro record member
    rw [(each record member).length_octets, (each record member).length_eq]
  refine ⟨?_, fun long => absurd long (by decide), written.trans counted, counted, rfl⟩
  rw [Value.octets, recordsOctets_eq_iff each, hasReserved_tlv_iff]
  constructor
  · rintro same ⟨record, member, definition, known, deeper⟩
    exact (each record member).octets_eq_iff.mp (same record member) definition known deeper
  · intro unreserved record member
    refine (each record member).octets_eq_iff.mpr fun definition known deeper => ?_
    exact unreserved ⟨record, member, definition, known, deeper⟩

theorem keeps_of_decode? {value : Value} (read : decode? dictionary type path octets = some value) :
    Keeps dictionary type path octets value := by
  -- the octets of a record in a tree are fewer than those of the tree
  induction size : octets.length using Nat.strongRecOn generalizing type path octets value with
  | ind bound ih =>
      cases type with
      | longExtended =>
          simp only [decode?] at read
          obtain ⟨container, found, rfl⟩ := Option.map_eq_some_iff.mp read
          exact keeps_longExtended found
      | extended =>
          simp only [decode?] at read
          obtain ⟨container, found, rfl⟩ := Option.map_eq_some_iff.mp read
          obtain ⟨source, typed⟩ := Container.readFrom_of_decodeExtended? found
          exact keeps_of_spells (spells_container source typed) (by decide)
      | vsa =>
          simp only [decode?] at read
          obtain ⟨container, found, rfl⟩ := Option.map_eq_some_iff.mp read
          obtain ⟨source, typed⟩ := Container.readFrom_of_decodeVsa? found
          exact keeps_of_spells (spells_container source typed) (by decide)
      | evs =>
          simp only [decode?] at read
          obtain ⟨container, found, rfl⟩ := Option.map_eq_some_iff.mp read
          obtain ⟨source, typed⟩ := Container.readFrom_of_decodeEvs? found
          exact keeps_of_spells (spells_container source typed) (by decide)
      | concat =>
          simp only [decode?] at read
          obtain ⟨joined, found, rfl⟩ := Option.map_eq_some_iff.mp read
          exact keeps_of_spells (spells_concat (Result.toOption_eq_some_iff.mp found)) (by decide)
      | tlv =>
          rw [decode?_tlv] at read
          obtain ⟨records, found, rfl⟩ := Option.map_eq_some_iff.mp read
          have split := Result.toOption_eq_some_iff.mp found
          rw [← Record.writeAll_of_readAll split]
          refine keeps_tlv fun record member => ?_
          have shorter := Record.length_value_lt_of_readAll split member
          refine keepsRecord_of_entryOf (entryOf_decodeRecord dictionary path record) ?_
          intro definition value spelled
          exact ih _ (by omega) spelled rfl
      | _ =>
          simp only [decode?] at read
          obtain ⟨plain, found, rfl⟩ := Option.map_eq_some_iff.mp read
          exact keeps_of_spells (spells_plain (PlainValue.spells_of_decode? found)) (by decide)

theorem not_hasReserved (trees : dictionary.KeepsTrees) (other : type ≠ .longExtended) :
    ¬HasReserved dictionary type path octets := by
  intro reserved
  induction reserved with
  | flags set => contradiction
  | record member known deeper ih => exact ih (trees known)

theorem spells_of_decode? {value : Value}
    (trees : dictionary.KeepsTrees) (unreserved : type ≠ .longExtended)
    (read : decode? dictionary type path octets = some value) : value.Spells type octets :=
  have keeps := keeps_of_decode? read
  ⟨keeps.octets_eq_iff.mpr (not_hasReserved trees unreserved), keeps.length_eq, keeps.type_eq⟩

theorem fits_of_decode? {container : Container}
    (read : decode? dictionary type path octets = some (.container container)) :
    container.Fits := by
  unfold decode? at read
  split at read
  · obtain ⟨value, found, same⟩ := Option.map_eq_some_iff.mp read
    cases same
    exact (Container.readFrom_of_decodeExtended? found).1.fits
  · obtain ⟨value, found, same⟩ := Option.map_eq_some_iff.mp read
    cases same
    unfold Container.decodeLongExtended? at found
    split at found
    · cases found
      trivial
    · contradiction
  · obtain ⟨value, found, same⟩ := Option.map_eq_some_iff.mp read
    cases same
    exact (Container.readFrom_of_decodeVsa? found).1.fits
  · obtain ⟨value, found, same⟩ := Option.map_eq_some_iff.mp read
    cases same
    exact (Container.readFrom_of_decodeEvs? found).1.fits
  · obtain ⟨_, _, same⟩ := Option.map_eq_some_iff.mp read
    contradiction
  · split at read <;> cases read
  · obtain ⟨_, _, same⟩ := Option.map_eq_some_iff.mp read
    contradiction

end Value

end Radius
