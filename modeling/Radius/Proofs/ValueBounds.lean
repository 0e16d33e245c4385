import Radius.Proofs.Spelling

/-!
The bounds of values that were read. A reader builds values without asking the constructors that
check their parts. What it builds is within the bounds of these constructors all the same, down to
the records of a tree: a value in a tree was itself read, from the octets of its record, and no
record has more than 253 of them.
-/

namespace Radius

namespace Tag

def Apart (tag : Option Tag) (octets : Octets) : Prop :=
  tag = none → ∀ first ∈ octets.head?, 31 < first.toNat

theorem le_iff_toNat_le (octet : UInt8) : octet ≤ 0x1F ↔ octet.toNat ≤ 31 := UInt8.le_iff_toNat_le

theorem octet_toNat_le (tag : Tag) : tag.octet.toNat ≤ 31 := (le_iff_toNat_le _).mp tag.octet_le

theorem make_octet (tag : Tag) : make tag.octet = .ok tag := by
  rw [make, ofOctet?_octet]

theorem checkOptional_eq_ok_iff {tag : Option Tag} {octets : Octets} :
    checkOptional tag octets = .ok () ↔ Apart tag octets := by
  cases tag with
  | some tag => exact iff_of_true rfl nofun
  | none =>
      cases octets with
      | nil =>
          refine iff_of_true rfl fun _ first starts => ?_
          contradiction
      | cons first rest =>
          simp only [checkOptional, le_iff_toNat_le]
          split
          · rename_i small
            constructor
            · intro passed
              contradiction
            · intro apart
              exact absurd small (Nat.not_le.mpr (apart rfl first rfl))
          · rename_i large
            refine iff_of_true rfl ?_
            rintro - other ⟨⟩
            exact Nat.lt_of_not_le large

theorem apart_of_splitOptional {octets rest : Octets} {tag : Option Tag}
    (split : splitOptional octets = (tag, rest)) : Apart tag rest := by
  rintro rfl first starts
  cases octets with
  | nil =>
      cases split
      contradiction
  | cons octet later =>
      rw [splitOptional, ofOctet?] at split
      by_cases small : octet ≤ 0x1F
      · rw [dif_pos small] at split
        cases split
      · rw [dif_neg small] at split
        cases split
        cases starts
        rw [le_iff_toNat_le] at small
        exact Nat.lt_of_not_le small

end Tag

namespace PlainValue

def IsText (content : String) : Prop := ByteArray.IsValidUTF8 ⟨(Text.utf8 content).toArray⟩

theorem isText (content : String) : IsText content := content.isValidUTF8

def InBounds : PlainValue → Prop
  | .ipv4Prefix value =>
      value.length.toNat ≤ 32 ∧ value.address.octets.ClearFrom value.length.toNat
  | .ipv6Prefix value =>
      (value.length.toNat ≤ 128 ∧ value.address.octets.ClearFrom value.length.toNat) ∧
        value.length.toNat ≤ 8 * value.carried ∧ value.carried ≤ 16
  | .text content => IsText content
  | .optionalTaggedString tag content =>
      (∀ found ∈ tag, found.octet.toNat ≤ 31) ∧ Tag.Apart tag content
  | .optionalTaggedText tag content =>
      (∀ found ∈ tag, found.octet.toNat ≤ 31) ∧ Tag.Apart tag (Text.utf8 content) ∧ IsText content
  | .taggedString tag _ => tag.octet.toNat ≤ 31
  | .taggedText tag content => tag.octet.toNat ≤ 31 ∧ IsText content
  | .taggedInteger tag value => tag.octet.toNat ≤ 31 ∧ value.toNat < 16777216
  | _ => True

/-- The constructors that check their parts give the value for its own parts. An IPv6 prefix has as
many octets as they give it, or more, up to the whole address. -/
def Accepted : PlainValue → Prop
  | .ipv4Prefix value => Ipv4Prefix.make value.address value.length = .ok value
  | .ipv6Prefix value =>
      ∃ least, Ipv6Prefix.make value.address value.length = .ok least ∧
        least.carried ≤ value.carried ∧ value.carried ≤ 16
  | .optionalTaggedString tag content =>
      (∀ found ∈ tag, Tag.make found.octet = .ok found) ∧
        makeOptionalTaggedString tag content = .ok (.optionalTaggedString tag content)
  | .optionalTaggedText tag content =>
      (∀ found ∈ tag, Tag.make found.octet = .ok found) ∧
        makeOptionalTaggedText tag content = .ok (.optionalTaggedText tag content)
  | .taggedString tag _ | .taggedText tag _ => Tag.make tag.octet = .ok tag
  | .taggedInteger tag value =>
      Tag.make tag.octet = .ok tag ∧ makeTaggedInteger tag value = .ok (.taggedInteger tag value)
  | _ => True

theorem makeTaggedInteger_eq_ok_iff {tag : Tag} {value : UInt32} :
    makeTaggedInteger tag value = .ok (.taggedInteger tag value) ↔ value.toNat < 16777216 := by
  have limit : maxTaggedInteger < value ↔ ¬value.toNat < 16777216 :=
    UInt32.lt_iff_toNat_lt.trans (Nat.succ_le_iff.symm.trans Nat.not_lt.symm)
  simp only [makeTaggedInteger, limit]
  split
  · rename_i large
    exact iff_of_false nofun large
  · rename_i small
    exact iff_of_true rfl (Decidable.of_not_not small)

theorem makeOptionalTaggedString_eq_ok_iff {tag : Option Tag} {content : Octets} :
    makeOptionalTaggedString tag content = .ok (.optionalTaggedString tag content) ↔
      Tag.Apart tag content := by
  rw [← Tag.checkOptional_eq_ok_iff, makeOptionalTaggedString, Result.bind_eq_ok_iff]
  exact ⟨fun ⟨_, checked, _⟩ => checked, fun checked => ⟨(), checked, rfl⟩⟩

theorem makeOptionalTaggedText_eq_ok_iff {tag : Option Tag} {content : String} :
    makeOptionalTaggedText tag content = .ok (.optionalTaggedText tag content) ↔
      Tag.Apart tag (Text.utf8 content) := by
  rw [← Tag.checkOptional_eq_ok_iff, makeOptionalTaggedText, Result.bind_eq_ok_iff]
  exact ⟨fun ⟨_, checked, _⟩ => checked, fun checked => ⟨(), checked, rfl⟩⟩

theorem accepted_iff_inBounds {value : PlainValue} : value.Accepted ↔ value.InBounds := by
  have tagged : ∀ tag : Option Tag, (∀ found ∈ tag, Tag.make found.octet = .ok found) ↔
      ∀ found ∈ tag, found.octet.toNat ≤ 31 := fun tag =>
    iff_of_true (fun found _ => found.make_octet) (fun found _ => found.octet_toNat_le)
  cases value with
  | ipv4Prefix value =>
      rw [Accepted, Ipv4Prefix.make_eq_ok_iff, InBounds]
      exact and_iff_left rfl
  | ipv6Prefix value =>
      simp only [Accepted, Ipv6Prefix.make_eq_ok_iff, InBounds]
      constructor
      · rintro ⟨least, ⟨bounds, rfl⟩, enough, within⟩
        refine ⟨bounds, ?_, within⟩
        have octets : (value.length.toNat + 7) / 8 ≤ value.carried := enough
        omega
      · rintro ⟨bounds, enough, within⟩
        refine ⟨_, ⟨bounds, rfl⟩, ?_, within⟩
        change (value.length.toNat + 7) / 8 ≤ value.carried
        omega
  | optionalTaggedString tag content =>
      rw [Accepted, InBounds, tagged, makeOptionalTaggedString_eq_ok_iff]
  | optionalTaggedText tag content =>
      rw [Accepted, InBounds, tagged, makeOptionalTaggedText_eq_ok_iff,
        and_iff_left (isText content)]
  | taggedString tag content => exact iff_of_true tag.make_octet tag.octet_toNat_le
  | taggedText tag content =>
      exact iff_of_true tag.make_octet ⟨tag.octet_toNat_le, isText content⟩
  | taggedInteger tag value =>
      rw [Accepted, InBounds, makeTaggedInteger_eq_ok_iff, and_iff_right tag.make_octet,
        and_iff_right tag.octet_toNat_le]
  | text content => exact iff_of_true trivial (isText content)
  | _ => exact Iff.rfl

theorem inBounds_of_ipv6Prefix {octets : Octets} {value : Ipv6Prefix}
    (read : Ipv6Prefix.decode? octets = some value) : (PlainValue.ipv6Prefix value).InBounds := by
  unfold Ipv6Prefix.decode? at read
  split at read
  · rename_i length rest
    obtain ⟨_, enough, read⟩ := Option.bind_eq_some_iff.mp read
    obtain ⟨address, held, read⟩ := Option.bind_eq_some_iff.mp read
    obtain ⟨least, made, built⟩ := Option.bind_eq_some_iff.mp read
    obtain ⟨bounds, rfl⟩ := Ipv6Prefix.make_eq_ok_iff.mp (Result.toOption_eq_some_iff.mp made)
    have width := congrArg List.length (OctetField.octets_of_ofOctets? held)
    rw [address.length_octets, List.length_append, List.length_replicate] at width
    have needed : length.toNat ≤ 8 * rest.length := by
      by_contra few
      simp [guard, few] at enough
    cases built
    exact ⟨bounds, needed, (by omega : rest.length ≤ 16)⟩
  · contradiction

theorem inBounds_of_decode? {type : DataType} {octets : Octets} {value : PlainValue}
    (read : decode? type octets = some value) : value.InBounds := by
  cases type with
  | ipv4Prefix =>
      obtain ⟨range, found, rfl⟩ := Option.map_eq_some_iff.mp read
      unfold Ipv4Prefix.decode? at found
      split at found
      · obtain ⟨address, -, made⟩ := Option.bind_eq_some_iff.mp found
        obtain ⟨bounds, rfl⟩ := Ipv4Prefix.make_eq_ok_iff.mp (Result.toOption_eq_some_iff.mp made)
        exact bounds
      · contradiction
  | ipv6Prefix =>
      obtain ⟨range, found, rfl⟩ := Option.map_eq_some_iff.mp read
      exact inBounds_of_ipv6Prefix found
  | text =>
      obtain ⟨content, -, rfl⟩ := Option.map_eq_some_iff.mp read
      exact isText content
  | optionalTaggedString =>
      rcases cut : Tag.splitOptional octets with ⟨tag, rest⟩
      rw [decode?, cut] at read
      cases read
      exact ⟨fun found _ => found.octet_toNat_le, Tag.apart_of_splitOptional cut⟩
  | optionalTaggedText =>
      rcases cut : Tag.splitOptional octets with ⟨tag, rest⟩
      rw [decode?, cut] at read
      obtain ⟨content, held, rfl⟩ := Option.map_eq_some_iff.mp read
      have apart := Tag.apart_of_splitOptional cut
      rw [← Text.utf8_of_ofUtf8? held] at apart
      exact ⟨fun found _ => found.octet_toNat_le, apart, isText content⟩
  | taggedString =>
      obtain ⟨⟨tag, rest⟩, -, rfl⟩ := Option.map_eq_some_iff.mp read
      exact tag.octet_toNat_le
  | taggedText =>
      obtain ⟨⟨tag, rest⟩, -, found⟩ := Option.bind_eq_some_iff.mp read
      obtain ⟨content, -, built⟩ := Option.bind_eq_some_iff.mp found
      cases built
      exact ⟨tag.octet_toNat_le, isText content⟩
  | taggedInteger =>
      obtain ⟨⟨tag, rest⟩, -, found⟩ := Option.bind_eq_some_iff.mp read
      obtain ⟨number, counted, built⟩ := Option.bind_eq_some_iff.mp found
      obtain ⟨-, -, small⟩ := of_readNumber? counted
      cases built
      have word := toNat_ofNat_of_lt (Nat.lt_trans small (by decide))
      exact ⟨tag.octet_toNat_le, by rw [word]; exact small⟩
  | string =>
      cases read
      trivial
  | integer | integer64 | enum | time | ipv4Addr | ipv6Addr | ifid =>
      obtain ⟨_, -, rfl⟩ := Option.map_eq_some_iff.mp read
      trivial
  | _ => contradiction

end PlainValue

namespace Container

def InBounds : Container → Prop
  | .extended _ payload => payload.length ≤ 252
  | .longExtended _ _ _ payload => payload.length ≤ 251
  | .vsa vendor _ payload => vendor.toNat < 16777216 ∧ payload.length ≤ 247
  | .evs vendor _ _ => vendor.toNat < 16777216

def Accepted : Container → Prop
  | .extended extendedType payload =>
      makeExtended extendedType payload = .ok (.extended extendedType payload)
  | .longExtended extendedType more truncated payload =>
      makeFragment extendedType more truncated payload =
        .ok (.longExtended extendedType more truncated payload)
  | .vsa vendor vendorType payload =>
      makeVsa vendor vendorType payload = .ok (.vsa vendor vendorType payload)
  | .evs vendor vendorType payload =>
      makeEvs vendor vendorType payload = .ok (.evs vendor vendorType payload)

theorem le_maxVendorId_iff (vendor : UInt32) : vendor ≤ maxVendorId ↔ vendor.toNat < 16777216 :=
  UInt32.le_iff_toNat_le.trans Nat.lt_succ_iff.symm

theorem accepted_iff_inBounds {container : Container} :
    container.Accepted ↔ container.InBounds := by
  cases container with
  | extended extendedType payload =>
      rw [Accepted, makeExtended_eq_ok_iff]
      exact and_iff_right rfl
  | longExtended extendedType more truncated payload =>
      rw [Accepted, InBounds, makeFragment, Result.bind_eq_ok_iff]
      constructor
      · rintro ⟨_, checked, -⟩
        exact (checkLength_eq_ok_iff ..).mp checked
      · intro short
        exact ⟨(), (checkLength_eq_ok_iff ..).mpr short, rfl⟩
  | vsa vendor vendorType payload =>
      rw [Accepted, InBounds, makeVsa_eq_ok_iff, ← le_maxVendorId_iff]
      exact and_iff_right rfl
  | evs vendor vendorType payload =>
      rw [Accepted, InBounds, makeEvs_eq_ok_iff, ← le_maxVendorId_iff]
      exact and_iff_right rfl

end Container

namespace Value

def InBounds : Value → Prop
  | .plain value => value.InBounds
  | .container value => value.InBounds
  | .concat value => value.fragments ≠ [] ∧ ∀ fragment ∈ value.fragments, fragment.length ≤ 253
  | .tlv records => ∀ record ∈ records, record.2.octets.length ≤ 253

def Accepted : Value → Prop
  | .plain value => value.Accepted
  | .container value => value.Accepted
  | .concat value => Concat.ofFragments value.fragments = .ok value
  | .tlv records => ∀ record ∈ records, makeRecord record.1 record.2 = .ok record

/-- The value itself, or one in a tree that it holds. -/
inductive Holds : Value → Value → Prop
  | self (value : Value) : Holds value value
  | inside {records : List (UInt8 × Value)} {record : UInt8 × Value} {inner : Value}
      (member : record ∈ records) (deeper : Holds record.2 inner) : Holds (.tlv records) inner

variable {dictionary : Dictionary} {type : DataType} {path : TypePath} {octets : Octets}
  {value inner : Value}

theorem empty_keepsTrees : DefinitionTable.empty.toDictionary.KeepsTrees := by
  intro path definition listed
  cases listed

theorem decode?_of_ne_tlv (leaf : type ≠ .tlv) (other : Dictionary) :
    decode? dictionary type path octets = decode? other type path octets := by
  cases type with
  | tlv => contradiction
  | _ => simp only [decode?]

theorem decode?_string (dictionary : Dictionary) (path : TypePath) (octets : Octets) :
    decode? dictionary .string path octets = some (untypedOctets octets) := by
  simp only [decode?, PlainValue.decode?, Option.map_some, untypedOctets]

theorem type_of_decode?_tlv {records : List (UInt8 × Value)}
    (read : decode? dictionary type path octets = some (.tlv records)) : type = .tlv := by
  by_contra leaf
  rw [decode?_of_ne_tlv leaf DefinitionTable.empty.toDictionary] at read
  by_cases long : type = .longExtended
  · rw [long, decode?] at read
    obtain ⟨_, -, same⟩ := Option.map_eq_some_iff.mp read
    contradiction
  · exact leaf (spells_of_decode? empty_keepsTrees long read).type_eq.symm

theorem reads_decodeRecord (dictionary : Dictionary) (path : TypePath) (record : Record) :
    ∃ type, decode? dictionary type (path.child record.type.toUInt32) record.value =
      some (decodeRecord dictionary path record).2 := by
  have kept := entryOf_decodeRecord dictionary path record
  generalize decodeRecord dictionary path record = entry at kept ⊢
  cases kept with
  | @declared definition value known spelled => exact ⟨definition.dataType, spelled⟩
  | untyped unread => exact ⟨.string, decode?_string ..⟩

theorem recordsLength_map {read : Record → UInt8 × Value} {records : List Record}
    (counted : ∀ record ∈ records, (read record).2.encodedLength = record.value.length) :
    recordsLength (records.map read) = (Record.writeAll records).length := by
  induction records with
  | nil => rfl
  | cons record rest ih =>
      have front : Record.writeAll (record :: rest) = record.octets ++ Record.writeAll rest := rfl
      have behind := ih fun later member => counted later (List.mem_cons_of_mem record member)
      rw [List.map_cons, recordsLength, counted record List.mem_cons_self, behind, front,
        List.length_append, Record.length_octets, Record.encodedLength, Record.headerLength]

theorem lengths_of_decode? (read : decode? dictionary type path octets = some value) :
    value.encodedLength = octets.length ∧ value.octets.length = octets.length := by
  -- the octets of a record in a tree are fewer than those of the tree
  induction size : octets.length using Nat.strongRecOn generalizing type path octets value with
  | ind bound ih =>
      subst size
      by_cases tree : type = .tlv
      · rw [tree, decode?_tlv] at read
        obtain ⟨records, found, rfl⟩ := Option.map_eq_some_iff.mp read
        have split := Result.toOption_eq_some_iff.mp found
        have each : ∀ record ∈ records,
            (decodeRecord dictionary path record).2.encodedLength = record.value.length ∧
              (decodeRecord dictionary path record).2.octets.length = record.value.length := by
          intro record member
          obtain ⟨type, decoded⟩ := reads_decodeRecord dictionary path record
          exact ih _ (Record.length_value_lt_of_readAll split member) decoded rfl
        have counted := recordsLength_map fun record member => (each record member).1
        have written : (recordsOctets (records.map (decodeRecord dictionary path))).length =
            recordsLength (records.map (decodeRecord dictionary path)) := by
          apply length_recordsOctets
          rw [List.forall_mem_map]
          intro record member
          obtain ⟨counted, written⟩ := each record member
          exact written.trans counted.symm
        rw [← Record.writeAll_of_readAll split]
        exact ⟨counted, written.trans counted⟩
      · rw [decode?_of_ne_tlv tree DefinitionTable.empty.toDictionary] at read
        by_cases long : type = .longExtended
        · rw [long, decode?] at read
          obtain ⟨container, found, rfl⟩ := Option.map_eq_some_iff.mp read
          obtain ⟨-, counted, -⟩ := Container.octets_of_decodeLongExtended? found
          rw [Value.encodedLength, Value.octets, container.length_octets]
          exact ⟨counted, counted⟩
        · have spells := spells_of_decode? empty_keepsTrees long read
          exact ⟨spells.length_eq, congrArg List.length spells.octets_eq⟩

theorem reads_of_holds (short : octets.length ≤ 253)
    (read : decode? dictionary type path octets = some value) (within : value.Holds inner) :
    ∃ type path octets, octets.length ≤ 253 ∧
      decode? dictionary type path octets = some inner := by
  induction within generalizing type path octets with
  | self value => exact ⟨type, path, octets, short, read⟩
  | inside member deeper ih =>
      rw [type_of_decode?_tlv read, decode?_tlv] at read
      obtain ⟨records, -, same⟩ := Option.map_eq_some_iff.mp read
      cases same
      obtain ⟨record, -, rfl⟩ := List.mem_map.mp member
      obtain ⟨type, decoded⟩ := reads_decodeRecord dictionary path record
      exact ih record.length_le decoded

theorem bounds_of_container {container : Container} (short : octets.length ≤ 253)
    (read : decode? dictionary type path octets = some (.container container)) :
    container.InBounds := by
  have fits := fits_of_decode? read
  cases container with
  | extended extendedType payload => exact fits
  | longExtended extendedType more truncated payload =>
      obtain ⟨counted, -⟩ := lengths_of_decode? read
      simp only [Value.encodedLength, Container.encodedLength] at counted
      exact (by omega : payload.length ≤ 251)
  | vsa vendor vendorType payload => exact ⟨(Container.le_maxVendorId_iff _).mp fits.1, fits.2⟩
  | evs vendor vendorType payload => exact (Container.le_maxVendorId_iff _).mp fits

theorem bounds_of_record (dictionary : Dictionary) (path : TypePath) (record : Record) :
    (decodeRecord dictionary path record).2.octets.length ≤ 253 ∧
      makeRecord (decodeRecord dictionary path record).1 (decodeRecord dictionary path record).2 =
        .ok (decodeRecord dictionary path record) := by
  obtain ⟨type, decoded⟩ := reads_decodeRecord dictionary path record
  obtain ⟨counted, written⟩ := lengths_of_decode? decoded
  refine ⟨written ▸ record.length_le, ?_⟩
  rw [makeRecord, if_neg (Nat.not_lt.mpr (counted ▸ record.length_le))]

/-- What the octets of one record are read as is within its bounds. -/
theorem bounds_of_decode? (short : octets.length ≤ 253)
    (read : decode? dictionary type path octets = some value) :
    value.InBounds ∧ value.Accepted := by
  cases type with
  | tlv =>
      rw [decode?_tlv] at read
      obtain ⟨records, -, rfl⟩ := Option.map_eq_some_iff.mp read
      simp only [InBounds, Accepted, List.forall_mem_map]
      exact ⟨fun record _ => (bounds_of_record dictionary path record).1,
        fun record _ => (bounds_of_record dictionary path record).2⟩
  | concat =>
      simp only [decode?] at read
      obtain ⟨joined, found, rfl⟩ := Option.map_eq_some_iff.mp read
      have made := Result.toOption_eq_some_iff.mp found
      obtain ⟨rfl, bounds⟩ := Concat.ofFragments_eq_ok_iff.mp made
      exact ⟨bounds, made⟩
  | extended | longExtended | vsa | evs =>
      have found := read
      simp only [decode?] at found
      obtain ⟨container, -, rfl⟩ := Option.map_eq_some_iff.mp found
      have bounds := bounds_of_container short read
      exact ⟨bounds, Container.accepted_iff_inBounds.mpr bounds⟩
  | _ =>
      simp only [decode?] at read
      obtain ⟨plain, found, rfl⟩ := Option.map_eq_some_iff.mp read
      have bounds := PlainValue.inBounds_of_decode? found
      exact ⟨bounds, PlainValue.accepted_iff_inBounds.mpr bounds⟩

/-- Reading gives no value that the constructors would refuse, on its own or inside a tree,
whatever the dictionary knows. -/
theorem read_within_bounds (short : octets.length ≤ 253)
    (read : decode? dictionary type path octets = some value) :
    ∀ inner, value.Holds inner → inner.InBounds ∧ inner.Accepted := by
  intro inner within
  obtain ⟨type, path, octets, short, read⟩ := reads_of_holds short read within
  exact bounds_of_decode? short read

end Value

/-- The greatest tag and the greatest number that a tagged integer has, in a tree in a tree. -/
theorem read_within_bounds_greatest :
    (DefinitionTable.treeRecords.insertTlv ⟨⟨241, [9, 1, 3]⟩, "Leaf-Tagged", .taggedInteger⟩).Reachable ∧
      Value.decode?
          (DefinitionTable.treeRecords.insertTlv
            ⟨⟨241, [9, 1, 3]⟩, "Leaf-Tagged", .taggedInteger⟩).toDictionary .tlv ⟨241, [9]⟩
          [1, 8, 3, 6, 0x1F, 0xFF, 0xFF, 0xFF] =
        some (.tlv [(1, .tlv [(3, .plain (.taggedInteger ⟨0x1F, by decide⟩ 0xFFFFFF))])]) ∧
      PlainValue.makeTaggedInteger ⟨0x1F, by decide⟩ 0xFFFFFF =
        .ok (.taggedInteger ⟨0x1F, by decide⟩ 0xFFFFFF) := by
  have read : Value.decode?
      (DefinitionTable.treeRecords.insertTlv
        ⟨⟨241, [9, 1, 3]⟩, "Leaf-Tagged", .taggedInteger⟩).toDictionary .tlv ⟨241, [9]⟩
      [1, 8, 3, 6, 0x1F, 0xFF, 0xFF, 0xFF] =
        some (.tlv [(1, .tlv [(3, .plain (.taggedInteger ⟨0x1F, by decide⟩ 0xFFFFFF))])]) := by
    decide +kernel
  have within := (Value.read_within_bounds (by decide) read _
    (.inside List.mem_cons_self (.inside List.mem_cons_self (.self _)))).2
  exact ⟨.addTlv DefinitionTable.reachable_treeRecords (DefinitionTable.addTlv_eq_ok rfl rfl rfl),
    read, within.2⟩

end Radius
