import Radius.Proofs.HiddenValues
import Radius.Proofs.TableGrowth

/-!
A value and its octets. Whatever octets a value was read from, it is written with them again, apart
from the reserved bits of a long extended value. And a value that the checked constructors build is
the one read from its own octets: the checks exclude every value that would spell another one. The
records of a tree have the types that the dictionary gives them, so a tree is read back if it agrees
with the dictionary.
-/

namespace Radius

section Written

/-- A value that was read has the declared type, and is written with the octets it was read from;
of a long extended value the six reserved bits are cleared. -/
theorem Value.written_as_read {table : DefinitionTable} (reachable : table.Reachable)
    {type : DataType} {path : TypePath} {octets : Octets} {value : Value}
    (read : decode? table.toDictionary type path octets = some value) :
    value.dataType = type ∧ value.encodedLength = octets.length ∧
      value.encodeAs type =
        .ok (if type = .longExtended then octets.modify 1 (· &&& 0xC0) else octets) := by
  have trees := (DefinitionTable.layered_of_reachable reachable).trees
  by_cases long : type = .longExtended
  · subst long
    simp only [decode?] at read
    obtain ⟨container, found, rfl⟩ := Option.map_eq_some_iff.mp read
    obtain ⟨written, counted, typed⟩ := Container.octets_of_decodeLongExtended? found
    have declared : (Value.container container).dataType = .longExtended := typed
    refine ⟨declared, counted, ?_⟩
    rw [encodeAs, if_pos declared, if_pos rfl, Value.octets, written]
  · obtain ⟨written, counted, typed⟩ := spells_of_decode? trees long read
    refine ⟨typed, counted, ?_⟩
    rw [encodeAs, if_pos typed, if_neg long, written]

def DefinitionTable.treeRecords : DefinitionTable :=
  ((empty.insertTlv ⟨⟨241, [9, 1]⟩, "Inner-Tree", .tlv⟩).insertTlv
    ⟨⟨241, [9, 1, 1]⟩, "Leaf-Integer", .integer⟩).insertTlv ⟨⟨241, [9, 1, 2]⟩, "Leaf-Text", .text⟩

theorem DefinitionTable.addTlv_eq_ok {table : DefinitionTable} {path : TypePath} {name : String}
    {type : DataType} (fresh : table.tlv? path = none) (nested : path.isTopLevel = false)
    (leaf : type.isContainer = false) :
    table.addTlv path name type = .ok (table.insertTlv ⟨path, name, type⟩) := by
  simp [addTlv, fresh, nested, leaf]

theorem DefinitionTable.reachable_treeRecords : treeRecords.Reachable :=
  .addTlv (.addTlv (.addTlv .empty (addTlv_eq_ok rfl rfl rfl)) (addTlv_eq_ok rfl rfl rfl))
    (addTlv_eq_ok rfl rfl rfl)

def sampleTree : Value :=
  .tlv [(1, .tlv [(1, .plain (.integer 7)), (2, .plain (.text "ok")), (2, .plain (.string [0xFF]))]),
    (9, .plain (.string [0xAA]))]

theorem written_as_read_sampleTree :
    DefinitionTable.treeRecords.Reachable ∧
      Value.decode? DefinitionTable.treeRecords.toDictionary .tlv ⟨241, [9]⟩
        [1, 15, 1, 6, 0, 0, 0, 7, 2, 4, 111, 107, 2, 3, 0xFF, 9, 3, 0xAA] = some sampleTree ∧
      sampleTree.dataType = .tlv ∧ sampleTree.encodedLength = 18 ∧
      sampleTree.encodeAs .tlv =
        .ok [1, 15, 1, 6, 0, 0, 0, 7, 2, 4, 111, 107, 2, 3, 0xFF, 9, 3, 0xAA] := by
  have read : Value.decode? DefinitionTable.treeRecords.toDictionary .tlv ⟨241, [9]⟩
      [1, 15, 1, 6, 0, 0, 0, 7, 2, 4, 111, 107, 2, 3, 0xFF, 9, 3, 0xAA] = some sampleTree := by
    decide +kernel
  exact ⟨DefinitionTable.reachable_treeRecords, read,
    Value.written_as_read DefinitionTable.reachable_treeRecords read⟩

end Written

inductive PlainValue.Built : PlainValue → Prop
  | integer (number : UInt32) : Built (.integer number)
  | integer64 (number : UInt64) : Built (.integer64 number)
  | enum (number : UInt32) : Built (.enum number)
  | time (number : UInt32) : Built (.time number)
  | ipv4Addr (address : OctetField 4) : Built (.ipv4Addr address)
  | ipv6Addr (address : OctetField 16) : Built (.ipv6Addr address)
  | ipv4Prefix {address : OctetField 4} {length : UInt8} {value : Ipv4Prefix}
      (made : Ipv4Prefix.make address length = .ok value) : Built (.ipv4Prefix value)
  | ipv4Masked {address : OctetField 4} {length : UInt8} {value : Ipv4Prefix}
      (made : Ipv4Prefix.masked address length = .ok value) : Built (.ipv4Prefix value)
  | ipv6Prefix {address : OctetField 16} {length : UInt8} {value : Ipv6Prefix}
      (made : Ipv6Prefix.make address length = .ok value) : Built (.ipv6Prefix value)
  | ipv6Masked {address : OctetField 16} {length : UInt8} {value : Ipv6Prefix}
      (made : Ipv6Prefix.masked address length = .ok value) : Built (.ipv6Prefix value)
  | string (content : Octets) : Built (.string content)
  | text (content : String) : Built (.text content)
  | ifid (identifier : OctetField 8) : Built (.ifid identifier)
  | optionalTaggedString {tag : Option Tag} {content : Octets} {value : PlainValue}
      (made : makeOptionalTaggedString tag content = .ok value) : Built value
  | optionalTaggedText {tag : Option Tag} {content : String} {value : PlainValue}
      (made : makeOptionalTaggedText tag content = .ok value) : Built value
  | taggedString (tag : Tag) (content : Octets) : Built (.taggedString tag content)
  | taggedText (tag : Tag) (content : String) : Built (.taggedText tag content)
  | taggedInteger {tag : Tag} {number : UInt32} {value : PlainValue}
      (made : makeTaggedInteger tag number = .ok value) : Built value

/-- The values that the constructors of containers give. A long extended value can be built whole,
as one fragment, and marked afterwards. -/
inductive Container.Built : Container → Prop
  | extended {extendedType : UInt8} {payload : Octets} {container : Container}
      (made : makeExtended extendedType payload = .ok container) : Built container
  | longExtended (extendedType : UInt8) (payload : Octets) :
      Built (.longExtended extendedType false false payload)
  | fragment {extendedType : UInt8} {more truncated : Bool} {payload : Octets}
      {container : Container}
      (made : makeFragment extendedType more truncated payload = .ok container) : Built container
  | marked {extendedType : UInt8} {more truncated : Bool} {payload : Octets} (mark : Bool)
      (built : Built (.longExtended extendedType more truncated payload)) :
      Built (.longExtended extendedType more mark payload)
  | vsa {vendor : UInt32} {vendorType : UInt8} {payload : Octets} {container : Container}
      (made : makeVsa vendor vendorType payload = .ok container) : Built container
  | evs {vendor : UInt32} {vendorType : UInt8} {payload : Octets} {container : Container}
      (made : makeEvs vendor vendorType payload = .ok container) : Built container

inductive Concat.Built : Concat → Prop
  | fragments {fragments : List Octets} {value : Concat} (made : ofFragments fragments = .ok value) :
      Built value
  | octets (octets : Octets) : Built (ofOctets octets)

inductive Value.Built : Value → Prop
  | plain {value : PlainValue} (built : value.Built) : Built (.plain value)
  | container {container : Container} (built : container.Built) : Built (.container container)
  | concat {joined : Concat} (built : joined.Built) : Built (.concat joined)
  | tlv {records : List (UInt8 × Value)}
      (made : ∀ record ∈ records, makeRecord record.1 record.2 = .ok record)
      (inside : ∀ record ∈ records, Built record.2) : Built (.tlv records)

mutual

/-- A value that is read whole from its octets at a path: one in pieces has one piece, and the
records of a tree agree with the dictionary. -/
inductive Value.Conforms (dictionary : Dictionary) : TypePath → Value → Prop
  | plain (path : TypePath) (value : PlainValue) : Value.Conforms dictionary path (.plain value)
  | container (path : TypePath) (container : Container) :
      Value.Conforms dictionary path (.container container)
  | concat (path : TypePath) (fragment : Octets) :
      Value.Conforms dictionary path (.concat ⟨[fragment]⟩)
  | tlv {path : TypePath} {records : List (UInt8 × Value)}
      (each : ∀ record ∈ records,
        Value.RecordConforms dictionary (path.child record.1.toUInt32) record.2) :
      Value.Conforms dictionary path (.tlv records)

/-- The value of a record that agrees with the dictionary: one of the declared type, or octets that
the dictionary does not know or cannot read. -/
inductive Value.RecordConforms (dictionary : Dictionary) : TypePath → Value → Prop
  | declared {path : TypePath} {value : Value} {definition : TlvDefinition}
      (known : dictionary.tlv? path = some definition)
      (typed : definition.dataType = value.dataType)
      (inside : Value.Conforms dictionary path value) :
      Value.RecordConforms dictionary path value
  | untyped {path : TypePath} {content : Octets}
      (unread : ∀ definition, dictionary.tlv? path = some definition →
        Value.decode? dictionary definition.dataType path content = none) :
      Value.RecordConforms dictionary path (.plain (.string content))

end

section Plain

theorem OctetField.ofOctets?_append {count : Nat} {front back : Octets} (field : OctetField count)
    (joined : front ++ back = field.octets) : ofOctets? count (front ++ back) = some field := by
  rw [joined, ofOctets?_octets]

namespace Ipv4Prefix

variable {address : OctetField 4} {length : UInt8} {value : Ipv4Prefix}

theorem decode?_octets (made : make address length = .ok value) :
    decode? value.octets = some value := by
  obtain ⟨-, rfl⟩ := make_eq_ok_iff.mp made
  simp only [octets, decode?]
  refine Option.bind_eq_some_iff.mpr ⟨address, address.ofOctets?_octets, ?_⟩
  rw [made]
  rfl

end Ipv4Prefix

theorem keepLeadingBits_zero (octet : UInt8) : keepLeadingBits 0 octet = 0 := by
  revert octet
  apply forall_octet
  decide +kernel

theorem take_of_maskOctets {bits : Nat} {octets : Octets} (masked : maskOctets bits octets = octets)
    (count : Nat) (covered : bits ≤ 8 * count) :
    octets.take count ++ List.replicate (octets.length - count) 0 = octets := by
  induction octets generalizing bits count with
  | nil => simp
  | cons octet rest ih =>
      simp only [maskOctets, List.cons.injEq] at masked
      obtain ⟨front, behind⟩ := masked
      cases count with
      | zero =>
          have none : bits = 0 := by omega
          have zero : octet = 0 := by
            rw [← front, none, keepLeadingBits_zero]
          have tail := ih behind 0 (by omega)
          simp only [List.take_zero, List.nil_append, Nat.sub_zero] at tail ⊢
          rw [List.length_cons, List.replicate_succ, tail, zero]
      | succ count =>
          have tail := ih behind count (by omega)
          rw [List.take_succ_cons, List.length_cons, Nat.add_sub_add_right, List.cons_append, tail]

namespace Ipv6Prefix

variable {address : OctetField 16} {length : UInt8} {value : Ipv6Prefix}

theorem decode?_octets (made : make address length = .ok value) :
    decode? value.octets = some value := by
  obtain ⟨⟨bits, clear⟩, rfl⟩ := make_eq_ok_iff.mp made
  have masked := OctetField.mask_eq_self_iff.mpr clear
  have counted : (address.octets.take ((length.toNat + 7) / 8)).length =
      (length.toNat + 7) / 8 := by
    rw [List.length_take, address.length_octets]
    omega
  have filled := take_of_maskOctets (congrArg OctetField.octets masked)
    ((length.toNat + 7) / 8) (by omega)
  rw [address.length_octets] at filled
  have enough : length.toNat ≤ 8 * ((length.toNat + 7) / 8) := by omega
  unfold octets decode?
  refine Option.bind_eq_some_iff.mpr ⟨(), if_pos (counted.symm ▸ enough), ?_⟩
  rw [counted]
  refine Option.bind_eq_some_iff.mpr ⟨address, address.ofOctets?_append filled, ?_⟩
  rw [made]
  rfl

end Ipv6Prefix

theorem Tag.splitOptional_checked {tag : Option Tag} {content : Octets}
    (checked : checkOptional tag content = .ok ()) :
    splitOptional (tag.toList.map Tag.octet ++ content) = (tag, content) := by
  cases tag with
  | some tag => simp [splitOptional, ofOctet?_octet]
  | none =>
      cases content with
      | nil => rfl
      | cons first rest =>
          have large : ¬first ≤ 0x1F := by
            intro small
            simp [checkOptional, small] at checked
          simp [splitOptional, ofOctet?, large]

namespace PlainValue

theorem readNumber?_bigEndian {width number : Nat} (small : number < Octets.weight width) :
    readNumber? width (Octets.bigEndian width number) = some number := by
  rw [readNumber?, if_pos (Octets.length_bigEndian ..), Octets.ofBigEndian_bigEndian,
    Nat.mod_eq_of_lt small]

theorem decode?_octets {value : PlainValue} (built : value.Built) :
    decode? value.dataType value.octets = some value := by
  cases built with
  | integer number | enum number | time number =>
      have small : number.toNat < Octets.weight 4 := number.toNat_lt
      simp [PlainValue.dataType, PlainValue.octets, decode?, readNumber?_bigEndian small]
  | integer64 number =>
      have small : number.toNat < Octets.weight 8 := number.toNat_lt
      simp [PlainValue.dataType, PlainValue.octets, decode?, readNumber?_bigEndian small]
  | ipv4Addr address | ipv6Addr address | ifid address =>
      simp [PlainValue.dataType, PlainValue.octets, decode?, OctetField.ofOctets?_octets]
  | ipv4Prefix made | ipv4Masked made =>
      simp [PlainValue.dataType, PlainValue.octets, decode?, Ipv4Prefix.decode?_octets made]
  | ipv6Prefix made | ipv6Masked made =>
      simp [PlainValue.dataType, PlainValue.octets, decode?, Ipv6Prefix.decode?_octets made]
  | string content => rfl
  | text content =>
      simp [PlainValue.dataType, PlainValue.octets, decode?, Text.ofUtf8?_utf8]
  | optionalTaggedString made =>
      obtain ⟨passed, checked, built⟩ := Result.bind_eq_ok_iff.mp made
      cases built
      simp only [PlainValue.dataType, PlainValue.octets, decode?,
        Tag.splitOptional_checked checked]
  | optionalTaggedText made =>
      obtain ⟨passed, checked, built⟩ := Result.bind_eq_ok_iff.mp made
      cases built
      simp only [PlainValue.dataType, PlainValue.octets, decode?,
        Tag.splitOptional_checked checked, Text.ofUtf8?_utf8, Option.map_some]
  | taggedString tag content =>
      simp [PlainValue.dataType, PlainValue.octets, decode?, Tag.split?, Tag.ofOctet?_octet]
  | taggedText tag content =>
      simp [PlainValue.dataType, PlainValue.octets, decode?, Tag.split?, Tag.ofOctet?_octet,
        Text.ofUtf8?_utf8]
  | @taggedInteger tag number _ made =>
      unfold makeTaggedInteger at made
      split at made
      · contradiction
      · rename_i small
        cases made
        have bound : number.toNat ≤ 0x00FFFFFF := UInt32.not_lt.mp small
        have fits : number.toNat < Octets.weight 3 := by
          simp only [Octets.weight]
          omega
        simp [PlainValue.dataType, PlainValue.octets, decode?, Tag.split?, Tag.ofOctet?_octet,
          readNumber?_bigEndian fits]

end PlainValue

end Plain

theorem Container.fits_of_built {container : Container} (built : container.Built) :
    container.Fits := by
  cases built with
  | extended made => exact (makeExtended_eq_ok_iff.mp made).2
  | longExtended extendedType payload => trivial
  | fragment made =>
      obtain ⟨passed, checked, final⟩ := Result.bind_eq_ok_iff.mp made
      cases final
      trivial
  | marked mark built => trivial
  | vsa made => exact (makeVsa_eq_ok_iff.mp made).2
  | evs made => exact (makeEvs_eq_ok_iff.mp made).2

theorem Concat.length_le_of_built {joined : Concat} (built : joined.Built) {fragment : Octets}
    (member : fragment ∈ joined.fragments) : fragment.length ≤ maxRecordValue := by
  cases built with
  | fragments made =>
      obtain ⟨rfl, -, short⟩ := ofFragments_eq_ok_iff.mp made
      exact short fragment member
  | octets octets =>
      unfold ofOctets at member
      split at member
      · rw [List.mem_singleton.mp member]
        exact Nat.zero_le _
      · exact Octets.length_le_of_mem_chunks member

namespace Value

variable {dictionary : Dictionary} {path : TypePath}

theorem length_octets {value : Value} (built : value.Built) :
    value.octets.length = value.encodedLength := by
  induction built with
  | plain built =>
      have spelled := PlainValue.spells_of_decode? (PlainValue.decode?_octets built)
      exact spelled.length_eq.symm
  | container built => exact Container.length_octets _
  | concat built => exact Concat.length_octets _
  | tlv made inside ih => exact length_recordsOctets ih

theorem exists_records {read : Record → UInt8 × Value} {records : List (UInt8 × Value)}
    (each : ∀ record ∈ records, ∃ sent : Record,
      sent.octets = record.1 :: UInt8.ofNat (2 + record.2.encodedLength) :: record.2.octets ∧
        read sent = record) :
    ∃ sent, recordsOctets records = Record.writeAll sent ∧ sent.map read = records := by
  induction records with
  | nil => exact ⟨[], rfl, rfl⟩
  | cons record rest ih =>
      obtain ⟨first, spelled, same⟩ := each record List.mem_cons_self
      obtain ⟨later, joined, behind⟩ :=
        ih fun other member => each other (List.mem_cons_of_mem record member)
      have head : Record.writeAll (first :: later) = first.octets ++ Record.writeAll later := rfl
      refine ⟨first :: later, ?_, by rw [List.map_cons, same, behind]⟩
      rw [recordsOctets, joined, head, spelled]
      rfl

theorem decodeRecord_eq {sent : Record} {value : Value}
    (conforms : RecordConforms dictionary (path.child sent.type.toUInt32) value)
    (spelled : sent.value = value.octets)
    (reads : Conforms dictionary (path.child sent.type.toUInt32) value →
      decode? dictionary value.dataType (path.child sent.type.toUInt32) value.octets =
        some value) :
    decodeRecord dictionary path sent = (sent.type, value) := by
  cases conforms with
  | @declared _ _ definition known typed inside =>
      simp only [decodeRecord, known, Option.bind_some, typed, spelled, reads inside,
        Option.getD_some]
  | @untyped _ content unread =>
      have unknown : (dictionary.tlv? (path.child sent.type.toUInt32)).bind (fun definition =>
          decode? dictionary definition.dataType (path.child sent.type.toUInt32) sent.value) =
            none := by
        rw [Option.bind_eq_none_iff]
        intro definition known
        rw [spelled]
        exact unread definition known
      simp only [decodeRecord, unknown, Option.getD_none]
      rw [spelled]
      rfl

theorem decode?_plain (value : PlainValue) (octets : Octets) :
    decode? dictionary value.dataType path octets =
      (PlainValue.decode? value.dataType octets).map .plain := by
  cases value <;> simp only [PlainValue.dataType, decode?]

theorem decode?_concat {fragment : Octets} (short : fragment.length ≤ maxRecordValue) :
    decode? dictionary .concat path fragment = some (.concat ⟨[fragment]⟩) := by
  have made : Concat.ofFragments [fragment] = .ok ⟨[fragment]⟩ := by
    simp [Concat.ofFragments, Nat.not_lt.mpr short]
  simp only [decode?, made, Except.toOption, Option.map_some]

theorem decode?_tlv_octets {records : List (UInt8 × Value)}
    (each : ∀ record ∈ records, ∃ sent : Record,
      sent.octets = record.1 :: UInt8.ofNat (2 + record.2.encodedLength) :: record.2.octets ∧
        decodeRecord dictionary path sent = record) :
    decode? dictionary .tlv path (recordsOctets records) = some (.tlv records) := by
  obtain ⟨sent, joined, same⟩ := exists_records each
  rw [decode?_tlv, joined, Record.readAll_writeAll]
  simp only [Except.toOption, Option.map_some, same]

/-- A value that was built by the checked constructors, and that agrees with the dictionary if it is
a tree, is the one that its octets spell. -/
theorem read_as_built {value : Value} (built : value.Built)
    (conforms : Conforms dictionary path value) :
    decode? dictionary value.dataType path value.octets = some value := by
  -- the path grows with the depth of the tree
  induction built generalizing path with
  | @plain value built =>
      have read := PlainValue.decode?_octets built
      simp only [Value.dataType, Value.octets, decode?_plain, read, Option.map_some]
  | container built => exact decode?_container (Container.fits_of_built built)
  | concat built =>
      cases conforms with
      | concat path fragment =>
          have short := Concat.length_le_of_built built List.mem_cons_self
          have whole : Value.octets (.concat ⟨[fragment]⟩) = fragment := by
            simp [Value.octets, Concat.octets]
          rw [whole]
          exact decode?_concat short
  | @tlv records made inside ih =>
      cases conforms with
      | tlv each =>
          apply decode?_tlv_octets
          intro record member
          have counted := length_octets (inside record member)
          have short : record.2.octets.length ≤ maxRecordValue := by
            have checked := made record member
            unfold makeRecord at checked
            split at checked
            · contradiction
            · omega
          refine ⟨⟨record.1, record.2.octets, short⟩, ?_, ?_⟩
          · rw [← counted]
            rfl
          · exact decodeRecord_eq (each record member) rfl (ih record member)

end Value

theorem built_sampleTree : sampleTree.Built := by
  have leaves : Value.Built (.tlv [(1, .plain (.integer 7)), (2, .plain (.text "ok")),
      (2, .plain (.string [0xFF]))]) := by
    refine .tlv (by decide +kernel) ?_
    simp only [List.mem_cons, List.not_mem_nil, or_false, forall_eq_or_imp, forall_eq]
    exact ⟨.plain (.integer 7), .plain (.text "ok"), .plain (.string [0xFF])⟩
  refine .tlv (by decide +kernel) ?_
  simp only [List.mem_cons, List.not_mem_nil, or_false, forall_eq_or_imp, forall_eq]
  exact ⟨leaves, .plain (.string [0xAA])⟩

theorem conforms_sampleTree :
    Value.Conforms DefinitionTable.treeRecords.toDictionary ⟨241, [9]⟩ sampleTree := by
  have leaves : Value.Conforms DefinitionTable.treeRecords.toDictionary ⟨241, [9, 1]⟩
      (.tlv [(1, .plain (.integer 7)), (2, .plain (.text "ok")), (2, .plain (.string [0xFF]))]) := by
    refine .tlv ?_
    simp only [List.mem_cons, List.not_mem_nil, or_false, forall_eq_or_imp, forall_eq]
    refine ⟨.declared rfl rfl (.plain _ _), .declared rfl rfl (.plain _ _), .untyped ?_⟩
    intro definition known
    cases known
    decide +kernel
  refine .tlv ?_
  simp only [List.mem_cons, List.not_mem_nil, or_false, forall_eq_or_imp, forall_eq]
  exact ⟨.declared rfl rfl leaves, .untyped nofun⟩

theorem read_as_built_sampleTree :
    sampleTree.Built ∧
      Value.Conforms DefinitionTable.treeRecords.toDictionary ⟨241, [9]⟩ sampleTree ∧
      Value.decode? DefinitionTable.treeRecords.toDictionary sampleTree.dataType ⟨241, [9]⟩
        sampleTree.octets = some sampleTree :=
  ⟨built_sampleTree, conforms_sampleTree,
    Value.read_as_built built_sampleTree conforms_sampleTree⟩

end Radius
