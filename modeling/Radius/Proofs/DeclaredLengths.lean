import Mathlib.Algebra.GroupWithZero.Nat
import Radius.Proofs.Headroom

/-!
The lengths that a value declares. A length octet is written by cutting a number down to eight bits,
and the limits that keep the number small are checked elsewhere: by the constructors of records and
of vendor containers, and by readers, which find no record longer than its length octet can say. So
in a value that was built or read every length octet is the number of octets that it counts, at any
depth, and the value has as many octets as it declares.
-/

namespace Radius

theorem toNat_octet_of_le {number : Nat} (fits : number ≤ 255) :
    (UInt8.ofNat number).toNat = number :=
  UInt8.toNat_ofNat_of_lt' (Nat.lt_succ_of_le fits)

theorem Record.octets_framed (record : Record) :
    ∃ length : UInt8, record.octets = record.type :: length :: record.value ∧
      length.toNat = 2 + record.value.length := by
  refine ⟨UInt8.ofNat record.encodedLength, rfl, toNat_octet_of_le ?_⟩
  exact Nat.add_le_add_left record.length_le 2

namespace Value

/-- The octets of a value, where every length octet is the number of the octets that it counts:
itself, the octet in front of it, and what follows it. -/
inductive Framed : Value → Octets → Prop
  | plain (value : PlainValue) : Framed (.plain value) value.octets
  | concat (fragments : List Octets) : Framed (.concat ⟨fragments⟩) fragments.flatten
  | extended (extendedType : UInt8) (payload : Octets) :
      Framed (.container (.extended extendedType payload)) (extendedType :: payload)
  | longExtended (extendedType : UInt8) (more truncated : Bool) (payload : Octets) :
      Framed (.container (.longExtended extendedType more truncated payload))
        (extendedType :: Container.flags more truncated :: payload)
  | vsa (vendor : UInt32) (vendorType : UInt8) {length : UInt8} {payload : Octets}
      (counts : length.toNat = 2 + payload.length) :
      Framed (.container (.vsa vendor vendorType payload))
        (Octets.bigEndian 4 vendor.toNat ++ vendorType :: length :: payload)
  | evs (vendor : UInt32) (vendorType : UInt8) (payload : Octets) :
      Framed (.container (.evs vendor vendorType payload))
        (Octets.bigEndian 4 vendor.toNat ++ vendorType :: payload)
  | noRecords : Framed (.tlv []) []
  | record (type : UInt8) {length : UInt8} {value : Value} {inner behind : Octets}
      {records : List (UInt8 × Value)} (counts : length.toNat = 2 + inner.length)
      (inside : Framed value inner) (rest : Framed (.tlv records) behind) :
      Framed (.tlv ((type, value) :: records)) (type :: length :: (inner ++ behind))

variable {dictionary : Dictionary} {type : DataType} {path : TypePath} {octets other : Octets}
  {value : Value}

theorem Framed.unique (framed : value.Framed octets) (again : value.Framed other) :
    octets = other := by
  induction framed generalizing other with
  | plain value => cases again; rfl
  | concat fragments => cases again; rfl
  | extended extendedType payload => cases again; rfl
  | longExtended extendedType more truncated payload => cases again; rfl
  | vsa vendor vendorType counts =>
      cases again with
      | vsa _ _ countsToo => rw [UInt8.toNat_inj.mp (counts.trans countsToo.symm)]
  | evs vendor vendorType payload => cases again; rfl
  | noRecords => cases again; rfl
  | record type counts inside rest insideSame restSame =>
      cases again with
      | record _ countsToo insideToo restToo =>
          obtain rfl := insideSame insideToo
          obtain rfl := restSame restToo
          rw [UInt8.toNat_inj.mp (counts.trans countsToo.symm)]

theorem framed_container {container : Container} (fits : container.Fits) :
    (Value.container container).Framed container.octets := by
  cases container with
  | extended extendedType payload => exact .extended extendedType payload
  | longExtended extendedType more truncated payload =>
      exact .longExtended extendedType more truncated payload
  | vsa vendor vendorType payload =>
      -- six octets of header leave the payload 247 of the 253 that a record holds
      have short : payload.length ≤ 247 := fits.2
      exact .vsa vendor vendorType (toNat_octet_of_le (by omega))
  | evs vendor vendorType payload => exact .evs vendor vendorType payload

theorem length_le_of_makeRecord {record : UInt8 × Value}
    (made : makeRecord record.1 record.2 = .ok record) : record.2.encodedLength ≤ 253 := by
  unfold makeRecord at made
  split at made
  · contradiction
  · rename_i short
    exact Nat.not_lt.mp short

theorem framed_records {records : List (UInt8 × Value)}
    (made : ∀ record ∈ records, makeRecord record.1 record.2 = .ok record)
    (counted : ∀ record ∈ records, record.2.octets.length = record.2.encodedLength)
    (inside : ∀ record ∈ records, record.2.Framed record.2.octets) :
    (Value.tlv records).Framed (recordsOctets records) := by
  induction records with
  | nil => exact .noRecords
  | cons record rest ih =>
      have short := length_le_of_makeRecord (made record List.mem_cons_self)
      have behind := ih (fun later member => made later (List.mem_cons_of_mem record member))
        (fun later member => counted later (List.mem_cons_of_mem record member))
        (fun later member => inside later (List.mem_cons_of_mem record member))
      refine .record record.1 ?_ (inside record List.mem_cons_self) behind
      rw [counted record List.mem_cons_self]
      exact toNat_octet_of_le (by omega)

theorem framed_of_decode? (read : decode? dictionary type path octets = some value) :
    value.Framed value.octets := by
  -- the octets of a record in a tree are fewer than those of the tree
  induction size : octets.length using Nat.strongRecOn generalizing type path octets value with
  | ind bound ih =>
      subst size
      cases value with
      | plain plain => exact .plain plain
      | container container => exact framed_container (fits_of_decode? read)
      | concat joined => exact .concat joined.fragments
      | tlv records =>
          rw [type_of_decode?_tlv read, decode?_tlv] at read
          obtain ⟨sent, found, same⟩ := Option.map_eq_some_iff.mp read
          cases same
          have split := Result.toOption_eq_some_iff.mp found
          refine framed_records ?_ ?_ ?_ <;> rw [List.forall_mem_map] <;> intro record member
          · exact (bounds_of_record dictionary path record).2
          · obtain ⟨type, decoded⟩ := reads_decodeRecord dictionary path record
            obtain ⟨counted, written⟩ := lengths_of_decode? decoded
            exact written.trans counted.symm
          · obtain ⟨type, decoded⟩ := reads_decodeRecord dictionary path record
            exact ih _ (Record.length_value_lt_of_readAll split member) decoded rfl

theorem Obtained.framed (obtained : value.Obtained) : value.Framed value.octets := by
  induction obtained with
  | @plain value _ => exact .plain value
  | container built => exact framed_container (Container.fits_of_built built)
  | @concat joined _ => exact .concat joined.fragments
  | tlv made inside ih =>
      exact framed_records made (fun record member => (inside record member).length_octets) ih
  | read read => exact framed_of_decode? read
  | marked mark obtained => exact .longExtended _ _ _ _

/-- The lengths of a value that was built or read, as they are declared and as they are written: of
the value and of the tag in front of it, and in every length octet of a tree, of a vendor container
and of a record. -/
theorem declared_lengths (obtained : value.Obtained) :
    value.octets.length = value.encodedLength ∧ value.tagLength ≤ value.encodedLength ∧
      (∀ octets, value.Framed octets ↔ octets = value.octets) ∧
      (∀ joined, value = .concat joined →
        value.encodedLength = (joined.fragments.map List.length).sum) ∧
      ∀ record : Record, ∃ length : UInt8,
        record.octets = record.type :: length :: record.value ∧
          length.toNat = 2 + record.value.length := by
  refine ⟨obtained.length_octets, ?_, ?_, ?_, Record.octets_framed⟩
  · rw [← obtained.length_octets]
    exact value.tagLength_le
  · intro octets
    constructor
    · intro framed
      exact framed.unique obtained.framed
    · rintro rfl
      exact obtained.framed
  · rintro joined rfl
    rw [Value.encodedLength, ← joined.length_octets]
    exact List.length_flatten

def fullRecord : Value := .tlv [(1, .container (.vsa 9 1 (List.replicate 247 0)))]

theorem declared_lengths_fullRecord :
    fullRecord.Obtained ∧ fullRecord.octets.length = 255 ∧
      fullRecord.Framed (1 :: 255 :: 0 :: 0 :: 0 :: 9 :: 1 :: 249 :: List.replicate 247 0) := by
  have made : Container.makeVsa 9 1 (List.replicate 247 0) =
      .ok (.vsa 9 1 (List.replicate 247 0)) := by
    decide +kernel
  have obtained : fullRecord.Obtained := by
    refine .tlv (by decide +kernel) ?_
    simp only [List.mem_singleton, forall_eq]
    exact .container (.vsa made)
  obtain ⟨counted, -, framed, -, -⟩ := declared_lengths obtained
  exact ⟨obtained, counted.trans (by decide +kernel), (framed _).mpr (by decide +kernel)⟩

end Value

end Radius
