import Radius.Value.Container

/-!
Type-length-value records (RFC 2865 section 5): a type octet, a length octet that counts both of
them, and a value. A packet after its header is a run of records, and so is the payload of a tree
value. `read_octets` and `octets_of_read` say that reading undoes writing and writing undoes
reading.
-/

namespace Radius

structure Record where
  type : UInt8
  value : Octets
  length_le : value.length ≤ maxRecordValue
deriving DecidableEq

inductive RecordDefect
  | headerCut (remaining : Nat)
  | lengthBelowHeader (length : Nat)
  | overrun (length remaining : Nat)
deriving DecidableEq

def RecordDefect.reason : RecordDefect → String
  | .headerCut remaining => toString remaining ++ " bytes left, need at least 2"
  | .lengthBelowHeader length => "length " ++ toString length ++ " below minimum"
  | .overrun length remaining =>
      "length " ++ toString length ++ " exceeds remaining " ++ toString remaining ++ " bytes"

namespace Record

def headerLength : Nat := 2

def make (type : UInt8) (value : Octets) : Except AttributeError Record :=
  if fits : value.length ≤ maxRecordValue then .ok ⟨type, value, fits⟩
  else .error (.valueTooLong value.length maxRecordValue)

def encodedLength (record : Record) : Nat := headerLength + record.value.length

def octets (record : Record) : Octets :=
  record.type :: UInt8.ofNat record.encodedLength :: record.value

theorem length_octets (record : Record) : record.octets.length = record.encodedLength := by
  simp [octets, encodedLength, headerLength]
  omega

theorem length_take_le (length : UInt8) (rest : Octets) :
    (rest.take (length.toNat - headerLength)).length ≤ maxRecordValue := by
  have small := length.toNat_lt
  rw [List.length_take]
  simp only [headerLength, maxRecordValue]
  omega

def read : Octets → Except RecordDefect (Record × Octets)
  | type :: length :: rest =>
      let value := rest.take (length.toNat - headerLength)
      if length.toNat < headerLength then .error (.lengthBelowHeader length.toNat)
      else if headerLength + value.length < length.toNat then
        .error (.overrun length.toNat (headerLength + rest.length))
      else
        .ok (⟨type, value, length_take_le length rest⟩, rest.drop (length.toNat - headerLength))
  | short => .error (.headerCut short.length)

theorem read_octets (record : Record) (rest : Octets) :
    read (record.octets ++ rest) = .ok (record, rest) := by
  cases record with
  | mk type value fits =>
      have length : (UInt8.ofNat (headerLength + value.length)).toNat =
          headerLength + value.length := by
        simp only [maxRecordValue] at fits
        simp only [headerLength, UInt8.toNat_ofNat']
        omega
      simp only [octets, encodedLength, List.cons_append]
      rw [read]
      simp only [length, Nat.add_sub_cancel_left, List.take_left', List.drop_left']
      rw [if_neg (by omega), if_neg (by simp)]

theorem octets_of_read {octets rest : Octets} {record : Record}
    (found : read octets = .ok (record, rest)) : record.octets ++ rest = octets := by
  match octets, found with
  | type :: length :: tail, found =>
      simp only [read] at found
      split at found
      · contradiction
      · rename_i enough
        split at found
        · contradiction
        · rename_i within
          cases found
          have most := List.length_take_le (length.toNat - headerLength) tail
          have counted : headerLength + (tail.take (length.toNat - headerLength)).length =
              length.toNat := by omega
          simp only [Record.octets, encodedLength, counted, UInt8.ofNat_toNat, List.cons_append,
            List.take_append_drop]

theorem length_of_read {octets rest : Octets} {record : Record}
    (found : read octets = .ok (record, rest)) :
    record.value.length + rest.length + headerLength = octets.length := by
  rw [← octets_of_read found, List.length_append, length_octets, encodedLength]
  omega

end Record

/-- A place without a record, counted in octets from where the packet starts. -/
structure RecordFault where
  offset : Nat
  defect : RecordDefect
deriving DecidableEq

namespace Record

/-- The records that make up the octets, which stand `offset` octets into the packet. -/
def readAll (offset : Nat) (octets : Octets) : Except RecordFault (List Record) :=
  match octets with
  | [] => .ok []
  | first :: later =>
      match _found : read (first :: later) with
      | .error defect => .error ⟨offset, defect⟩
      | .ok (record, rest) => do
          let records ← readAll (offset + record.encodedLength) rest
          return record :: records
termination_by octets.length
decreasing_by
  have total := length_of_read _found
  simp only [headerLength] at total
  omega

def writeAll (records : List Record) : Octets := records.flatMap octets

def totalLength (records : List Record) : Nat := (writeAll records).length

theorem readAll_writeAll (offset : Nat) (records : List Record) :
    readAll offset (writeAll records) = .ok records := by
  induction records generalizing offset with
  | nil => simp [writeAll, readAll]
  | cons record records ih =>
      have front := read_octets record (writeAll records)
      have head : writeAll (record :: records) = record.octets ++ writeAll records := rfl
      rw [head]
      simp only [octets, List.cons_append] at front ⊢
      rw [readAll]
      split
      · rename_i failed
        rw [front] at failed
        contradiction
      · rename_i found
        rw [front] at found
        cases found
        rw [ih]
        rfl

theorem writeAll_of_readAll {offset : Nat} {octets : Octets} {records : List Record}
    (split : readAll offset octets = .ok records) : writeAll records = octets := by
  fun_induction readAll offset octets generalizing records with
  | case1 => cases split; rfl
  | case2 => contradiction
  | case3 offset first later record rest found ih =>
      cases tail : readAll (offset + record.encodedLength) rest with
      | error defect => rw [tail] at split; contradiction
      | ok records =>
          rw [tail] at split
          cases split
          have joined := ih tail
          rw [← octets_of_read found, ← joined]
          rfl

theorem length_value_lt_of_readAll {offset : Nat} {octets : Octets} {records : List Record}
    (split : readAll offset octets = .ok records) {record : Record} (member : record ∈ records) :
    record.value.length < octets.length := by
  have whole := writeAll_of_readAll split
  obtain ⟨before, after, cut⟩ := List.append_of_mem member
  rw [← whole, cut]
  simp [writeAll, Record.octets]
  omega

end Record

end Radius
