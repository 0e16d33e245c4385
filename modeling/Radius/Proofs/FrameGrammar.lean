import Mathlib.Algebra.GroupWithZero.Nat
import Radius.Proofs.FrameFormat

/-!
The grammar of a packet on the wire. A run of records is a type octet, a length octet that counts
itself, the type and the value, the value, and again a run. Octets are read as a frame exactly if
they are a header that declares their length with a run of records behind it, and what is read of
them is the frame that is written with them.
-/

namespace Radius

namespace Record

/-- Octets that are records without remainder. No record has a length below its own two octets or
reaches past the end. -/
inductive Run : Octets → Prop
  | done : Run []
  | record {type length : UInt8} {value rest : Octets} (counted : length.toNat = 2 + value.length)
      (behind : Run rest) : Run (type :: length :: (value ++ rest))

theorem exists_of_counted (type : UInt8) {length : UInt8} {value : Octets}
    (counted : length.toNat = 2 + value.length) :
    ∃ record : Record, record.octets = type :: length :: value := by
  have small := length.toNat_lt
  have fits : value.length ≤ maxRecordValue := by
    simp only [maxRecordValue]
    omega
  refine ⟨⟨type, value, fits⟩, ?_⟩
  simp only [octets, encodedLength, headerLength]
  rw [← counted, UInt8.ofNat_toNat]

theorem length_octet (record : Record) :
    (UInt8.ofNat record.encodedLength).toNat = 2 + record.value.length := by
  have short := record.length_le
  simp only [maxRecordValue] at short
  simp only [encodedLength, headerLength, UInt8.toNat_ofNat']
  omega

theorem run_iff {octets : Octets} : Run octets ↔ ∃ records, octets = writeAll records := by
  constructor
  · intro run
    induction run with
    | done => exact ⟨[], rfl⟩
    | @record type length value rest counted behind ih =>
        obtain ⟨records, rfl⟩ := ih
        obtain ⟨record, spelled⟩ := exists_of_counted type counted
        have head : writeAll (record :: records) = record.octets ++ writeAll records := rfl
        refine ⟨record :: records, ?_⟩
        rw [head, spelled]
        rfl
  · rintro ⟨records, rfl⟩
    induction records with
    | nil => exact .done
    | cons record records ih => exact .record record.length_octet ih

theorem totalLength_eq_sum (records : List Record) :
    totalLength records = (records.map fun record => 2 + record.value.length).sum := by
  rw [totalLength, writeAll, List.length_flatMap]
  simp only [length_octets, encodedLength, headerLength]

end Record

namespace Frame

/-- Octets that are a packet: a header of 20 octets, the third and fourth of which count them all,
and a run of records behind it. -/
structure WellFormed (max : Nat) (octets : Octets) : Prop where
  enough : 20 ≤ octets.length
  within : octets.length ≤ max
  declared : Octets.ofBigEndian ((octets.drop 2).take 2) = octets.length
  records : Record.Run (octets.drop 20)

variable {frame : Frame} {max : Nat} {octets : Octets}

theorem wellFormed_of_spans (spans : frame.Spans max octets) : WellFormed max octets := by
  obtain ⟨rfl, within, counted⟩ := spans
  have total := length_octets frame
  refine ⟨?_, ?_, ?_, ?_⟩
  · rw [total, length, Packet.headerLength]
    exact Nat.le_add_right ..
  · rw [total]
    exact within
  · rw [total]
    exact declaredLength_octets counted
  · exact Record.run_iff.mpr ⟨frame.records, drop_octets frame⟩

theorem exists_spans_of_wellFormed (formed : WellFormed max octets) :
    ∃ frame : Frame, frame.Spans max octets := by
  obtain ⟨records, split⟩ := Record.run_iff.mp formed.records
  have same := octets_of_fields formed.enough formed.declared split
  have total := (congrArg List.length same).trans (length_octets _)
  have small := Octets.ofBigEndian_lt ((octets.drop 2).take 2)
  have two : ((octets.drop 2).take 2).length = 2 := by
    have enough := formed.enough
    rw [List.length_take, List.length_drop]
    omega
  rw [formed.declared, two, total] at small
  refine ⟨_, same, total ▸ formed.within, ?_⟩
  simp only [Octets.weight] at small
  simp only [maxLength]
  omega

/-- Reading and writing are inverse to each other. A frame is written if and only if its length is
within both limits, and octets are read if and only if they are well formed. -/
theorem read_inverts_write (max : Nat) (frame : Frame) (octets : Octets) :
    (read max octets = .ok frame ↔ write max frame = .ok octets) ∧
      ((∃ written, write max frame = .ok written) ↔
        20 + (frame.records.map fun record => 2 + record.value.length).sum ≤ min max 65535) ∧
      ((∃ parsed, read max octets = .ok parsed) ↔ WellFormed max octets) := by
  refine ⟨?_, ?_, ?_⟩
  · rw [read_eq_ok_iff, write_eq_ok_iff]
    constructor
    · rintro ⟨spelled, within, counted⟩
      exact ⟨within, counted, spelled⟩
    · rintro ⟨within, counted, spelled⟩
      exact ⟨spelled, within, counted⟩
  · have length : frame.length =
        20 + (frame.records.map fun record => 2 + record.value.length).sum := by
      rw [Frame.length, Record.totalLength_eq_sum, Packet.headerLength]
    rw [← length, Nat.le_min]
    constructor
    · rintro ⟨written, wrote⟩
      obtain ⟨within, counted, -⟩ := write_eq_ok_iff.mp wrote
      exact ⟨within, counted⟩
    · rintro ⟨within, counted⟩
      exact ⟨frame.octets, write_eq_ok_iff.mpr ⟨within, counted, rfl⟩⟩
  · constructor
    · rintro ⟨parsed, found⟩
      exact wellFormed_of_spans (read_eq_ok_iff.mp found)
    · intro formed
      obtain ⟨parsed, spans⟩ := exists_spans_of_wellFormed formed
      exact ⟨parsed, read_eq_ok_iff.mpr spans⟩

end Frame

end Radius
