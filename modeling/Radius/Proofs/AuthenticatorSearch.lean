import Radius.Proofs.FrameGrammar

/-!
The search for the Message-Authenticator of a packet. It walks over the octets from header to header
and knows nothing of frames. It reads no octet outside a packet, whatever the packet holds; and in
octets that are a frame it stops at the first record that carries a Message-Authenticator, which is
the one that the frame has there.
-/

namespace Radius

namespace MessageAuthenticator

structure OutsidePacket where
  place : Nat
deriving DecidableEq

def octetAt (octets : Octets) (place : Nat) : Except OutsidePacket UInt8 :=
  match octets[place]? with
  | some octet => .ok octet
  | none => .error ⟨place⟩

/-- The search octet by octet: the two octets of a header are read, and a walk that does not stop
goes on where the header says that its record ends. -/
def walk (octets : Octets) (offset : Nat) : Except OutsidePacket (Option Nat) :=
  if offset + 2 ≤ octets.length then do
    let type ← octetAt octets offset
    let length ← octetAt octets (offset + 1)
    if length.toNat < 2 ∨ octets.length < offset + length.toNat then return none
    else if type = 80 ∧ length.toNat = 2 + 16 then return some (offset + 2)
    else walk octets (offset + length.toNat)
  else return none
termination_by octets.length - offset

def Signs (record : Record) : Prop := record.type = 80 ∧ record.value.length = 16

/-- Where the records of a packet start, by their index: the first behind the header, and every other
one behind the record in front of it. -/
def start (records : List Record) : Nat → Nat
  | 0 => 20
  | index + 1 =>
      start records index + (records[index]?.map fun record => 2 + record.value.length).getD 0

structure FirstSigning (records : List Record) (index : Nat) : Prop where
  signs : ∃ record, records[index]? = some record ∧ Signs record
  first : ∀ earlier record, earlier < index → records[earlier]? = some record → ¬Signs record

structure Locates (octets : Octets) (frame : Frame) : Prop where
  found : ∀ place, find? octets = some place ↔
    ∃ index, FirstSigning frame.records index ∧ place = start frame.records index + 2
  absent : find? octets = none ↔ ∀ record ∈ frame.records, ¬Signs record
  placed : ∀ index record, frame.records[index]? = some record →
    (octets.drop (start frame.records index)).take (2 + record.value.length) = record.octets
  room : ∀ place, find? octets = some place → place + 16 ≤ octets.length
  apart : ∀ place index record, find? octets = some place → frame.records[index]? = some record →
    place = start frame.records index + 2 ∨
      start frame.records index + 2 + record.value.length + 2 ≤ place ∨
      place + 16 ≤ start frame.records index

section Walk

theorem octetAt_of_drop {octets rest : Octets} {octet : UInt8} {place : Nat}
    (cut : octets.drop place = octet :: rest) : octetAt octets place = .ok octet := by
  have here : octets[place]? = some octet := by
    rw [← List.head?_drop, cut, List.head?_cons]
  rw [octetAt, here]

theorem findFrom?_eq (offset : Nat) (octets : Octets) :
    findFrom? offset octets =
      match Record.read octets with
      | .error _ => none
      | .ok (record, rest) =>
          if isCarriedBy record then some (offset + Record.headerLength)
          else findFrom? (offset + record.encodedLength) rest := by
  rw [findFrom?]
  split
  · rename_i failed
    rw [failed]
  · rename_i found
    rw [found]

theorem isCarriedBy_iff {record : Record} : isCarriedBy record = true ↔ Signs record := by
  simp only [isCarriedBy, decide_eq_true_eq]
  exact Iff.rfl

theorem walk_of_header {octets rest : Octets} {type length : UInt8} {offset : Nat}
    (cut : octets.drop offset = type :: length :: rest) :
    walk octets offset =
      if length.toNat < 2 ∨ octets.length < offset + length.toNat then .ok none
      else if type = 80 ∧ length.toNat = 2 + 16 then .ok (some (offset + 2))
      else walk octets (offset + length.toNat) := by
  have behind : octets.drop (offset + 1) = length :: rest := by
    rw [← List.drop_drop, cut, List.drop_succ_cons, List.drop_zero]
  have inside : offset + 2 ≤ octets.length := by
    have total := congrArg List.length cut
    rw [List.length_drop, List.length_cons, List.length_cons] at total
    omega
  rw [walk, if_pos inside, octetAt_of_drop cut, octetAt_of_drop behind]
  rfl

theorem walk_of_broken {octets : Octets} {defect : RecordDefect} {offset : Nat}
    (broken : Record.Broken (octets.drop offset) defect) : walk octets offset = .ok none := by
  generalize cut : octets.drop offset = left at broken
  cases broken with
  | cut short =>
      have outside : ¬offset + 2 ≤ octets.length := by
        rw [← cut, List.length_drop, Record.headerLength] at short
        omega
      rw [walk, if_neg outside]
      rfl
  | below low => rw [walk_of_header cut, if_pos (.inl low)]
  | overrun enough beyond =>
      have total := congrArg List.length cut
      rw [List.length_drop, List.length_cons, List.length_cons] at total
      rw [Record.headerLength] at beyond
      rw [walk_of_header cut, if_pos (.inr (by omega))]

theorem walk_of_record {octets rest : Octets} {record : Record} {offset : Nat}
    (cut : octets.drop offset = record.octets ++ rest) :
    walk octets offset =
      if isCarriedBy record then .ok (some (offset + Record.headerLength))
      else walk octets (offset + record.encodedLength) := by
  have counted := record.length_octet
  have total := congrArg List.length cut
  rw [List.length_drop, List.length_append, Record.length_octets, Record.encodedLength,
    Record.headerLength] at total
  rw [walk_of_header cut, if_neg (by omega), counted]
  refine if_congr ?_ rfl rfl
  rw [isCarriedBy_iff, Signs, Nat.add_left_cancel_iff]

theorem walk_eq (octets : Octets) (offset : Nat) :
    walk octets offset = .ok (findFrom? offset (octets.drop offset)) := by
  -- On the octets left, of which every record takes its two header octets at least.
  induction left : octets.length - offset using Nat.strongRecOn generalizing offset with
  | ind left ih =>
      rw [findFrom?_eq]
      cases found : Record.read (octets.drop offset) with
      | error defect => exact walk_of_broken (Record.read_eq_error_iff.mp found)
      | ok result =>
          obtain ⟨record, rest⟩ := result
          have cut := (Record.octets_of_read found).symm
          have behind : octets.drop (offset + record.encodedLength) = rest := by
            rw [← List.drop_drop, cut, List.drop_left' record.length_octets]
          have total := congrArg List.length cut
          rw [List.length_drop, List.length_append, Record.length_octets, Record.encodedLength,
            Record.headerLength] at total
          rw [walk_of_record cut]
          dsimp only
          split
          · rfl
          · rw [ih _ _ _ rfl, behind]
            rw [Record.encodedLength, Record.headerLength]
            omega

end Walk

section Places

variable {records : List Record} {record : Record} {index later : Nat}

theorem start_succ (here : records[index]? = some record) :
    start records (index + 1) = start records index + 2 + record.value.length := by
  rw [start, here, Option.map_some, Option.getD_some, Nat.add_assoc]

theorem start_mono (records : List Record) (ordered : index ≤ later) :
    start records index ≤ start records later := by
  induction ordered with
  | refl => exact Nat.le_refl _
  | step _ ih => exact Nat.le_trans ih (Nat.le_add_right ..)

theorem start_eq (records : List Record) (index : Nat) :
    start records index = Packet.headerLength + Record.totalLength (records.take index) := by
  induction index with
  | zero => rfl
  | succ index ih =>
      cases here : records[index]? with
      | none =>
          have same : records.take (index + 1) = records.take index := by
            rw [List.take_add_one, here, Option.toList_none, List.append_nil]
          rw [start, ih, here, same]
          rfl
      | some record =>
          have more : records.take (index + 1) = records.take index ++ [record] := by
            rw [List.take_add_one, here, Option.toList_some]
          rw [start_succ here, ih, more, Record.totalLength_eq_sum, Record.totalLength_eq_sum,
            List.map_append, List.sum_append, List.map_singleton, List.sum_singleton]
          omega

theorem take_append_of_getElem? (here : records[index]? = some record) :
    records = records.take index ++ record :: records.drop (index + 1) := by
  obtain ⟨inside, rfl⟩ := List.getElem?_eq_some_iff.mp here
  rw [← List.drop_eq_getElem_cons inside, List.take_append_drop]

end Places

section Frames

variable {frame : Frame} {index : Nat}

theorem firstSigning_iff : FirstSigning frame.records index ↔
    ∃ before value behind, frame.Carries before value behind ∧ before.length = index := by
  constructor
  · rintro ⟨⟨record, here, signs⟩, first⟩
    obtain ⟨value, rfl⟩ := exists_of_isCarriedBy (isCarriedBy_iff.mpr signs)
    obtain ⟨inside, -⟩ := List.getElem?_eq_some_iff.mp here
    refine ⟨_, value, _, ⟨take_append_of_getElem? here, fun record member => ?_⟩,
      List.length_take_of_le (Nat.le_of_lt inside)⟩
    obtain ⟨earlier, front⟩ := List.mem_iff_getElem?.mp member
    rw [List.getElem?_take] at front
    split at front
    · rename_i before
      exact Bool.eq_false_iff.mpr fun carried =>
        first earlier record before front (isCarriedBy_iff.mp carried)
    · contradiction
  · rintro ⟨before, value, behind, ⟨cut, first⟩, rfl⟩
    refine ⟨⟨holding value, ?_, isCarriedBy_iff.mp (isCarriedBy_holding value)⟩, ?_⟩
    · rw [cut, List.getElem?_append_right (Nat.le_refl _), Nat.sub_self]
      rfl
    · intro earlier record front here signs
      rw [cut, List.getElem?_append_left front] at here
      have bare := first record (List.mem_of_getElem? here)
      rw [isCarriedBy_iff.mpr signs] at bare
      contradiction

theorem valueOffset_eq {before behind : List Record} {value : Digest}
    (carries : frame.Carries before value behind) :
    Frame.valueOffset before = start frame.records before.length + 2 := by
  rw [start_eq, carries.cut, List.take_left]
  rfl

theorem find?_eq_some_iff {place : Nat} : find? frame.octets = some place ↔
    ∃ index, FirstSigning frame.records index ∧ place = start frame.records index + 2 := by
  constructor
  · intro found
    rcases frame.carries_or_unsigned with ⟨before, value, behind, carries⟩ | unsigned
    · rw [Frame.find?_of_carries carries] at found
      cases found
      exact ⟨before.length, firstSigning_iff.mpr ⟨before, value, behind, carries, rfl⟩,
        valueOffset_eq carries⟩
    · rw [Frame.find?_of_unsigned unsigned] at found
      contradiction
  · rintro ⟨index, first, rfl⟩
    obtain ⟨before, value, behind, carries, rfl⟩ := firstSigning_iff.mp first
    rw [Frame.find?_of_carries carries, valueOffset_eq carries]

theorem find?_eq_none_iff : find? frame.octets = none ↔
    ∀ record ∈ frame.records, ¬Signs record := by
  constructor
  · intro absent record member signs
    rcases frame.carries_or_unsigned with ⟨before, value, behind, carries⟩ | unsigned
    · rw [Frame.find?_of_carries carries] at absent
      contradiction
    · have bare := unsigned record member
      rw [isCarriedBy_iff.mpr signs] at bare
      contradiction
  · intro free
    refine Frame.find?_of_unsigned fun record member => ?_
    exact Bool.eq_false_iff.mpr fun carried =>
      free record member (isCarriedBy_iff.mp carried)

theorem octets_at_start {record : Record} (here : frame.records[index]? = some record) :
    (frame.octets.drop (start frame.records index)).take (2 + record.value.length) =
      record.octets := by
  have front : (frame.header ++ Record.writeAll (frame.records.take index)).length =
      start frame.records index := by
    rw [List.length_append, Frame.length_header, start_eq]
    rfl
  have head : Record.writeAll (record :: frame.records.drop (index + 1)) =
      record.octets ++ Record.writeAll (frame.records.drop (index + 1)) := rfl
  have spelled : frame.octets =
      (frame.header ++ Record.writeAll (frame.records.take index)) ++
        (record.octets ++ Record.writeAll (frame.records.drop (index + 1))) := by
    rw [← head, List.append_assoc, ← Record.writeAll_append, ← take_append_of_getElem? here]
    rfl
  rw [spelled, List.drop_left' front]
  exact List.take_left' record.length_octets

theorem start_length (frame : Frame) :
    start frame.records frame.records.length = frame.octets.length := by
  rw [start_eq, List.take_length, Frame.length_octets, Frame.length]

theorem locates_octets (frame : Frame) : Locates frame.octets frame where
  found place := find?_eq_some_iff
  absent := find?_eq_none_iff
  placed index record here := octets_at_start here
  room place found := by
    obtain ⟨index, ⟨⟨record, here, -, sixteen⟩, -⟩, rfl⟩ := find?_eq_some_iff.mp found
    obtain ⟨inside, -⟩ := List.getElem?_eq_some_iff.mp here
    have behind := start_mono frame.records (Nat.succ_le_of_lt inside)
    rw [Nat.succ_eq_add_one, start_succ here, start_length, sixteen] at behind
    exact behind
  apart place index record found here := by
    obtain ⟨first, ⟨⟨signed, there, -, sixteen⟩, -⟩, rfl⟩ := find?_eq_some_iff.mp found
    -- Whichever record stands in front ends before the other one starts.
    rcases Nat.lt_trichotomy index first with before | rfl | behind
    · have ends := start_mono frame.records (Nat.succ_le_of_lt before)
      rw [Nat.succ_eq_add_one, start_succ here] at ends
      exact .inr (.inl (Nat.add_le_add_right ends 2))
    · exact .inl rfl
    · have ends := start_mono frame.records (Nat.succ_le_of_lt behind)
      rw [Nat.succ_eq_add_one, start_succ there, sixteen] at ends
      exact .inr (.inr ends)

end Frames

/-- The search does not read outside a packet, and in the octets of a frame it finds the value of the
first record that signs. -/
theorem search_of_packet (octets : Octets) :
    walk octets 20 = .ok (find? octets) ∧
      ∀ max frame, Frame.read max octets = .ok frame → Locates octets frame := by
  refine ⟨walk_eq octets 20, fun max frame read => ?_⟩
  rw [(Frame.read_eq_ok_iff.mp read).octets_eq]
  exact locates_octets frame

/-- A request with a user name, a record of the right type that is too short, and one that signs. -/
def decoyed : Frame where
  code := 1
  identifier := 0
  authenticator := OctetField.zero 16
  records := [⟨1, [110, 101, 109, 111], by decide⟩, ⟨80, [0, 0], by decide⟩,
    holding (OctetField.zero 16)]

theorem search_of_packet_decoyed :
    Frame.read 4096 decoyed.octets = .ok decoyed ∧ find? decoyed.octets = some 32 ∧
      walk decoyed.octets 20 = .ok (some 32) ∧ Locates decoyed.octets decoyed := by
  have read : Frame.read 4096 decoyed.octets = .ok decoyed :=
    Frame.read_eq_ok_iff.mpr ⟨rfl, by decide, by decide⟩
  have search := search_of_packet decoyed.octets
  have located := search.2 4096 decoyed read
  have found : find? decoyed.octets = some 32 := by
    refine (located.found 32).mpr ⟨2, ⟨⟨_, rfl, by decide, by decide⟩, ?_⟩, by decide⟩
    rintro (- | - | earlier) record before here ⟨type, sixteen⟩
    · cases here
      contradiction
    · cases here
      contradiction
    · omega
  exact ⟨read, found, found ▸ search.1, located⟩

end MessageAuthenticator

end Radius
