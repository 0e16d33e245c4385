import Radius.Packet.Basic
import Radius.Packet.Error

/-!
Frames: a header and a run of records, whose total length stands in the header. A frame is read from
octets that are exactly as long as they declare, and split into records without remainder.
-/

namespace Radius

structure Frame where
  code : UInt8
  identifier : UInt8
  authenticator : Authenticator
  records : List Record
deriving DecidableEq

namespace Frame

def maxLength : Nat := 65535

def length (frame : Frame) : Nat := Packet.headerLength + Record.totalLength frame.records

def octets (frame : Frame) : Octets :=
  frame.code :: frame.identifier ::
    (Octets.bigEndian 2 frame.length ++ frame.authenticator.octets ++ Record.writeAll frame.records)

def write (max : Nat) (frame : Frame) : Except PacketError Octets :=
  if max < frame.length then .error (.packetTooLarge frame.length max)
  else if maxLength < frame.length then .error (.packetTooLarge frame.length maxLength)
  else .ok frame.octets

def declaredLength (octets : Octets) : Nat := Octets.ofBigEndian ((octets.drop 2).take 2)

def authenticatorOf (octets : Octets) (long : Packet.headerLength ≤ octets.length) :
    Authenticator :=
  ⟨(octets.drop 4).take 16, by
    simp only [Packet.headerLength] at long
    rw [List.length_take, List.length_drop]
    omega⟩

def read (max : Nat) (octets : Octets) : Except PacketError Frame :=
  if long : Packet.headerLength ≤ octets.length then
    if max < octets.length then .error (.packetTooLarge octets.length max)
    else if declaredLength octets < Packet.headerLength then
      .error (.invalidLength (declaredLength octets))
    else if declaredLength octets ≠ octets.length then
      .error (.lengthMismatch (declaredLength octets) octets.length)
    else do
      let records ← (Record.readAll Packet.headerLength (octets.drop Packet.headerLength)).mapError
        .malformedAttribute
      return ⟨octets.getD 0 0, octets.getD 1 0, authenticatorOf octets long, records⟩
  else .error (.invalidLength octets.length)

end Frame

end Radius
