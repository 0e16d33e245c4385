import Radius.Digest.Hmac
import Radius.Fault
import Radius.Packet.Basic
import Radius.Standard.Attribute

/-!
The Message-Authenticator attribute (RFC 3579): a keyed hash of the whole packet with zeros in its
own place. The attribute that counts is the first record of its type with sixteen octets of value.
-/

namespace Radius.MessageAuthenticator

def valueLength : Nat := 16

/-- Positions are words of 64 bits, so that no field may end beyond the largest of them. -/
def positionLimit : Nat := UInt64.size

def isCarriedBy (record : Record) : Bool :=
  record.type = StandardAttribute.messageAuthenticator.type ∧ record.value.length = valueLength

/-- Where the value stands in a run of records that starts `offset` octets into the packet. -/
def findFrom? (offset : Nat) (octets : Octets) : Option Nat :=
  match _found : Record.read octets with
  | .error _ => none
  | .ok (record, rest) =>
      if isCarriedBy record then some (offset + Record.headerLength)
      else findFrom? (offset + record.encodedLength) rest
termination_by octets.length
decreasing_by
  have total := Record.length_of_read _found
  simp only [Record.headerLength] at total
  omega

def find? (octets : Octets) : Option Nat :=
  findFrom? Packet.headerLength (octets.drop Packet.headerLength)

section Hashes

variable (mac : Octets → Octets → Digest)

def expected (octets secret : Octets) (offset : Nat) : Digest :=
  mac secret (octets.overwrite offset (OctetField.zero valueLength).octets)

def verify (octets secret : Octets) (offset : Nat) : Bool :=
  offset + valueLength ≤ octets.length ∧
    (octets.drop offset).take valueLength = (expected mac octets secret offset).octets

def sign (octets secret : Octets) (offset : Nat) : Octets :=
  octets.overwrite offset (expected mac octets secret offset).octets

/-- Verifies at any position. A field that ends outside the packet holds no valid value, and one
that ends at no position at all is not a field. -/
def verifyAt (octets secret : Octets) (offset : Nat) : Except Fault Bool :=
  if positionLimit ≤ offset + valueLength then .error .fieldBeyondPositions
  else .ok (verify mac octets secret offset)

def signWithin (octets secret : Octets) (offset : Nat) : Except Fault Octets :=
  if octets.length < offset + valueLength then .error .fieldOutsidePacket
  else .ok (sign mac octets secret offset)

end Hashes

end Radius.MessageAuthenticator
