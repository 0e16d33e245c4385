import Radius.AttributeError

/-!
Address prefixes (RFC 3162, RFC 6572, RFC 8044). On the wire a prefix is a zero octet, the prefix
length in bits, and the address; every address bit past the prefix length is zero. An IPv6 address
may be cut after the octets that the prefix needs, and a prefix keeps the number of octets it
arrived with.
-/

namespace Radius

def keepLeadingBits (bits : Nat) (octet : UInt8) : UInt8 :=
  UInt8.ofNat (octet.toNat >>> (8 - bits) <<< (8 - bits))

/-- The octets with only the leading `bits` bits of the whole string kept. -/
def maskOctets : Nat → Octets → Octets
  | _, [] => []
  | bits, octet :: rest => keepLeadingBits bits octet :: maskOctets (bits - 8) rest

@[simp] theorem length_maskOctets (bits : Nat) (octets : Octets) :
    (maskOctets bits octets).length = octets.length := by
  induction octets generalizing bits with
  | nil => rfl
  | cons octet rest ih => simp [maskOctets, ih]

def OctetField.mask {count : Nat} (bits : Nat) (field : OctetField count) : OctetField count :=
  ⟨maskOctets bits field.octets, by rw [length_maskOctets, field.length_octets]⟩

structure Ipv4Prefix where
  address : OctetField 4
  length : UInt8
deriving DecidableEq

namespace Ipv4Prefix

def maxLength : UInt8 := 32

def make (address : OctetField 4) (length : UInt8) : Except AttributeError Ipv4Prefix :=
  if maxLength < length then .error (.invalidPrefixLength length maxLength)
  else if address.mask length.toNat ≠ address then .error (.unmaskedPrefix length)
  else .ok ⟨address, length⟩

def masked (address : OctetField 4) (length : UInt8) : Except AttributeError Ipv4Prefix :=
  make (address.mask length.toNat) length

def octets (value : Ipv4Prefix) : Octets := 0 :: value.length :: value.address.octets

def decode? : Octets → Option Ipv4Prefix
  | 0 :: length :: rest => do
      let address ← OctetField.ofOctets? 4 rest
      (make address length).toOption
  | _ => none

end Ipv4Prefix

/-- `carried` is the number of address octets on the wire. -/
structure Ipv6Prefix where
  address : OctetField 16
  length : UInt8
  carried : Nat
deriving DecidableEq

namespace Ipv6Prefix

def maxLength : UInt8 := 128

/-- A prefix that carries no more address octets than it needs. -/
def make (address : OctetField 16) (length : UInt8) : Except AttributeError Ipv6Prefix :=
  if maxLength < length then .error (.invalidPrefixLength length maxLength)
  else if address.mask length.toNat ≠ address then .error (.unmaskedPrefix length)
  else .ok ⟨address, length, (length.toNat + 7) / 8⟩

def masked (address : OctetField 16) (length : UInt8) : Except AttributeError Ipv6Prefix :=
  make (address.mask length.toNat) length

def octets (value : Ipv6Prefix) : Octets :=
  0 :: value.length :: value.address.octets.take value.carried

def encodedLength (value : Ipv6Prefix) : Nat := 2 + value.carried

/-- Address octets that did not arrive are zero; those the prefix needs must have arrived. -/
def decode? : Octets → Option Ipv6Prefix
  | 0 :: length :: rest => do
      guard (length.toNat ≤ 8 * rest.length)
      let address ← OctetField.ofOctets? 16 (rest ++ List.replicate (16 - rest.length) 0)
      let minimal ← (make address length).toOption
      return { minimal with carried := rest.length }
  | _ => none

end Ipv6Prefix

end Radius
