import Radius.Attribute
import Radius.Secret.Exchange
import Radius.Standard.PacketCode

/-!
Packets: a code and attributes in the order of the wire. A packet that was received also has the
identifier and the authenticator of its header; a packet to be sent gets them when it is encoded.
-/

namespace Radius

structure Received where
  identifier : UInt8
  authenticator : Authenticator
deriving DecidableEq

structure Packet where
  code : UInt8
  attributes : List Attribute
  received : Option Received
deriving DecidableEq

namespace Packet

/-- The octets in front of the attributes: code, identifier, length and authenticator. -/
def headerLength : Nat := 20

def kind? (packet : Packet) : Option PacketCode := PacketCode.ofOctet? packet.code

def findAll (packet : Packet) (path : TypePath) : List Attribute :=
  packet.attributes.filter fun entry => entry.path = path

def find? (packet : Packet) (path : TypePath) : Option Attribute :=
  packet.attributes.find? fun entry => entry.path = path

def contains (packet : Packet) (path : TypePath) : Bool := (packet.find? path).isSome

end Packet

end Radius
