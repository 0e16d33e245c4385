import Radius.Fault
import Radius.Packet.Basic
import Radius.Secret.Entropy

/-!
Authenticators of requests and responses (RFC 2865, RFC 2866, RFC 5176). An authenticator is the
hash of the packet with other octets in the authenticator field, followed by the secret: those of
the request's authenticator for a response, zeros for a hashed request. What the field itself holds
does not matter.
-/

namespace Radius.Authenticator

def offset : Nat := 4

section Hashes

variable (hash : Octets → Digest)

def responseHash (octets : Octets) (request : Authenticator) (secret : Octets) : Digest :=
  hash (octets.take offset ++ request.octets ++ octets.drop Packet.headerLength ++ secret)

def requestHash (octets secret : Octets) : Digest :=
  responseHash hash octets (OctetField.zero 16) secret

def field (octets : Octets) : Octets := (octets.drop offset).take 16

/-- A packet shorter than its header has no authenticator to verify. -/
def verifyResponse (octets : Octets) (request : Authenticator) (secret : Octets) : Bool :=
  Packet.headerLength ≤ octets.length ∧
    field octets = (responseHash hash octets request secret).octets

def verifyRequest (octets secret : Octets) : Bool :=
  verifyResponse hash octets (OctetField.zero 16) secret

/-- The authenticator of a whole packet; a part of a header has none. -/
def calculateResponse (octets : Octets) (request : Authenticator) (secret : Octets) :
    Except Fault Digest :=
  if octets.length < Packet.headerLength then .error .packetBelowHeader
  else .ok (responseHash hash octets request secret)

def calculateRequest (octets secret : Octets) : Except Fault Digest :=
  calculateResponse hash octets (OctetField.zero 16) secret

end Hashes

def write (octets : Octets) (authenticator : Authenticator) : Octets :=
  octets.overwrite offset authenticator.octets

def draw (source : Entropy) : Authenticator × Entropy :=
  (⟨(source.draw 16).1, Entropy.length_draw 16 source⟩, (source.draw 16).2)

end Radius.Authenticator
