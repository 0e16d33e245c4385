import Radius.AttributeError
import Radius.Record

/-!
Why a packet is refused. Framing errors say where the octets stop making sense, authentication
errors which check failed, and the rest why an attribute cannot be sent.
-/

namespace Radius

inductive PacketError
  | invalidLength (length : Nat)
  | lengthMismatch (declared actual : Nat)
  | packetTooLarge (length max : Nat)
  | malformedAttribute (fault : RecordFault)
  | invalidAttribute (cause : AttributeError)
  | unknownAttribute (path : TypePath)
  | messageAuthenticatorMismatch
  | responseAuthenticatorMismatch
  | requestAuthenticatorMismatch
  | missingMessageAuthenticator
deriving DecidableEq

def PacketError.message : PacketError → String
  | .invalidLength length => "Invalid packet length: " ++ toString length
  | .lengthMismatch declared actual =>
      "Declared length " ++ toString declared ++ " does not match received " ++ toString actual ++
        " bytes"
  | .packetTooLarge length max =>
      "Packet too large: " ++ toString length ++ " bytes (max " ++ toString max ++ ")"
  | .malformedAttribute fault =>
      "Malformed attribute at offset " ++ toString fault.offset ++ ": " ++ fault.defect.reason
  | .invalidAttribute cause => "Attribute error: " ++ cause.message
  | .unknownAttribute path => "No dictionary entry for attribute " ++ path.text
  | .messageAuthenticatorMismatch => "Message-Authenticator mismatch"
  | .responseAuthenticatorMismatch => "Response authenticator mismatch"
  | .requestAuthenticatorMismatch => "Request authenticator mismatch"
  | .missingMessageAuthenticator => "Message-Authenticator required but missing"

end Radius
