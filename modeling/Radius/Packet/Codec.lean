import Radius.Attribute.Lifting
import Radius.Attribute.Lowering
import Radius.Packet.Authenticator
import Radius.Packet.Config
import Radius.Packet.Frame
import Radius.Packet.MessageAuthenticator

/-!
Whole packets. Encoding lowers the attributes, frames the records and signs the packet; decoding
takes the same steps back and checks each of them. The Message-Authenticator is computed with the
request's authenticator in the header, or with zeros there if the authenticator of the packet is a
hash of the packet itself.
-/

namespace Radius

/-- Where a sender gets random octets and identifiers from. Identifiers are counted modulo 256. -/
structure Sources where
  entropy : Entropy
  identifier : UInt8

def Sources.takeIdentifier (sources : Sources) : UInt8 × Sources :=
  (sources.identifier, { sources with identifier := sources.identifier + 1 })

structure EncodedRequest where
  identifier : UInt8
  authenticator : Authenticator
  octets : Octets
deriving DecidableEq

structure PacketCodec where
  dictionary : Dictionary
  config : Config

namespace PacketCodec

variable (codec : PacketCodec)

def isHashed (code : UInt8) : Bool := codec.dictionary.authenticatorKind? code = some .hashed

def sign (octets secret : Octets) : Octets :=
  match MessageAuthenticator.find? octets with
  | none => octets
  | some offset => MessageAuthenticator.sign hmacMd5 octets secret offset

def encodeFrame (packet : Packet) (secret : Octets) (identifier : UInt8) (header : Authenticator) :
    Drawing PacketError Octets := do
  let records ← lowerAll ⟨md5, secret, header⟩ codec.dictionary packet.attributes
  let octets ← Drawing.ofExcept
    (Frame.write codec.config.maxPacketSize ⟨packet.code, identifier, header, records⟩)
  return sign octets secret

/-- The authenticator in the header while a request is lowered and signed. -/
def requestHeader (packet : Packet) (authenticator : Option Authenticator) (source : Entropy) :
    Authenticator × Entropy :=
  if codec.isHashed packet.code then (OctetField.zero 16, source)
  else match authenticator with
    | some given => (given, source)
    | none => Authenticator.draw source

def finishRequest (packet : Packet) (secret : Octets) (identifier : UInt8) (header : Authenticator)
    (octets : Octets) : EncodedRequest :=
  if codec.isHashed packet.code then
    let hash := Authenticator.requestHash md5 octets secret
    ⟨identifier, hash, Authenticator.write octets hash⟩
  else ⟨identifier, header, octets⟩

/-- Every call takes one identifier, whether it succeeds or not. -/
def encodeRequest (packet : Packet) (secret : Octets) (authenticator : Option Authenticator)
    (sources : Sources) : Except PacketError EncodedRequest × Sources :=
  let (header, entropy) := codec.requestHeader packet authenticator sources.entropy
  let (identifier, sources) := sources.takeIdentifier
  let (encoded, entropy) := codec.encodeFrame packet secret identifier header entropy
  (encoded.map (codec.finishRequest packet secret identifier header), { sources with entropy })

def encodeResponse (packet : Packet) (secret : Octets) (identifier : UInt8)
    (request : Authenticator) (sources : Sources) : Except PacketError Octets × Sources :=
  let (encoded, entropy) := codec.encodeFrame packet secret identifier request sources.entropy
  (encoded.map fun octets =>
      Authenticator.write octets (Authenticator.responseHash md5 octets request secret),
    { sources with entropy })

/-- Whether a packet has a valid Message-Authenticator. One with an EAP message must have it. -/
def checkMessageAuthenticator (octets secret : Octets) (header : Authenticator) (frame : Frame) :
    Except PacketError Bool :=
  match MessageAuthenticator.find? octets with
  | none =>
      if frame.records.any fun record => record.type = StandardAttribute.eapMessage.type then
        .error .missingMessageAuthenticator
      else .ok false
  | some offset =>
      if MessageAuthenticator.verify hmacMd5 (Authenticator.write octets header) secret offset then
        .ok true
      else .error .messageAuthenticatorMismatch

/-- The frame of an authentic request, and the authenticator that its values are hidden with. -/
def authenticateRequest (octets secret : Octets) : Except PacketError (Frame × Authenticator) := do
  let frame ← Frame.read codec.config.maxPacketSize octets
  let hashed := codec.isHashed frame.code
  if hashed ∧ ¬Authenticator.verifyRequest md5 octets secret then
    throw .requestAuthenticatorMismatch
  let header := if hashed then OctetField.zero 16 else frame.authenticator
  let signed ← checkMessageAuthenticator octets secret header frame
  if ¬signed ∧ codec.config.requireMessageAuthenticator then
    throw .missingMessageAuthenticator
  return (frame, header)

def authenticateResponse (octets secret : Octets) (request : Authenticator) :
    Except PacketError Frame := do
  let frame ← Frame.read codec.config.maxPacketSize octets
  if ¬Authenticator.verifyResponse md5 octets request secret then
    throw .responseAuthenticatorMismatch
  let _ ← checkMessageAuthenticator octets secret request frame
  return frame

def decodeFrame (frame : Frame) (secret : Octets) (header : Authenticator) :
    Except Fault Packet := do
  let attributes ← liftAll ⟨md5, secret, header⟩ codec.dictionary frame.records
  return ⟨frame.code, attributes, some ⟨frame.identifier, frame.authenticator⟩⟩

def decodeRequest (octets secret : Octets) : Except Fault (Except PacketError Packet) :=
  match codec.authenticateRequest octets secret with
  | .error cause => .ok (.error cause)
  | .ok (frame, header) => (codec.decodeFrame frame secret header).map .ok

def decodeResponse (octets secret : Octets) (request : Authenticator) :
    Except Fault (Except PacketError Packet) :=
  match codec.authenticateResponse octets secret request with
  | .error cause => .ok (.error cause)
  | .ok frame => (codec.decodeFrame frame secret request).map .ok

end PacketCodec

end Radius
