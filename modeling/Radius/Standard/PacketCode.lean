import Radius.Definition

/-!
The packet codes of the standards (RFC 2865, 2866, 5176 and 5997). A packet may have any code octet;
these are the ones with a known meaning.
-/

namespace Radius

inductive PacketCode
  | accessRequest
  | accessAccept
  | accessReject
  | accountingRequest
  | accountingResponse
  | accessChallenge
  | statusServer
  | statusClient
  | disconnectRequest
  | disconnectAck
  | disconnectNak
  | coaRequest
  | coaAck
  | coaNak
deriving DecidableEq

namespace PacketCode

def all : List PacketCode :=
  [.accessRequest, .accessAccept, .accessReject, .accountingRequest, .accountingResponse,
    .accessChallenge, .statusServer, .statusClient, .disconnectRequest, .disconnectAck,
    .disconnectNak, .coaRequest, .coaAck, .coaNak]

def octet : PacketCode → UInt8
  | .accessRequest => 1
  | .accessAccept => 2
  | .accessReject => 3
  | .accountingRequest => 4
  | .accountingResponse => 5
  | .accessChallenge => 11
  | .statusServer => 12
  | .statusClient => 13
  | .disconnectRequest => 40
  | .disconnectAck => 41
  | .disconnectNak => 42
  | .coaRequest => 43
  | .coaAck => 44
  | .coaNak => 45

def label : PacketCode → String
  | .accessRequest => "AccessRequest"
  | .accessAccept => "AccessAccept"
  | .accessReject => "AccessReject"
  | .accountingRequest => "AccountingRequest"
  | .accountingResponse => "AccountingResponse"
  | .accessChallenge => "AccessChallenge"
  | .statusServer => "StatusServer"
  | .statusClient => "StatusClient"
  | .disconnectRequest => "DisconnectRequest"
  | .disconnectAck => "DisconnectAck"
  | .disconnectNak => "DisconnectNak"
  | .coaRequest => "CoaRequest"
  | .coaAck => "CoaAck"
  | .coaNak => "CoaNak"

def name : PacketCode → String
  | .accessRequest => "Access-Request"
  | .accessAccept => "Access-Accept"
  | .accessReject => "Access-Reject"
  | .accountingRequest => "Accounting-Request"
  | .accountingResponse => "Accounting-Response"
  | .accessChallenge => "Access-Challenge"
  | .statusServer => "Status-Server"
  | .statusClient => "Status-Client"
  | .disconnectRequest => "Disconnect-Request"
  | .disconnectAck => "Disconnect-ACK"
  | .disconnectNak => "Disconnect-NAK"
  | .coaRequest => "CoA-Request"
  | .coaAck => "CoA-ACK"
  | .coaNak => "CoA-NAK"

/-- Requests have a random or a hashed authenticator; a response answers the one of its request. -/
def authenticator : PacketCode → AuthenticatorKind
  | .accessRequest | .statusServer | .statusClient => .random
  | .accountingRequest | .disconnectRequest | .coaRequest => .hashed
  | _ => .response

def ofOctet? (octet : UInt8) : Option PacketCode := all.find? fun code => code.octet = octet

def definition (code : PacketCode) : PacketDefinition :=
  ⟨code.octet, code.name, code.authenticator⟩

theorem ofOctet?_octet (code : PacketCode) : ofOctet? code.octet = some code := by
  cases code <;> rfl

theorem octet_of_ofOctet? {octet : UInt8} {code : PacketCode}
    (found : ofOctet? octet = some code) : code.octet = octet := by
  simpa using List.find?_some found

end PacketCode

end Radius
