import Radius.TypePath
import Radius.DataType

/-!
Definitions: what a dictionary says about an attribute, about a record of a tree value and about a
packet code.
-/

namespace Radius

/-- How an attribute is carried by records: in one record, as one value in pieces, as the values of
consecutive records, or inside a container. -/
inductive Carrier
  | standard
  | fragmented
  | concat
  | extended
  | longExtended
  | vendorSpecific
deriving DecidableEq

namespace Carrier

def all : List Carrier :=
  [.standard, .fragmented, .concat, .extended, .longExtended, .vendorSpecific]

def label : Carrier → String
  | .standard => "Standard"
  | .fragmented => "Fragmented"
  | .concat => "Concat"
  | .extended => "Extended"
  | .longExtended => "LongExtended"
  | .vendorSpecific => "VendorSpecific"

def isNested : Carrier → Bool
  | .extended | .longExtended | .vendorSpecific => true
  | _ => false

def ofTopLevel : DataType → Carrier
  | .longExtended => .fragmented
  | .concat => .concat
  | _ => .standard

/-- The number of path segments from the container's attribute to the one inside it. -/
def levels : Carrier → Nat
  | .vendorSpecific => 2
  | _ => 1

end Carrier

inductive Filter
  | userPassword
  | tunnelPassword
deriving DecidableEq

namespace Filter

def all : List Filter := [.userPassword, .tunnelPassword]

def name : Filter → String
  | .userPassword => "user-password"
  | .tunnelPassword => "tunnel-password"

def label : Filter → String
  | .userPassword => "UserPassword"
  | .tunnelPassword => "TunnelPassword"

end Filter

structure AttributeDefinition where
  path : TypePath
  name : String
  dataType : DataType
  carrier : Carrier
  filter : Option Filter
deriving DecidableEq

structure TlvDefinition where
  path : TypePath
  name : String
  dataType : DataType
deriving DecidableEq

/-- What the authenticator field of a packet holds: random octets, a hash of the packet, or a hash
that answers the authenticator of the request. -/
inductive AuthenticatorKind
  | random
  | hashed
  | response
deriving DecidableEq

namespace AuthenticatorKind

def all : List AuthenticatorKind := [.random, .hashed, .response]

def name : AuthenticatorKind → String
  | .random => "random"
  | .hashed => "hashed"
  | .response => "response"

end AuthenticatorKind

structure PacketDefinition where
  code : UInt8
  name : String
  authenticator : AuthenticatorKind
deriving DecidableEq

end Radius
