import Radius.Dictionary
import Radius.Packet.Basic
import Radius.Standard.Attribute

/-!
Validation of packets. An access request needs a user name, exactly one kind of password, and a name
or address of the server that sends it; an accounting request needs a status. These rules look at
nothing but the code and the paths of the attributes. The strict mode also asks that the dictionary
knows the code and that no attribute it knows is still a record.
-/

namespace Radius

inductive ValidationMode
  | lenient
  | strict
deriving DecidableEq

inductive ValidationError
  | missing (packet : PacketCode) (needed : StandardAttribute)
  | missingEither (packet : PacketCode) (first second : StandardAttribute)
  | conflicting (packet : PacketCode) (first second : StandardAttribute)
  | undecoded (path : TypePath)
  | unknownCode (code : UInt8)
deriving DecidableEq

def ValidationError.message : ValidationError → String
  | .missing packet needed => needed.name ++ " attribute is required in " ++ packet.name
  | .missingEither packet first second =>
      "Either " ++ first.name ++ " or " ++ second.name ++ " is required in " ++ packet.name
  | .conflicting packet first second =>
      first.name ++ " and " ++ second.name ++ " cannot both be present in " ++ packet.name
  | .undecoded path => "Attribute " ++ path.text ++ ": value did not decode"
  | .unknownCode code => "Unsupported packet code: " ++ toString code.toNat

namespace Packet

variable (packet : Packet)

def has (entry : StandardAttribute) : Bool := packet.contains entry.path

def requireEither (code : PacketCode) (first second : StandardAttribute) :
    Except ValidationError Unit :=
  if packet.has first ∨ packet.has second then .ok () else .error (.missingEither code first second)

def refuseBoth (code : PacketCode) (first second : StandardAttribute) :
    Except ValidationError Unit :=
  if packet.has first ∧ packet.has second then .error (.conflicting code first second) else .ok ()

def require (code : PacketCode) (needed : StandardAttribute) : Except ValidationError Unit :=
  if packet.has needed then .ok () else .error (.missing code needed)

def validateContent : Except ValidationError Unit :=
  match packet.kind? with
  | some .accessRequest => do
      packet.require .accessRequest .userName
      packet.requireEither .accessRequest .userPassword .chapPassword
      packet.refuseBoth .accessRequest .userPassword .chapPassword
      packet.requireEither .accessRequest .nasIpAddress .nasIdentifier
  | some .accountingRequest => packet.require .accountingRequest .acctStatusType
  | _ => .ok ()

def isUndecoded (dictionary : Dictionary) (entry : Attribute) : Bool :=
  entry.isRaw && (dictionary.attribute? entry.path).isSome

def validateDecoded (dictionary : Dictionary) : Except ValidationError Unit :=
  if (dictionary.packet? packet.code).isNone then .error (.unknownCode packet.code)
  else match packet.attributes.find? (isUndecoded dictionary) with
    | some entry => .error (.undecoded entry.path)
    | none => .ok ()

def validate (dictionary : Dictionary) (mode : ValidationMode) : Except ValidationError Unit := do
  packet.validateContent
  if mode = .strict then packet.validateDecoded dictionary

end Packet

end Radius
