import Radius.TypePath
import Radius.DataType
import Radius.Text.Hex

/-!
What can be wrong with a value or an attribute that a caller builds or sends. Octets that do not
decode are no error of this kind: they leave an attribute as it was received.
-/

namespace Radius

inductive AttributeKind
  | raw
  | standard
  | extended
  | longExtended
  | vendorSpecific
  | concat
deriving DecidableEq

def AttributeKind.name : AttributeKind → String
  | .raw => "raw"
  | .standard => "standard"
  | .extended => "extended"
  | .longExtended => "long-extended"
  | .vendorSpecific => "vendor-specific"
  | .concat => "concat"

inductive AttributeError
  | valueTooLong (length max : Nat)
  | invalidTag (octet : UInt8)
  | ambiguousTag (octet : UInt8)
  | taggedIntegerOutOfRange (value : UInt32)
  | invalidVendorId (vendor : UInt32)
  | invalidPrefixLength (length max : UInt8)
  | unmaskedPrefix (length : UInt8)
  | invalidTlvLength (length : Nat)
  | noFragments
  | invalidType (cause : PathError)
  | typeMismatch (expected actual : DataType)
  | kindMismatch (path : TypePath) (kind : AttributeKind)
  | passwordTooLong (length max : Nat)
  | unsupportedParent (parent : TypePath) (type : DataType)
deriving DecidableEq

def AttributeError.message : AttributeError → String
  | .valueTooLong length max =>
      "Value too long: " ++ toString length ++ " bytes (max " ++ toString max ++ ")"
  | .invalidTag octet => "Invalid tag: " ++ toString octet.toNat ++ " (must be 0-31)"
  | .ambiguousTag octet =>
      "Untagged value must not start with an octet in the tag range, got 0x" ++ Text.hex [octet]
  | .taggedIntegerOutOfRange value =>
      "Tagged integer out of range: " ++ toString value.toNat ++ " (max 0xffffff)"
  | .invalidVendorId vendor =>
      "Invalid vendor id: " ++ toString vendor.toNat ++ " (high-order octet must be zero)"
  | .invalidPrefixLength length max =>
      "Invalid prefix length: " ++ toString length.toNat ++ " (max " ++ toString max.toNat ++ ")"
  | .unmaskedPrefix length =>
      "Address has bits set outside the /" ++ toString length.toNat ++ " prefix"
  | .invalidTlvLength length => "Invalid TLV length: " ++ toString length
  | .noFragments => "Concatenated value needs at least one fragment"
  | .invalidType cause => "Invalid attribute type: " ++ cause.detail
  | .typeMismatch expected actual =>
      "Data type mismatch: expected " ++ expected.label ++ ", got " ++ actual.label
  | .kindMismatch path kind =>
      "Attribute " ++ path.text ++ " cannot be built as a " ++ kind.name ++ " attribute"
  | .passwordTooLong length max =>
      "Password too long: " ++ toString length ++ " bytes (max " ++ toString max ++ ")"
  | .unsupportedParent parent type =>
      "No container of type " ++ type.label ++ " can be nested in " ++ parent.text

end Radius
