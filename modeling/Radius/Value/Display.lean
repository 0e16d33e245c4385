import Radius.Value

/-!
The text of a value for people to read. Numbers are decimal, octets hexadecimal and text quoted; a
tag stands in front of what it tags.
-/

namespace Radius

def hexText (octets : Octets) : String := "0x" ++ Text.hex octets

def Tag.text (tag : Tag) : String := ":" ++ toString tag.octet.toNat ++ " "

def Ipv4Prefix.text (value : Ipv4Prefix) : String :=
  Text.ipv4 value.address ++ "/" ++ toString value.length.toNat

def Ipv6Prefix.text (value : Ipv6Prefix) : String :=
  Text.ipv6 value.address ++ "/" ++ toString value.length.toNat

namespace PlainValue

def optionalTagText (tag : Option Tag) : String := (tag.map Tag.text).getD ""

def display : PlainValue → String
  | .integer value | .enum value | .time value => toString value.toNat
  | .integer64 value => toString value.toNat
  | .ipv4Addr address => Text.ipv4 address
  | .ipv6Addr address => Text.ipv6 address
  | .ipv4Prefix value => value.text
  | .ipv6Prefix value => value.text
  | .string content => hexText content
  | .text content => Text.quote content
  | .ifid identifier => hexText identifier.octets
  | .optionalTaggedString tag content => optionalTagText tag ++ hexText content
  | .optionalTaggedText tag content => optionalTagText tag ++ Text.quote content
  | .taggedString tag content => tag.text ++ hexText content
  | .taggedText tag content => tag.text ++ Text.quote content
  | .taggedInteger tag value => tag.text ++ toString value.toNat

end PlainValue

def Container.display : Container → String
  | .extended extendedType payload =>
      "extended " ++ toString extendedType.toNat ++ " " ++ hexText payload
  | .longExtended extendedType _ _ payload =>
      "long-extended " ++ toString extendedType.toNat ++ " " ++ hexText payload
  | .vsa vendor vendorType payload =>
      "vendor " ++ toString vendor.toNat ++ " type " ++ toString vendorType.toNat ++ " " ++
        hexText payload
  | .evs vendor vendorType payload =>
      "evs vendor " ++ toString vendor.toNat ++ " type " ++ toString vendorType.toNat ++ " " ++
        hexText payload

namespace Value

mutual

def display : Value → String
  | .plain value => value.display
  | .container value => value.display
  | .concat value => hexText value.octets
  | .tlv records => "\x7b" ++ ", ".intercalate (recordTexts records) ++ "\x7d"

def recordTexts : List (UInt8 × Value) → List String
  | [] => []
  | (type, value) :: rest => (toString type.toNat ++ ": " ++ value.display) :: recordTexts rest

end

end Value

end Radius
