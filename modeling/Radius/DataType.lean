/-!
The declared types of attribute values. A declared type decides how the octets of a value are read;
its name is the one used in dictionary documents.
-/

namespace Radius

inductive DataType
  | integer
  | integer64
  | enum
  | time
  | ipv4Addr
  | ipv6Addr
  | ipv4Prefix
  | ipv6Prefix
  | string
  | text
  | ifid
  | optionalTaggedString
  | optionalTaggedText
  | taggedString
  | taggedText
  | taggedInteger
  | extended
  | longExtended
  | vsa
  | evs
  | concat
  | tlv
deriving DecidableEq

namespace DataType

def all : List DataType :=
  [.integer, .integer64, .enum, .time, .ipv4Addr, .ipv6Addr, .ipv4Prefix, .ipv6Prefix, .string,
    .text, .ifid, .optionalTaggedString, .optionalTaggedText, .taggedString, .taggedText,
    .taggedInteger, .extended, .longExtended, .vsa, .evs, .concat, .tlv]

/-- The name in dictionary documents. -/
def name : DataType → String
  | .integer => "integer"
  | .integer64 => "integer64"
  | .enum => "enum"
  | .time => "time"
  | .ipv4Addr => "ipv4-addr"
  | .ipv6Addr => "ipv6-addr"
  | .ipv4Prefix => "ipv4-prefix"
  | .ipv6Prefix => "ipv6-prefix"
  | .string => "string"
  | .text => "text"
  | .ifid => "ifid"
  | .optionalTaggedString => "optional-tagged-string"
  | .optionalTaggedText => "optional-tagged-text"
  | .taggedString => "tagged-string"
  | .taggedText => "tagged-text"
  | .taggedInteger => "tagged-integer"
  | .extended => "extended"
  | .longExtended => "long-extended"
  | .vsa => "vsa"
  | .evs => "evs"
  | .concat => "concat"
  | .tlv => "tlv"

/-- The name in error messages. -/
def label : DataType → String
  | .integer => "Integer"
  | .integer64 => "Integer64"
  | .enum => "Enum"
  | .time => "Time"
  | .ipv4Addr => "Ipv4Addr"
  | .ipv6Addr => "Ipv6Addr"
  | .ipv4Prefix => "Ipv4Prefix"
  | .ipv6Prefix => "Ipv6Prefix"
  | .string => "String"
  | .text => "Text"
  | .ifid => "Ifid"
  | .optionalTaggedString => "OptionalTaggedString"
  | .optionalTaggedText => "OptionalTaggedText"
  | .taggedString => "TaggedString"
  | .taggedText => "TaggedText"
  | .taggedInteger => "TaggedInteger"
  | .extended => "Extended"
  | .longExtended => "LongExtended"
  | .vsa => "Vsa"
  | .evs => "Evs"
  | .concat => "Concat"
  | .tlv => "Tlv"

def ofName? (name : String) : Option DataType :=
  all.find? fun type => type.name = name

def isContainer : DataType → Bool
  | .extended | .longExtended | .vsa | .evs => true
  | _ => false

theorem ofName?_name (type : DataType) : ofName? type.name = some type := by
  cases type <;> decide

end DataType

end Radius
