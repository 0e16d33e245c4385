import Radius.Value.Tag
import Radius.Value.Prefix

/-!
Plain values, which enclose nothing: numbers, addresses, prefixes, opaque octets, text, interface
identifiers, and text, octets or numbers behind a tag. Each has one encoding and a declared type.
-/

namespace Radius

inductive PlainValue
  | integer (value : UInt32)
  | integer64 (value : UInt64)
  | enum (value : UInt32)
  | time (value : UInt32)
  | ipv4Addr (address : OctetField 4)
  | ipv6Addr (address : OctetField 16)
  | ipv4Prefix (value : Ipv4Prefix)
  | ipv6Prefix (value : Ipv6Prefix)
  | string (content : Octets)
  | text (content : String)
  | ifid (identifier : OctetField 8)
  | optionalTaggedString (tag : Option Tag) (content : Octets)
  | optionalTaggedText (tag : Option Tag) (content : String)
  | taggedString (tag : Tag) (content : Octets)
  | taggedText (tag : Tag) (content : String)
  | taggedInteger (tag : Tag) (value : UInt32)
deriving DecidableEq

namespace PlainValue

/-- Three octets follow the tag of a tagged integer. -/
def maxTaggedInteger : UInt32 := 0x00FFFFFF

def makeTaggedInteger (tag : Tag) (value : UInt32) : Except AttributeError PlainValue :=
  if maxTaggedInteger < value then .error (.taggedIntegerOutOfRange value)
  else .ok (.taggedInteger tag value)

def makeOptionalTaggedString (tag : Option Tag) (content : Octets) :
    Except AttributeError PlainValue := do
  Tag.checkOptional tag content
  return .optionalTaggedString tag content

def makeOptionalTaggedText (tag : Option Tag) (content : String) :
    Except AttributeError PlainValue := do
  Tag.checkOptional tag (Text.utf8 content)
  return .optionalTaggedText tag content

def dataType : PlainValue → DataType
  | .integer .. => .integer
  | .integer64 .. => .integer64
  | .enum .. => .enum
  | .time .. => .time
  | .ipv4Addr .. => .ipv4Addr
  | .ipv6Addr .. => .ipv6Addr
  | .ipv4Prefix .. => .ipv4Prefix
  | .ipv6Prefix .. => .ipv6Prefix
  | .string .. => .string
  | .text .. => .text
  | .ifid .. => .ifid
  | .optionalTaggedString .. => .optionalTaggedString
  | .optionalTaggedText .. => .optionalTaggedText
  | .taggedString .. => .taggedString
  | .taggedText .. => .taggedText
  | .taggedInteger .. => .taggedInteger

def tagLength : PlainValue → Nat
  | .optionalTaggedString tag _ => tag.toList.length
  | .optionalTaggedText tag _ => tag.toList.length
  | .taggedString .. | .taggedText .. | .taggedInteger .. => 1
  | _ => 0

def encodedLength : PlainValue → Nat
  | .integer _ | .enum _ | .time _ | .ipv4Addr _ => 4
  | .integer64 _ | .ifid _ => 8
  | .ipv6Addr _ => 16
  | .ipv4Prefix _ => 6
  | .ipv6Prefix value => value.encodedLength
  | .string content => content.length
  | .text content => content.utf8ByteSize
  | .optionalTaggedString tag content => tag.toList.length + content.length
  | .optionalTaggedText tag content => tag.toList.length + content.utf8ByteSize
  | .taggedString _ content => 1 + content.length
  | .taggedText _ content => 1 + content.utf8ByteSize
  | .taggedInteger .. => 4

def octets : PlainValue → Octets
  | .integer value | .enum value | .time value => Octets.bigEndian 4 value.toNat
  | .integer64 value => Octets.bigEndian 8 value.toNat
  | .ipv4Addr address => address.octets
  | .ipv6Addr address => address.octets
  | .ipv4Prefix value => value.octets
  | .ipv6Prefix value => value.octets
  | .string content => content
  | .text content => Text.utf8 content
  | .ifid identifier => identifier.octets
  | .optionalTaggedString tag content => tag.toList.map Tag.octet ++ content
  | .optionalTaggedText tag content => tag.toList.map Tag.octet ++ Text.utf8 content
  | .taggedString tag content => tag.octet :: content
  | .taggedText tag content => tag.octet :: Text.utf8 content
  | .taggedInteger tag value => tag.octet :: Octets.bigEndian 3 value.toNat

def number? : PlainValue → Option UInt32
  | .integer value | .enum value | .time value | .taggedInteger _ value => some value
  | _ => none

def text? : PlainValue → Option String
  | .text content | .optionalTaggedText _ content | .taggedText _ content => some content
  | _ => none

def untyped? : PlainValue → Option Octets
  | .string content | .optionalTaggedString _ content | .taggedString _ content => some content
  | _ => none

def readNumber? (width : Nat) (octets : Octets) : Option Nat :=
  if octets.length = width then some (Octets.ofBigEndian octets) else none

/-- Reads a plain value of the declared type; a type of another shape has none. -/
def decode? (type : DataType) (octets : Octets) : Option PlainValue :=
  match type with
  | .integer => (readNumber? 4 octets).map fun value => .integer (UInt32.ofNat value)
  | .integer64 => (readNumber? 8 octets).map fun value => .integer64 (UInt64.ofNat value)
  | .enum => (readNumber? 4 octets).map fun value => .enum (UInt32.ofNat value)
  | .time => (readNumber? 4 octets).map fun value => .time (UInt32.ofNat value)
  | .ipv4Addr => (OctetField.ofOctets? 4 octets).map .ipv4Addr
  | .ipv6Addr => (OctetField.ofOctets? 16 octets).map .ipv6Addr
  | .ipv4Prefix => (Ipv4Prefix.decode? octets).map .ipv4Prefix
  | .ipv6Prefix => (Ipv6Prefix.decode? octets).map .ipv6Prefix
  | .string => some (.string octets)
  | .text => (Text.ofUtf8? octets).map .text
  | .ifid => (OctetField.ofOctets? 8 octets).map .ifid
  | .optionalTaggedString =>
      let (tag, rest) := Tag.splitOptional octets
      some (.optionalTaggedString tag rest)
  | .optionalTaggedText =>
      let (tag, rest) := Tag.splitOptional octets
      (Text.ofUtf8? rest).map (.optionalTaggedText tag)
  | .taggedString => (Tag.split? octets).map fun (tag, rest) => .taggedString tag rest
  | .taggedText => do
      let (tag, rest) ← Tag.split? octets
      let content ← Text.ofUtf8? rest
      return .taggedText tag content
  | .taggedInteger => do
      let (tag, rest) ← Tag.split? octets
      let value ← readNumber? 3 rest
      return .taggedInteger tag (UInt32.ofNat value)
  | _ => none

end PlainValue

end Radius
