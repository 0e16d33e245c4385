import Radius.Dictionary
import Radius.Packet.Basic

/-!
What the inspector prints about a packet and about a definition, line by line.
-/

namespace Radius.Inspector

def printed (lines : List String) : String := String.join (lines.map (· ++ "\n"))

def attributeName (dictionary : Dictionary) (path : TypePath) : String :=
  match dictionary.attribute? path with
  | some definition => definition.name
  | none => "Attr-" ++ path.text

/-- The name of an enumerated value; a number that is no signed word has none. -/
def enumeratedName? (dictionary : Dictionary) (path : TypePath) (value : UInt32) : Option String :=
  if value.toNat ≤ 2147483647 then dictionary.valueName? path (Int32.ofNat value.toNat) else none

def attributeValue (dictionary : Dictionary) (entry : Attribute) : String :=
  match entry.value? with
  | some (.plain (.enum value)) =>
      match enumeratedName? dictionary entry.path value with
      | some name => name ++ " (" ++ toString value.toNat ++ ")"
      | none => entry.display
  | _ => entry.display

def attributeLine (dictionary : Dictionary) (entry : Attribute) : String :=
  "    " ++ attributeName dictionary entry.path ++ " = " ++ attributeValue dictionary entry

def headerLines : Option Received → List String
  | none => []
  | some received =>
      ["  Identifier: " ++ toString received.identifier.toNat,
        "  Authenticator: " ++ Text.hex received.authenticator.octets]

def packetLines (dictionary : Dictionary) (packet : Packet) : List String :=
  let name := ((dictionary.packet? packet.code).map PacketDefinition.name).getD "Unknown"
  (name ++ " (" ++ toString packet.code.toNat ++ ")") :: headerLines packet.received ++
    "  Attributes:" :: packet.attributes.map (attributeLine dictionary)

def definitionLines (definition : AttributeDefinition) : List String :=
  [definition.name,
    "  Type: " ++ definition.path.text,
    "  Data type: " ++ definition.dataType.name,
    "  Codec: " ++ definition.carrier.label] ++
    (definition.filter.toList.map fun filter => "  Filter: " ++ filter.label)

end Radius.Inspector
