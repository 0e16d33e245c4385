import Radius.Dictionary
import Radius.Dictionary.Error

/-!
Dictionaries that grow. A table keeps its definitions in the order in which they were added. An
attribute's carrier follows from where the attribute stands: at the top level, in an extended
container one segment above it, or in a vendor container two segments above it; so a container is
defined before what it encloses. An addition that is refused leaves the table as it was.
-/

namespace Radius

structure NamedValue where
  path : TypePath
  name : String
  value : Int32
deriving DecidableEq

structure DefinitionTable where
  attributes : List AttributeDefinition
  tlvs : List TlvDefinition
  values : List NamedValue
  packets : List PacketDefinition

namespace DefinitionTable

def empty : DefinitionTable := ⟨[], [], [], []⟩

section Lookup

variable (table : DefinitionTable)

def attribute? (path : TypePath) : Option AttributeDefinition :=
  table.attributes.find? fun definition => definition.path = path

def attributeNamed? (name : String) : Option AttributeDefinition :=
  table.attributes.find? fun definition => definition.name = name

def tlv? (path : TypePath) : Option TlvDefinition :=
  table.tlvs.find? fun definition => definition.path = path

def packet? (code : UInt8) : Option PacketDefinition :=
  table.packets.find? fun definition => definition.code = code

/-- The number last given to a name. -/
def numericValue? (path : TypePath) (name : String) : Option Int32 :=
  (table.values.reverse.find? fun entry => entry.path = path ∧ entry.name = name).map
    NamedValue.value

/-- The name first given to a number. -/
def valueName? (path : TypePath) (value : Int32) : Option String :=
  (table.values.find? fun entry => entry.path = path ∧ entry.value = value).map NamedValue.name

def toDictionary : Dictionary where
  attribute? := table.attribute?
  attributeNamed? := table.attributeNamed?
  tlv? := table.tlv?
  numericValue? := table.numericValue?
  valueName? := table.valueName?
  packet? := table.packet?
  path_of_attribute? := Dictionary.path_of_find?

def size : Nat := table.attributes.length

def sorted : List AttributeDefinition :=
  table.attributes.mergeSort fun left right => (left.path.order right.path).isLE

def enclosingType? (path : TypePath) (levels : Nat) : Option DataType := do
  let above ← path.ancestor? levels
  let definition ← table.attribute? above
  return definition.dataType

def inferCarrier (path : TypePath) (type : DataType) : Except DictionaryError Carrier :=
  if path.isTopLevel then .ok (Carrier.ofTopLevel type)
  else if type = .longExtended ∨ type = .concat then
    .error (.invalidDefinition path (.topLevelOnly type))
  else match table.enclosingType? path 1, table.enclosingType? path 2 with
    | some .extended, _ => .ok .extended
    | some .longExtended, _ => .ok .longExtended
    | _, some .vsa | _, some .evs => .ok .vendorSpecific
    | _, _ => .error (.missingParent path)

end Lookup

section Additions

variable (table : DefinitionTable)

def insertAttribute (definition : AttributeDefinition) : DefinitionTable :=
  { table with attributes := table.attributes ++ [definition] }

def insertTlv (definition : TlvDefinition) : DefinitionTable :=
  { table with tlvs := table.tlvs ++ [definition] }

def insertValue (entry : NamedValue) : DefinitionTable :=
  { table with values := table.values ++ [entry] }

def insertPacket (definition : PacketDefinition) : DefinitionTable :=
  { table with packets := table.packets ++ [definition] }

/-- The definition to add for an attribute, unless its path or its name is taken or nothing encloses
it. -/
def defineAttribute (path : TypePath) (name : String) (type : DataType) (filter : Option Filter) :
    Except DictionaryError AttributeDefinition :=
  if (table.attribute? path).isSome then .error (.duplicateType path)
  else if (table.attributeNamed? name).isSome then .error (.duplicateName name)
  else do
    let carrier ← table.inferCarrier path type
    return ⟨path, name, type, carrier, filter⟩

def addAttribute (path : TypePath) (name : String) (type : DataType) (filter : Option Filter) :
    Except DictionaryError DefinitionTable := do
  let definition ← table.defineAttribute path name type filter
  return table.insertAttribute definition

def addTlv (path : TypePath) (name : String) (type : DataType) :
    Except DictionaryError DefinitionTable :=
  if (table.tlv? path).isSome then .error (.duplicateType path)
  else if path.isTopLevel ∨ type.isContainer then
    .error (.invalidDefinition path (.noTreeRecord type))
  else .ok (table.insertTlv ⟨path, name, type⟩)

def addValue (path : TypePath) (name : String) (value : Int32) :
    Except DictionaryError DefinitionTable :=
  if (table.attribute? path).isSome then .ok (table.insertValue ⟨path, name, value⟩)
  else .error (.unknownAttribute path.text)

def addPacket (code : UInt8) (name : String) (authenticator : AuthenticatorKind) :
    Except DictionaryError DefinitionTable :=
  if (table.packet? code).isSome then .error (.duplicateCode code)
  else .ok (table.insertPacket ⟨code, name, authenticator⟩)

end Additions

end DefinitionTable

end Radius
