import Radius.Definition

/-!
Dictionaries. A dictionary answers questions about attributes, tree records, enumerated values and
packet codes; how it keeps its definitions is its own affair. The only thing asked of it is that the
definition it returns for a path is a definition of that path.
-/

namespace Radius

structure Dictionary where
  attribute? : TypePath → Option AttributeDefinition
  attributeNamed? : String → Option AttributeDefinition
  tlv? : TypePath → Option TlvDefinition
  numericValue? : TypePath → String → Option Int32
  valueName? : TypePath → Int32 → Option String
  packet? : UInt8 → Option PacketDefinition
  path_of_attribute? : ∀ {path definition}, attribute? path = some definition →
    definition.path = path

namespace Dictionary

theorem path_of_find? {definitions : List AttributeDefinition} {path : TypePath}
    {definition : AttributeDefinition}
    (found : definitions.find? (fun candidate => candidate.path = path) = some definition) :
    definition.path = path := by
  simpa using List.find?_some found

def overlay (definitions : List AttributeDefinition) (base : Dictionary) : Dictionary :=
  { base with
    attribute? := fun path =>
      match definitions.find? fun definition => definition.path = path with
      | some definition => some definition
      | none => base.attribute? path
    attributeNamed? := fun name =>
      match definitions.find? fun definition => definition.name = name with
      | some definition => some definition
      | none => base.attributeNamed? name
    path_of_attribute? := by
      intro path definition found
      split at found
      · rename_i first
        cases found
        exact path_of_find? first
      · exact base.path_of_attribute? found }

def authenticatorKind? (dictionary : Dictionary) (code : UInt8) : Option AuthenticatorKind :=
  (dictionary.packet? code).map PacketDefinition.authenticator

end Dictionary

end Radius
