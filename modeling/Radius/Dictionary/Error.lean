import Radius.AttributeError

/-!
Why a dictionary refuses a definition or a document.
-/

namespace Radius

inductive DefinitionFlaw
  | topLevelOnly (type : DataType)
  | noTreeRecord (type : DataType)
deriving DecidableEq

def DefinitionFlaw.reason : DefinitionFlaw → String
  | .topLevelOnly type => type.name ++ " is only valid at the top level"
  | .noTreeRecord type => "TLV records cannot be top level or hold " ++ type.name ++ " data"

inductive DictionaryError
  | unavailable
  | unreadable
  | duplicateType (path : TypePath)
  | duplicateName (name : String)
  | duplicateCode (code : UInt8)
  | unknownAttribute (name : String)
  | missingParent (path : TypePath)
  | invalidDefinition (path : TypePath) (flaw : DefinitionFlaw)
  | invalidAttribute (cause : AttributeError)
deriving DecidableEq

def DictionaryError.message : DictionaryError → String
  | .unavailable => "IO error"
  | .unreadable => "Parse error"
  | .duplicateType path => "Duplicate attribute type: " ++ path.text
  | .duplicateName name => "Duplicate attribute name: " ++ name
  | .duplicateCode code => "Duplicate packet code: " ++ toString code.toNat
  | .unknownAttribute name => "Unknown attribute: " ++ name
  | .missingParent path => "Attribute " ++ path.text ++ " has no enclosing container definition"
  | .invalidDefinition path flaw => "Invalid definition for " ++ path.text ++ ": " ++ flaw.reason
  | .invalidAttribute cause => cause.message

end Radius
