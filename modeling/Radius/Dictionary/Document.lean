import Radius.Dictionary.Table
import Radius.Json.Tree

/-!
Dictionary documents. A document lists attributes, tree records, named values and packets. Loading
applies its entries one after another and stops at the first that the table refuses; what was
applied before stays.
-/

namespace Radius

inductive DictionaryEntry
  | attr (path name : String) (type : DataType) (filter : Option Filter)
  | tlv (path name : String) (type : DataType)
  | value (owner name : String) (value : Int32)
  | packet (code : UInt8) (name : String) (authenticator : AuthenticatorKind)
deriving DecidableEq

namespace DictionaryEntry

open Json

def ofAttribute? (tree : Tree) : Option DictionaryEntry := do
  match ← tree.fields? ["type", "name", "data_type", "filter"] true with
  | [path, name, type, filter] =>
      return .attr (← (← path).text?) (← (← name).text?)
        (← (← type).named? DataType.name DataType.all)
        (← Tree.orDefault? none (Tree.optional? (Tree.named? Filter.name Filter.all)) filter)
  | _ => none

def ofTlv? (tree : Tree) : Option DictionaryEntry := do
  match ← tree.fields? ["type", "name", "data_type"] true with
  | [path, name, type] =>
      return .tlv (← (← path).text?) (← (← name).text?)
        (← (← type).named? DataType.name DataType.all)
  | _ => none

def ofValue? (tree : Tree) : Option DictionaryEntry := do
  match ← tree.fields? ["attribute", "name", "value"] true with
  | [owner, name, number] =>
      let number ← (← number).wholeWithin? (-2147483648) 2147483647
      return .value (← (← owner).text?) (← (← name).text?) (Int32.ofInt number)
  | _ => none

def ofPacket? (tree : Tree) : Option DictionaryEntry := do
  match ← tree.fields? ["code", "name", "authenticator"] true with
  | [code, name, authenticator] =>
      let number ← (← code).wholeWithin? 0 255
      return .packet (UInt8.ofNat number.toNat) (← (← name).text?)
        (← (← authenticator).named? AuthenticatorKind.name AuthenticatorKind.all)
  | _ => none

end DictionaryEntry

/-- The entries of a document, in the order in which they apply: attributes, tree records, values
and packets. -/
def readDictionary? (text : String) : Option (List DictionaryEntry) := do
  let tree ← Json.Tree.read? text
  match ← tree.fields? ["attributes", "tlvs", "values", "packets"] false with
  | [attributes, tlvs, values, packets] =>
      let section? := fun read => Json.Tree.orDefault? [] (Json.Tree.list? read)
      return (← section? DictionaryEntry.ofAttribute? attributes) ++
        (← section? DictionaryEntry.ofTlv? tlvs) ++
        (← section? DictionaryEntry.ofValue? values) ++
        (← section? DictionaryEntry.ofPacket? packets)
  | _ => none

namespace DefinitionTable

def readPath (text : String) : Except DictionaryError TypePath :=
  (TypePath.read text).mapError fun cause => .invalidAttribute (.invalidType cause)

def apply (table : DefinitionTable) : DictionaryEntry → Except DictionaryError DefinitionTable
  | .attr path name type filter => do table.addAttribute (← readPath path) name type filter
  | .tlv path name type => do table.addTlv (← readPath path) name type
  | .value owner name value =>
      match table.attributeNamed? owner with
      | some definition => table.addValue definition.path name value
      | none => .error (.unknownAttribute owner)
  | .packet code name authenticator => table.addPacket code name authenticator

/-- The table after the entries up to the first that is refused, and why that one was. -/
def applyAll (table : DefinitionTable) :
    List DictionaryEntry → DefinitionTable × Option DictionaryError
  | [] => (table, none)
  | entry :: rest =>
      match table.apply entry with
      | .ok extended => extended.applyAll rest
      | .error cause => (table, some cause)

def load (table : DefinitionTable) (text : String) : DefinitionTable × Option DictionaryError :=
  match readDictionary? text with
  | none => (table, some .unreadable)
  | some entries => table.applyAll entries

def loadFile (table : DefinitionTable) :
    Option String → DefinitionTable × Option DictionaryError
  | none => (table, some .unavailable)
  | some text => table.load text

end DefinitionTable

end Radius
