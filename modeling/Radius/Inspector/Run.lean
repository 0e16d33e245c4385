import Radius.Dictionary.Document
import Radius.Inspector.CommandLine
import Radius.Inspector.Report
import Radius.Packet.Codec
import Radius.Standard.Table

/-!
The inspector: decodes a packet from a hexadecimal dump, or shows the definition of an attribute.
Files are given as a function from their names to their contents. What was printed before a failure
stays printed.
-/

namespace Radius.Inspector

inductive Failure
  | dictionary (cause : DictionaryError)
  | config (cause : ConfigError)
  | dumpUnavailable
  | hex (cause : Text.HexError)
  | authenticatorLength
  | packet (cause : PacketError)
  | validation (cause : ValidationError)
  | unknownKey (key : String)
  | fault (cause : Fault)

def Failure.message : Failure → String
  | .dictionary cause => cause.message
  | .config cause => cause.message
  | .dumpUnavailable => "IO error"
  | .hex cause => cause.message
  | .authenticatorLength => "request authenticator must be 16 bytes"
  | .packet cause => cause.message
  | .validation cause => cause.message
  | .unknownKey key => "no dictionary entry for " ++ key
  | .fault _ => "packet outside the domain of its dictionary"

structure Outcome where
  output : String
  failure : Option Failure

namespace Outcome

def failed (cause : Failure) : Outcome := ⟨"", some cause⟩

def printed (lines : List String) : Outcome := ⟨Inspector.printed lines, none⟩

end Outcome

abbrev Files := String → Option String

def loadTable (files : Files) (name : Option String) : Except Failure DefinitionTable :=
  match name with
  | none => .ok .standard
  | some name =>
      match DefinitionTable.standard.loadFile (files name) with
      | (table, none) => .ok table
      | (_, some cause) => .error (.dictionary cause)

def loadConfig (files : Files) (name : Option String) : Except Failure Config :=
  match name with
  | none => .ok Config.default
  | some name => (Config.ofFile (files name)).mapError .config

/-- The text of a dump: the operand itself, or the content of the file that it names after an at
sign. -/
def dumpText (files : Files) (operand : String) : Except Failure String :=
  match operand.toList with
  | '@' :: name =>
      match files (String.ofList name) with
      | some text => .ok text
      | none => .error .dumpUnavailable
  | _ => .ok operand

def readDump (files : Files) (operand : String) : Except Failure Octets := do
  let text ← dumpText files operand
  let digits := String.ofList (text.toList.filter fun character => !Text.isBlank character)
  (Text.readHex digits).mapError .hex

def readAuthenticator (text : String) : Except Failure Authenticator := do
  let octets ← (Text.readHex (String.ofList (Text.trim text.toList))).mapError .hex
  match OctetField.ofOctets? 16 octets with
  | some authenticator => .ok authenticator
  | none => .error .authenticatorLength

/-- The packet of a dump: a response if the authenticator of its request is given. -/
def decodePacket (codec : PacketCodec) (octets secret : Octets) (request : Option String) :
    Except Failure Packet := do
  let decoded ← match request with
    | none => (codec.decodeRequest octets secret).mapError .fault
    | some text => do
        let authenticator ← readAuthenticator text
        (codec.decodeResponse octets secret authenticator).mapError .fault
  decoded.mapError .packet

def reportPacket (dictionary : Dictionary) (packet : Packet) (mode : Option ValidationMode) :
    Outcome :=
  let lines := packetLines dictionary packet
  match mode with
  | none => .printed lines
  | some mode =>
      match packet.validate dictionary mode with
      | .error cause => ⟨printed lines, some (.validation cause)⟩
      | .ok () => .printed (lines ++ ["Validation: ok"])

/-- A key that reads as a path is one; any other key is a name. -/
def findDefinition? (table : DefinitionTable) (key : String) : Option AttributeDefinition :=
  match TypePath.read key with
  | .ok path => table.attribute? path
  | .error _ => table.attributeNamed? key

def lookup (table : DefinitionTable) (key : String) : Outcome :=
  match findDefinition? table key with
  | some definition => .printed (definitionLines definition)
  | none => .failed (.unknownKey key)

def perform (files : Files) (table : DefinitionTable) (config : Config) : Command → Outcome
  | .decode secret request mode operand =>
      let dictionary := table.toDictionary
      let packet := do
        let octets ← readDump files operand
        decodePacket ⟨dictionary, config⟩ octets (Text.utf8 secret) request
      match packet with
      | .error cause => .failed cause
      | .ok packet => reportPacket dictionary packet mode
  | .lookup key => lookup table key

def run (files : Files) (invocation : Invocation) : Outcome :=
  let settings := do
    let table ← loadTable files invocation.dictionary
    let config ← loadConfig files invocation.config
    return (table, config)
  match settings with
  | .error cause => .failed cause
  | .ok (table, config) => perform files table config invocation.command

def Invocation.fileNames (invocation : Invocation) : List String :=
  let dump := match invocation.command with
    | .decode _ _ _ operand =>
        match operand.toList with
        | '@' :: name => [String.ofList name]
        | _ => []
    | .lookup _ => []
  invocation.dictionary.toList ++ invocation.config.toList ++ dump

end Radius.Inspector
