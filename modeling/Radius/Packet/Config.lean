import Radius.Json.Tree

/-!
Settings of a packet codec, and their form as a document.
-/

namespace Radius

structure Config where
  maxPacketSize : Nat
  requireMessageAuthenticator : Bool
deriving DecidableEq

inductive ConfigError
  | unavailable
  | unreadable
  | packetSize (size : Nat)
deriving DecidableEq

namespace Config

def default : Config := ⟨4096, false⟩

/-- The smallest packet is a header alone. -/
def smallest : Nat := 20

/-- The length field has sixteen bits. -/
def greatest : Nat := 65535

end Config

def ConfigError.message : ConfigError → String
  | .unavailable => "IO error"
  | .unreadable => "Parse error"
  | .packetSize size =>
      "Invalid configuration: max_packet_size must be between " ++ toString Config.smallest ++
        " and " ++ toString Config.greatest ++ ", got " ++ toString size

namespace Config

def validate (config : Config) : Except ConfigError Unit :=
  if config.maxPacketSize < smallest ∨ greatest < config.maxPacketSize then
    .error (.packetSize config.maxPacketSize)
  else .ok ()

def parse? (text : String) : Option Config := do
  let tree ← Json.Tree.read? text
  match ← tree.fields? ["max_packet_size", "require_message_authenticator"] false with
  | [size, required] =>
      let limit ← Json.Tree.orDefault? (4096 : Int)
        (Json.Tree.wholeWithin? 0 18446744073709551615) size
      let required ← Json.Tree.orDefault? false Json.Tree.boolean? required
      return ⟨limit.toNat, required⟩
  | _ => none

def read (text : String) : Except ConfigError Config :=
  match parse? text with
  | none => .error .unreadable
  | some config => do
      config.validate
      return config

def ofFile : Option String → Except ConfigError Config
  | none => .error .unavailable
  | some text => read text

def document (config : Config) : String :=
  "\x7b\n  \"max_packet_size\": " ++ toString config.maxPacketSize ++
    ",\n  \"require_message_authenticator\": " ++
    (if config.requireMessageAuthenticator then "true" else "false") ++ "\n\x7d"

end Config

end Radius
