import Radius.Packet.Validation

/-!
The command line of the inspector. Every option has a value, which is attached to it or follows it;
a value that follows may not look like an option, though it may be a single dash. Options of the
inspector stand in front of the command and options of a command behind it; no option is given
twice, and after a double dash everything is an operand.
-/

namespace Radius.Inspector

structure OptionName where
  long : String
  letter : Option Char

inductive Argument
  | operand (text : String)
  | option (name : String) (attached : Option String)
  | doubleDash
  | unknown

namespace Argument

/-- A text after an option letter: nothing, or a value with or without an equals sign. -/
def attachedValue : List Char → Option String
  | [] => none
  | '=' :: value => some (String.ofList value)
  | value => some (String.ofList value)

def splitLong (text : List Char) : String × Option String :=
  let name := text.takeWhile (· ≠ '=')
  match text.dropWhile (· ≠ '=') with
  | [] => (String.ofList name, none)
  | _ :: value => (String.ofList name, some (String.ofList value))

def ofLong (names : List OptionName) (text : List Char) : Argument :=
  let (name, attached) := splitLong text
  match names.find? fun candidate => candidate.long = name with
  | some found => .option found.long attached
  | none => .unknown

def ofLetter (names : List OptionName) (letter : Char) (rest : List Char) : Argument :=
  match names.find? fun candidate => candidate.letter = some letter with
  | some found => .option found.long (attachedValue rest)
  | none => .unknown

def classify (names : List OptionName) (text : String) : Argument :=
  match text.toList with
  | ['-', '-'] => .doubleDash
  | '-' :: '-' :: long => ofLong names long
  | '-' :: letter :: rest => ofLetter names letter rest
  | _ => .operand text

end Argument

def isValue (text : String) : Bool := text = "-" ∨ text.toList.head? ≠ some '-'

structure Arguments where
  options : List (String × String)
  operands : List String

namespace Arguments

def addOption (name value : String) (arguments : Arguments) : Arguments :=
  { arguments with options := (name, value) :: arguments.options }

def addOperand (text : String) (arguments : Arguments) : Arguments :=
  { arguments with operands := text :: arguments.operands }

def option? (arguments : Arguments) (name : String) : Option String :=
  (arguments.options.find? fun entry => entry.1 = name).map Prod.snd

def ofCommand? (names : List OptionName) : List String → Option Arguments
  | [] => some ⟨[], []⟩
  | text :: rest =>
      match Argument.classify names text with
      | .operand text => (ofCommand? names rest).map (addOperand text)
      | .option name (some value) => (ofCommand? names rest).map (addOption name value)
      | .option name none =>
          match rest with
          | [] => none
          | value :: rest =>
              if isValue value then (ofCommand? names rest).map (addOption name value) else none
      | .doubleDash => some ⟨[], rest⟩
      | .unknown => none

/-- The options in front of a command, and the command with what follows it as operands. -/
def beforeCommand? (names : List OptionName) : List String → Option Arguments
  | [] => some ⟨[], []⟩
  | text :: rest =>
      match Argument.classify names text with
      | .operand text => some ⟨[], text :: rest⟩
      | .option name (some value) => (beforeCommand? names rest).map (addOption name value)
      | .option name none =>
          match rest with
          | [] => none
          | value :: rest =>
              if isValue value then (beforeCommand? names rest).map (addOption name value) else none
      | .doubleDash => none
      | .unknown => none

def hasRepeats (arguments : Arguments) : Bool := ¬(arguments.options.map Prod.fst).Nodup

end Arguments

inductive Command
  | decode (secret : String) (request : Option String) (mode : Option ValidationMode)
      (packet : String)
  | lookup (key : String)

structure Invocation where
  dictionary : Option String
  config : Option String
  command : Command

namespace Invocation

def inspectorOptions : List OptionName :=
  [⟨"dictionary", some 'd'⟩, ⟨"config", some 'c'⟩, ⟨"log-level", none⟩]

def decodeOptions : List OptionName :=
  [⟨"secret", some 's'⟩, ⟨"request-authenticator", some 'r'⟩, ⟨"validate", none⟩]

def mode? : String → Option ValidationMode
  | "lenient" => some .lenient
  | "strict" => some .strict
  | _ => none

def command? (name : String) (arguments : List String) : Option Command :=
  match name with
  | "decode" => do
      let arguments ← Arguments.ofCommand? decodeOptions arguments
      guard ¬arguments.hasRepeats
      let secret ← arguments.option? "secret"
      let mode ← match arguments.option? "validate" with
        | none => some none
        | some text => (mode? text).map some
      match arguments.operands with
      | [packet] => return .decode secret (arguments.option? "request-authenticator") mode packet
      | _ => none
  | "lookup" => do
      let arguments ← Arguments.ofCommand? [] arguments
      match arguments.operands with
      | [key] => return .lookup key
      | _ => none
  | _ => none

/-- The invocation that the arguments spell, if they are well formed and ask for no help. -/
def parse? (arguments : List String) : Option Invocation := do
  let outer ← Arguments.beforeCommand? inspectorOptions arguments
  guard ¬outer.hasRepeats
  match outer.operands with
  | name :: rest =>
      let command ← command? name rest
      return ⟨outer.option? "dictionary", outer.option? "config", command⟩
  | [] => none

end Invocation

end Radius.Inspector
