import Radius.Json.Token

/-!
JSON texts as trees. The reader takes one token at a time; the arrays and objects that are still
open wait on a stack, so a text may be nested as deeply as it likes.
-/

namespace Radius.Json

/-- A whole number that is not written as one, and a string or key that is no text, are kept without
their value: whoever does not need it may still accept the tree. -/
inductive Tree
  | null
  | boolean (value : Bool)
  | number (whole : Option Int)
  | string (text : Option String)
  | array (items : List Tree)
  | object (members : List (Option String × Tree))

namespace Tree

/-- An array or object that is still open, with what it holds so far, the last first. -/
inductive Open
  | array (items : List Tree)
  | object (members : List (Option String × Tree))
  | member (members : List (Option String × Tree)) (key : Option String)

inductive Expected
  | value
  | firstItem
  | firstKey
  | key
  | colon
  | separator
  | nothing (whole : Tree)

structure State where
  stack : List Open
  expected : Expected

def initial : State := ⟨[], .value⟩

def deliver? (value : Tree) : List Open → Option State
  | [] => some ⟨[], .nothing value⟩
  | .array items :: outer => some ⟨.array (value :: items) :: outer, .separator⟩
  | .member members key :: outer => some ⟨.object ((key, value) :: members) :: outer, .separator⟩
  | .object _ :: _ => none

def startValue? (stack : List Open) : Token → Option State
  | .null => deliver? .null stack
  | .boolean value => deliver? (.boolean value) stack
  | .number whole => deliver? (.number whole) stack
  | .string text => deliver? (.string text) stack
  | .openArray => some ⟨.array [] :: stack, .firstItem⟩
  | .openObject => some ⟨.object [] :: stack, .firstKey⟩
  | _ => none

def startMember? (text : Option String) : List Open → Option State
  | .object members :: outer => some ⟨.member members text :: outer, .colon⟩
  | _ => none

def close? : Token → List Open → Option State
  | .closeArray, .array items :: outer => deliver? (.array items.reverse) outer
  | .closeObject, .object members :: outer => deliver? (.object members.reverse) outer
  | _, _ => none

def step? (state : State) (token : Token) : Option State :=
  match state.expected, token, state.stack with
  | .value, token, stack => startValue? stack token
  | .firstItem, .closeArray, stack => close? .closeArray stack
  | .firstItem, token, stack => startValue? stack token
  | .firstKey, .closeObject, stack => close? .closeObject stack
  | .firstKey, .string text, stack => startMember? text stack
  | .key, .string text, stack => startMember? text stack
  | .colon, .colon, stack => some ⟨stack, .value⟩
  | .separator, .comma, .array items :: outer => some ⟨.array items :: outer, .value⟩
  | .separator, .comma, .object members :: outer => some ⟨.object members :: outer, .key⟩
  | .separator, token, stack => close? token stack
  | _, _, _ => none

def read? (text : String) : Option Tree := do
  let tokens ← Token.readAll? [] text.toList
  let final ← tokens.foldlM step? initial
  match final.expected with
  | .nothing whole => some whole
  | _ => none

def text? : Tree → Option String
  | .string text => text
  | _ => none

def boolean? : Tree → Option Bool
  | .boolean value => some value
  | _ => none

def wholeWithin? (least greatest : Int) : Tree → Option Int
  | .number (some value) => if least ≤ value ∧ value ≤ greatest then some value else none
  | _ => none

def items? : Tree → Option (List Tree)
  | .array items => some items
  | _ => none

/-- One of several named things: its name, or an object whose only key is the name, without content.
-/
def named? {thing : Type} (name : thing → String) (things : List thing) : Tree → Option thing
  | .string (some text) => things.find? fun candidate => name candidate = text
  | .object [(some text, .null)] => things.find? fun candidate => name candidate = text
  | _ => none

/-- The values of the declared fields, in their order. An object may have each of them once, and
other keys only where they are allowed; an array lists the fields without their keys and may stop
early. -/
def fields? (declared : List String) (others : Bool) : Tree → Option (List (Option Tree))
  | .array items =>
      if items.length ≤ declared.length then
        some ((List.range declared.length).map fun index => items[index]?)
      else none
  | .object members => do
      let keys ← members.mapM Prod.fst
      guard (declared.all fun name => keys.count name ≤ 1)
      guard (others || keys.all declared.contains)
      return declared.map fun name =>
        (members.find? fun entry => entry.1 == some name).map Prod.snd
  | _ => none

def orDefault? {value : Type} (default : value) (read : Tree → Option value) :
    Option Tree → Option value
  | none => some default
  | some tree => read tree

def list? {value : Type} (read : Tree → Option value) (tree : Tree) : Option (List value) :=
  tree.items?.bind fun items => items.mapM read

def optional? {value : Type} (read : Tree → Option value) : Tree → Option (Option value)
  | .null => some none
  | tree => (read tree).map some

end Tree

end Radius.Json
