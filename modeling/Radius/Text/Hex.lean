import Radius.Octets
import Radius.Text.Repertoire

/-!
Octet strings as pairs of hexadecimal digits. Writing uses lower case; reading takes both cases and
nothing but digits, and says which character is none.
-/

namespace Radius.Text

def hexDigit (value : Nat) : Char :=
  if value < 10 then Char.ofNat (48 + value) else Char.ofNat (87 + value)

def hexOctet (octet : UInt8) : List Char :=
  [hexDigit (octet.toNat / 16), hexDigit (octet.toNat % 16)]

def hex (octets : Octets) : String :=
  String.ofList (octets.flatMap hexOctet)

inductive HexError
  | oddLength
  | invalidDigit (octet : UInt8) (position : Nat)
deriving DecidableEq

def HexError.message : HexError → String
  | .oddLength => "Odd number of digits"
  | .invalidDigit octet position =>
      "Invalid character " ++ quoteCharacter (Char.ofNat octet.toNat) ++
        " at position " ++ toString position

def hexValue? (octet : UInt8) : Option UInt8 :=
  if 48 ≤ octet ∧ octet ≤ 57 then some (octet - 48)
  else if 65 ≤ octet ∧ octet ≤ 70 then some (octet - 55)
  else if 97 ≤ octet ∧ octet ≤ 102 then some (octet - 87)
  else none

def hexNibble (octet : UInt8) (position : Nat) : Except HexError UInt8 :=
  match hexValue? octet with
  | some value => .ok value
  | none => .error (.invalidDigit octet position)

def readHexFrom (position : Nat) : Octets → Except HexError Octets
  | [] => .ok []
  | [_] => .error .oddLength
  | high :: low :: rest => do
      let upper ← hexNibble high position
      let lower ← hexNibble low (position + 1)
      let octets ← readHexFrom (position + 2) rest
      return (upper * 16 + lower) :: octets

/-- An odd number of digits is reported before any character is looked at. -/
def readHex (text : String) : Except HexError Octets :=
  let digits := utf8 text
  if digits.length % 2 = 1 then .error .oddLength else readHexFrom 0 digits

end Radius.Text
