import Radius.Text.Hex

/-!
The tokens of a JSON text (RFC 8259). A number token keeps its value only where it is written as a
whole number other than minus zero; a string token has no text where its escapes do not pair up to
characters. `length_of_next?` says that a token takes at least one character, so a text has finitely
many.
-/

namespace Radius.Json

inductive Token
  | openObject
  | closeObject
  | openArray
  | closeArray
  | colon
  | comma
  | null
  | boolean (value : Bool)
  | number (whole : Option Int)
  | string (text : Option String)

namespace Token

def isBlank (character : Char) : Bool :=
  character = ' ' ∨ character = '\t' ∨ character = '\n' ∨ character = '\r'

theorem length_dropWhile_le (test : Char → Bool) (text : List Char) :
    (text.dropWhile test).length ≤ text.length :=
  (List.dropWhile_suffix test).length_le

section Numbers

def startsWithDigit (text : List Char) : Bool := text.head?.any Char.isDigit

/-- What follows the fraction, if there is one, and whether there is one. -/
def skipFraction? : List Char → Option (Bool × List Char)
  | '.' :: rest => if startsWithDigit rest then some (true, rest.dropWhile Char.isDigit) else none
  | text => some (false, text)

def skipSign : List Char → List Char
  | '+' :: rest => rest
  | '-' :: rest => rest
  | text => text

def skipExponentDigits? (text : List Char) : Option (Bool × List Char) :=
  if startsWithDigit (skipSign text) then some (true, (skipSign text).dropWhile Char.isDigit)
  else none

def skipExponent? : List Char → Option (Bool × List Char)
  | 'e' :: rest => skipExponentDigits? rest
  | 'E' :: rest => skipExponentDigits? rest
  | text => some (false, text)

/-- The digits of a whole part, which has no leading zero, and what follows them. -/
def wholePart? : List Char → Option (List Char × List Char)
  | '0' :: rest => if startsWithDigit rest then none else some (['0'], rest)
  | first :: rest =>
      if first.isDigit then some (first :: rest.takeWhile Char.isDigit, rest.dropWhile Char.isDigit)
      else none
  | [] => none

def signed? (negative : Bool) (value : Nat) : Option Int :=
  if negative then if value = 0 then none else some (-value) else some value

def number? (negative : Bool) (text : List Char) : Option (Token × List Char) := do
  let (digits, rest) ← wholePart? text
  let (fraction, rest) ← skipFraction? rest
  let (exponent, rest) ← skipExponent? rest
  let whole := if fraction ∨ exponent then none else signed? negative (Nat.ofDigitChars 10 digits 0)
  return (.number whole, rest)

theorem length_skipFraction?_le {text rest : List Char} {found : Bool}
    (skipped : skipFraction? text = some (found, rest)) : rest.length ≤ text.length := by
  unfold skipFraction? at skipped
  split at skipped
  · split at skipped
    · cases skipped
      have shorter := length_dropWhile_le Char.isDigit (by assumption)
      simp only [List.length_cons]
      omega
    · contradiction
  · cases skipped
    exact Nat.le_refl _

theorem length_skipSign_le (text : List Char) : (skipSign text).length ≤ text.length := by
  unfold skipSign
  split <;> simp

theorem length_skipExponentDigits?_le {text rest : List Char} {found : Bool}
    (skipped : skipExponentDigits? text = some (found, rest)) : rest.length ≤ text.length := by
  unfold skipExponentDigits? at skipped
  split at skipped
  · cases skipped
    exact Nat.le_trans (length_dropWhile_le ..) (length_skipSign_le text)
  · contradiction

theorem length_skipExponent?_le {text rest : List Char} {found : Bool}
    (skipped : skipExponent? text = some (found, rest)) : rest.length ≤ text.length := by
  unfold skipExponent? at skipped
  split at skipped
  · exact Nat.le_succ_of_le (length_skipExponentDigits?_le skipped)
  · exact Nat.le_succ_of_le (length_skipExponentDigits?_le skipped)
  · cases skipped
    exact Nat.le_refl _

theorem length_wholePart?_lt {text digits rest : List Char}
    (read : wholePart? text = some (digits, rest)) : rest.length < text.length := by
  unfold wholePart? at read
  split at read
  · split at read
    · contradiction
    · cases read
      simp
  · split at read
    · cases read
      exact Nat.lt_succ_of_le (length_dropWhile_le ..)
    · contradiction
  · contradiction

theorem length_number?_lt {negative : Bool} {text rest : List Char} {token : Token}
    (read : number? negative text = some (token, rest)) : rest.length < text.length := by
  simp only [number?, Option.bind_eq_bind, Option.bind_eq_some_iff, Option.pure_def,
    Option.some.injEq, Prod.mk.injEq, Prod.exists] at read
  obtain ⟨digits, _, whole, _, _, fraction, _, _, exponent, _, same⟩ := read
  have first := length_wholePart?_lt whole
  have second := length_skipFraction?_le fraction
  have third := length_skipExponent?_le exponent
  rw [← same]
  omega

end Numbers

section Strings

def shortEscape? : Char → Option Char
  | '"' => some '"'
  | '\\' => some '\\'
  | '/' => some '/'
  | 'b' => some '\x08'
  | 'f' => some '\x0c'
  | 'n' => some '\n'
  | 'r' => some '\r'
  | 't' => some '\t'
  | _ => none

def hexDigit? (character : Char) : Option Nat :=
  if character.toNat < 128 then
    (Text.hexValue? (UInt8.ofNat character.toNat)).map UInt8.toNat
  else none

def unit? (first second third fourth : Char) : Option Nat := do
  let first ← hexDigit? first
  let second ← hexDigit? second
  let third ← hexDigit? third
  let fourth ← hexDigit? fourth
  return ((first * 16 + second) * 16 + third) * 16 + fourth

/-- The code points and escaped units up to the closing quote, after the `read` ones, and what
follows. -/
def units? (read : List Nat) : List Char → Option (List Nat × List Char)
  | '"' :: rest => some (read.reverse, rest)
  | '\\' :: 'u' :: first :: second :: third :: fourth :: rest =>
      match unit? first second third fourth with
      | some unit => units? (unit :: read) rest
      | none => none
  | '\\' :: letter :: rest =>
      match shortEscape? letter with
      | some character => units? (character.toNat :: read) rest
      | none => none
  | character :: rest =>
      if character.toNat < 0x20 ∨ character = '\\' then none
      else units? (character.toNat :: read) rest
  | [] => none

def isHighSurrogate (unit : Nat) : Bool := 0xD800 ≤ unit ∧ unit ≤ 0xDBFF

def isLowSurrogate (unit : Nat) : Bool := 0xDC00 ≤ unit ∧ unit ≤ 0xDFFF

/-- The characters of the units: a high and a low surrogate make one, and neither stands alone. -/
def characters? : List Nat → Option (List Char)
  | [] => some []
  | high :: low :: rest =>
      if isHighSurrogate high then
        if isLowSurrogate low then
          (characters? rest).map
            (Char.ofNat (0x10000 + (high - 0xD800) * 0x400 + (low - 0xDC00)) :: ·)
        else none
      else if isLowSurrogate high then none
      else (characters? (low :: rest)).map (Char.ofNat high :: ·)
  | [last] => if isHighSurrogate last ∨ isLowSurrogate last then none else some [Char.ofNat last]

def string? (text : List Char) : Option (Token × List Char) :=
  (units? [] text).map fun (units, rest) => (.string ((characters? units).map String.ofList), rest)

theorem length_units?_lt {read units : List Nat} {text rest : List Char}
    (found : units? read text = some (units, rest)) : rest.length < text.length := by
  fun_induction units? read text with
  | case1 => cases found; simp
  | case2 read first second third fourth rest unit _ ih =>
      have shorter := ih found
      simp only [List.length_cons]
      omega
  | case3 => contradiction
  | case4 read letter rest _ character _ ih =>
      have shorter := ih found
      simp only [List.length_cons]
      omega
  | case5 => contradiction
  | case6 => contradiction
  | case7 read character rest _ _ _ _ ih =>
      have shorter := ih found
      simp only [List.length_cons]
      omega
  | case8 => contradiction

theorem length_string?_lt {text rest : List Char} {token : Token}
    (found : string? text = some (token, rest)) : rest.length < text.length := by
  obtain ⟨⟨units, after⟩, read, same⟩ := Option.map_eq_some_iff.mp found
  cases same
  exact length_units?_lt read

end Strings

def next? : List Char → Option (Token × List Char)
  | '\x7b' :: rest => some (.openObject, rest)
  | '\x7d' :: rest => some (.closeObject, rest)
  | '[' :: rest => some (.openArray, rest)
  | ']' :: rest => some (.closeArray, rest)
  | ':' :: rest => some (.colon, rest)
  | ',' :: rest => some (.comma, rest)
  | 'n' :: 'u' :: 'l' :: 'l' :: rest => some (.null, rest)
  | 't' :: 'r' :: 'u' :: 'e' :: rest => some (.boolean true, rest)
  | 'f' :: 'a' :: 'l' :: 's' :: 'e' :: rest => some (.boolean false, rest)
  | '"' :: rest => string? rest
  | '-' :: rest => number? true rest
  | text => number? false text

theorem length_of_next? {text rest : List Char} {token : Token}
    (found : next? text = some (token, rest)) : rest.length < text.length := by
  unfold next? at found
  split at found
  case h_10 => exact Nat.lt_succ_of_lt (length_string?_lt found)
  case h_11 => exact Nat.lt_succ_of_lt (length_number?_lt found)
  case h_12 => exact length_number?_lt found
  all_goals
    cases found
    simp only [List.length_cons]
    omega

def readAll? (read : List Token) (text : List Char) : Option (List Token) :=
  let trimmed := text.dropWhile isBlank
  if trimmed.isEmpty then some read.reverse
  else
    match _found : next? trimmed with
    | none => none
    | some (token, rest) => readAll? (token :: read) rest
termination_by text.length
decreasing_by exact Nat.lt_of_lt_of_le (length_of_next? _found) (length_dropWhile_le ..)

end Token

end Radius.Json
