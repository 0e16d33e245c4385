import Radius.Text.Repertoire

/-!
Unsigned decimal numbers in text. A number may carry a plus sign and leading zeros;
`readDecimal?_toDigits` says that the plain digits read back.
-/

namespace Radius.Text

/-- The number of the digits, after at most one plus sign, unless it exceeds `limit`. -/
def readDecimal? (limit : Nat) (text : List Char) : Option Nat :=
  let digits := if text.head? = some '+' then text.tail else text
  if digits ≠ [] ∧ digits.all Char.isDigit ∧ Nat.ofDigitChars 10 digits 0 ≤ limit then
    some (Nat.ofDigitChars 10 digits 0)
  else none

theorem readDecimal?_toDigits (limit value : Nat) (fits : value ≤ limit) :
    readDecimal? limit (Nat.toDigits 10 value) = some value := by
  have digits : ∀ character ∈ Nat.toDigits 10 value, character.isDigit = true :=
    fun _ member => Nat.isDigit_of_mem_toDigits (by decide) (by decide) member
  have unsigned : (Nat.toDigits 10 value).head? ≠ some '+' := by
    intro signed
    have plus := digits '+' (List.mem_of_head? signed)
    contradiction
  have all : (Nat.toDigits 10 value).all Char.isDigit = true := List.all_eq_true.mpr digits
  simp [readDecimal?, unsigned, all, Nat.toDigits_ne_nil, Nat.ofDigitChars_ten_toDigits, fits]

end Radius.Text
