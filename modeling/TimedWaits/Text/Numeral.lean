/-!
Decimal numerals with an upper limit. Leading zeros and one leading plus sign are allowed; a
numeral above the limit, a numeral without digits and any other character are refused.
-/

set_option autoImplicit false

namespace TimedWaits.Text

/-- The digits of a numeral, without its plus sign. -/
def unsigned : List Char → List Char
  | '+' :: digits => digits
  | digits => digits

/-- The value of a numeral up to a limit. -/
def numeral? (limit : Nat) (numeral : List Char) : Option Nat :=
  let digits := unsigned numeral
  let value := Nat.ofDigitChars 10 digits 0
  if !digits.isEmpty && digits.all Char.isDigit && value ≤ limit then some value else none

example : numeral? 99 "+0012".toList = some 12 := by decide
example : numeral? 99 "100".toList = none := by decide
example : numeral? 99 "+".toList = none := by decide

end TimedWaits.Text
