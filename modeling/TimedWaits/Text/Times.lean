/-!
Times of the form `12.34s`, written as `#.##s` so that texts which differ in them alone become
the same.
-/

set_option autoImplicit false

namespace TimedWaits.Text

def anyTime : List Char := "#.##s".toList

/-- The text with its times replaced, where some digits have been read just before it. A time is
a longest run of digits, a point, exactly two digits, and an `s`. -/
def maskTimesAfter (digits : List Char) : List Char → List Char
  | [] => digits
  | '.' :: tenths :: hundredths :: 's' :: rest =>
    if !digits.isEmpty && tenths.isDigit && hundredths.isDigit then
      anyTime ++ maskTimesAfter [] rest
    else
      digits ++ '.' :: maskTimesAfter [] (tenths :: hundredths :: 's' :: rest)
  | character :: rest =>
    if character.isDigit then maskTimesAfter (digits ++ [character]) rest
    else digits ++ character :: maskTimesAfter [] rest

def maskTimes (text : List Char) : List Char := maskTimesAfter [] text

example : maskTimes "in 0.00s, 12.34.56s, 1.234s, .50s and 1.2.34s".toList =
    "in #.##s, 12.#.##s, 1.234s, .50s and 1.#.##s".toList := by decide +kernel

end TimedWaits.Text
