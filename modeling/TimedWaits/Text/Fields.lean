import TimedWaits.Text.Blank

/-!
Cutting a text into its words, and at a marker that is itself a text.
-/

set_option autoImplicit false

namespace TimedWaits.Text

/-- The words of a text: its longest parts without a blank. -/
def words (text : List Char) : List (List Char) :=
  (text.splitOnP isBlank).filter fun part => !part.isEmpty

/-- What follows the first occurrence of a marker; none if the text does not hold it. -/
def after? (marker : List Char) : List Char → Option (List Char)
  | [] => if marker.isEmpty then some [] else none
  | character :: rest =>
    if marker.isPrefixOf (character :: rest) then some ((character :: rest).drop marker.length)
    else after? marker rest

/-- What precedes the first occurrence of a marker; all of the text if it does not hold it. -/
def before (marker : List Char) : List Char → List Char
  | [] => []
  | character :: rest =>
    if marker.isPrefixOf (character :: rest) then [] else character :: before marker rest

end TimedWaits.Text
