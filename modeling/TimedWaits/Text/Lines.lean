/-!
The lines of a text. A line ends with a line feed or with a carriage return and a line feed;
neither belongs to it. The last line may be unended, and then a carriage return at its end does
belong to it. A text that ends with a line end has no empty line after it.
-/

set_option autoImplicit false

namespace TimedWaits.Text

/-- The lines of a text, without their ends. -/
def lines : List Char → List (List Char)
  | [] => []
  | '\n' :: rest => [] :: lines rest
  | '\r' :: '\n' :: rest => [] :: lines rest
  | character :: rest =>
    match lines rest with
    | [] => [[character]]
    | line :: later => (character :: line) :: later

@[simp] theorem lines_nil : lines [] = [] := by simp [lines]

@[simp] theorem lines_feed (rest : List Char) : lines ('\n' :: rest) = [] :: lines rest := by
  simp [lines]

@[simp] theorem lines_return_feed (rest : List Char) :
    lines ('\r' :: '\n' :: rest) = [] :: lines rest := by
  simp [lines]

/-- A carriage return belongs to its line unless a line feed follows at once. -/
example : lines "a\r\n\r\r\nb\rc\r".toList =
    ["a".toList, "\r".toList, "b\rc\r".toList] := by decide

end TimedWaits.Text
