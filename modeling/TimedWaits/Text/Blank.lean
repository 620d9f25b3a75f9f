/-!
Which characters part the words of a text: those with the Unicode property `White_Space`.
-/

set_option autoImplicit false

namespace TimedWaits.Text

/-- The closed ranges of code points with the property `White_Space`, in ascending order. -/
def blankRanges : List (Nat × Nat) :=
  [(0x0009, 0x000D), (0x0020, 0x0020), (0x0085, 0x0085), (0x00A0, 0x00A0), (0x1680, 0x1680),
    (0x2000, 0x200A), (0x2028, 0x2029), (0x202F, 0x202F), (0x205F, 0x205F), (0x3000, 0x3000)]

/-- Whether a character parts words. -/
def isBlank (character : Char) : Bool :=
  blankRanges.any fun range => range.1 ≤ character.toNat && character.toNat ≤ range.2

/-- The ranges are in order and apart from each other. -/
example : blankRanges.Pairwise fun earlier later => earlier.2 < later.1 := by decide

end TimedWaits.Text
