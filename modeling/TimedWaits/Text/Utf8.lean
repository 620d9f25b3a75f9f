/-!
Reading bytes as UTF-8 when they need not be. Each longest run of bytes that begins a character
and cannot go on, and each byte that begins none, is read as one replacement character.
-/

set_option autoImplicit false

namespace TimedWaits.Text

def replacement : Char := Char.ofNat 0xFFFD

/-- A character of which some bytes have been read: the bits so far, how many bytes it still owes,
and the range in which the next of them has to lie. -/
structure UnfinishedCharacter where
  bits : Nat
  owed : Nat
  least : Nat := 0x80
  greatest : Nat := 0xBF

/-- What a first byte begins: a character of more bytes, or none. The ranges of the second byte
leave out longer spellings than needed, the surrogates, and all beyond the last code point. -/
def UnfinishedCharacter.ofFirst? (byte : Nat) : Option UnfinishedCharacter :=
  if 0xC2 ≤ byte ∧ byte ≤ 0xDF then some { bits := byte - 0xC0, owed := 1 }
  else if byte = 0xE0 then some { bits := 0, owed := 2, least := 0xA0 }
  else if byte = 0xED then some { bits := 0xD, owed := 2, greatest := 0x9F }
  else if 0xE1 ≤ byte ∧ byte ≤ 0xEF then some { bits := byte - 0xE0, owed := 2 }
  else if byte = 0xF0 then some { bits := 0, owed := 3, least := 0x90 }
  else if 0xF1 ≤ byte ∧ byte ≤ 0xF3 then some { bits := byte - 0xF0, owed := 3 }
  else if byte = 0xF4 then some { bits := 4, owed := 3, greatest := 0x8F }
  else none

/-- What a byte between characters gives: the characters read, and the character it begins. -/
def readFirst (byte : Nat) : List Char × Option UnfinishedCharacter :=
  if byte < 0x80 then ([Char.ofNat byte], none)
  else
    match UnfinishedCharacter.ofFirst? byte with
    | some begun => ([], some begun)
    | none => ([replacement], none)

/-- What a byte gives after an unfinished character, which it continues if it may. -/
def UnfinishedCharacter.readNext (begun : UnfinishedCharacter) (byte : Nat) :
    List Char × Option UnfinishedCharacter :=
  if begun.least ≤ byte ∧ byte ≤ begun.greatest then
    let bits := begun.bits * 64 + (byte - 0x80)
    if begun.owed ≤ 1 then ([Char.ofNat bits], none)
    else ([], some { bits, owed := begun.owed - 1 })
  else
    let (characters, next) := readFirst byte
    (replacement :: characters, next)

/-- The characters of the bytes that follow an unfinished character or none. -/
def decodeFrom : Option UnfinishedCharacter → List UInt8 → List Char
  | none, [] => []
  | some _, [] => [replacement]
  | begun, byte :: rest =>
    let (characters, next) :=
      match begun with
      | none => readFirst byte.toNat
      | some unfinished => unfinished.readNext byte.toNat
    characters ++ decodeFrom next rest

/-- The characters of a text given in bytes. -/
def decode (bytes : List UInt8) : List Char := decodeFrom none bytes

example : decode "aé€😀".toUTF8.toList = "aé€😀".toList := by decide +kernel

/-- An unfinished character is one replacement, and so is each byte that begins none. -/
example : decode [0x41, 0xE2, 0x82, 0x41, 0xC0, 0x80, 0xED, 0xA0, 0x80, 0xF0, 0x9F, 0x98] =
    "A".toList ++ [replacement] ++ "A".toList ++ List.replicate 6 replacement := by
  decide +kernel

end TimedWaits.Text
