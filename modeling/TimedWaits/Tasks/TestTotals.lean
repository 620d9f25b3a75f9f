import TimedWaits.Text.Fields
import TimedWaits.Text.Lines
import TimedWaits.Text.Numeral

/-!
How many tests passed and failed, added up over the result lines of a test run. A result line
holds the marker `test result:`; the parts after it, up to a second marker, are separated by
semicolons, and a part that ends with a number and the word `passed` or `failed` counts.
-/

set_option autoImplicit false

namespace TimedWaits.Tasks

open Text

structure TestTotals where
  passed : Nat := 0
  failed : Nat := 0
  deriving DecidableEq

namespace TestTotals

/-- The greatest number of 64 bits. A larger numeral counts nothing, and a larger sum stays here. -/
def ceiling : Nat := 18446744073709551615

def marker : List Char := "test result:".toList

def addPassed (totals : TestTotals) (count : Nat) : TestTotals :=
  { totals with passed := min (totals.passed + count) ceiling }

def addFailed (totals : TestTotals) (count : Nat) : TestTotals :=
  { totals with failed := min (totals.failed + count) ceiling }

/-- The totals with one part of a result line, judged by its last two words. What should be a
number and is none counts as zero. -/
def addPart (totals : TestTotals) (part : List Char) : TestTotals :=
  match (words part).reverse with
  | kind :: numeral :: _ =>
    let count := (numeral? ceiling numeral).getD 0
    if kind = "passed".toList then totals.addPassed count
    else if kind = "failed".toList then totals.addFailed count
    else totals
  | _ => totals

/-- The totals with one result line, of which only what follows the marker is given. -/
def addResult (totals : TestTotals) (result : List Char) : TestTotals :=
  (result.splitOn ';').foldl addPart totals

/-- What follows the marker of a result line, up to a second marker. -/
def result? (line : List Char) : Option (List Char) :=
  (after? marker line).map (before marker)

/-- The totals of the result lines of a text; none if it has no such line. -/
def ofText? (text : List Char) : Option TestTotals :=
  match (lines text).filterMap result? with
  | [] => none
  | results => some (results.foldl addResult {})

/-- The wording of totals that may be missing. -/
def describe : Option TestTotals → String
  | some totals => s!"{totals.passed} passed, {totals.failed} failed"
  | none => "(summary not available)"

end TestTotals

end TimedWaits.Tasks
