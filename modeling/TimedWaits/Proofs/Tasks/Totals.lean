import Mathlib.Algebra.BigOperators.Group.List.Basic
import Mathlib.Algebra.GroupWithZero.Nat
import TimedWaits.Proofs.Text.Fields
import TimedWaits.Proofs.Text.Lines
import TimedWaits.Tasks.TestTotals

/-! The totals of a test run add up its result lines. Each part of a result counts by itself, and adding
with a ceiling comes to the same as adding without one and cutting the sum, so the totals of a text are
sums over its results. What a test run writes is given by its lines, of which only the result lines carry
the marker; from it the reader gets back the counts of each of them, whatever stands around them. -/

set_option autoImplicit false

namespace TimedWaits.Tasks

open Text

namespace TestTotals

variable {totals first second : TestTotals}

/-- No total is above the ceiling. -/
def Within (totals : TestTotals) : Prop := totals.passed ≤ ceiling ∧ totals.failed ≤ ceiling

/-- Two totals together. A sum above the ceiling stays there. -/
def plus (first second : TestTotals) : TestTotals :=
  { passed := min (first.passed + second.passed) ceiling
    failed := min (first.failed + second.failed) ceiling }

/-- Counts added up, and cut to the ceiling at the end. -/
def sum (counts : List TestTotals) : TestTotals :=
  { passed := min (counts.map passed).sum ceiling
    failed := min (counts.map failed).sum ceiling }

private theorem Within.plus (first second : TestTotals) : (first.plus second).Within :=
  ⟨Nat.min_le_right _ _, Nat.min_le_right _ _⟩

private theorem sum_append (first second : List TestTotals) :
    sum (first ++ second) = (sum first).plus (sum second) := by
  simp only [sum, TestTotals.plus, List.map_append, List.sum_append, mk.injEq]
  omega

private theorem sum_perm {first second : List TestTotals} (same : first.Perm second) :
    sum first = sum second := by
  rw [sum, sum, (same.map passed).sum_eq, (same.map failed).sum_eq]

/-- Adding up with a ceiling at each step comes to the same as with one at the end. -/
theorem foldl_eq_plus_sum {Item : Type} {step : TestTotals → Item → TestTotals}
    {counts : Item → TestTotals}
    (adds : ∀ totals : TestTotals, totals.Within → ∀ item,
      step totals item = totals.plus (counts item))
    (items : List Item) (within : totals.Within) :
    items.foldl step totals = totals.plus (sum (items.map counts)) := by
  induction items generalizing totals with
  | nil =>
      obtain ⟨passed, failed⟩ := within
      simp [TestTotals.plus, sum, Nat.min_eq_left passed, Nat.min_eq_left failed]
  | cons item later ih =>
      rw [List.foldl_cons, adds totals within item, ih (Within.plus totals (counts item))]
      simp only [TestTotals.plus, sum, List.map_cons, List.sum_cons, mk.injEq]
      omega

/-- What the words of a part count of one kind: the number before the last word, if that is the kind. -/
def countOf (kind : List Char) (partWords : List (List Char)) : Nat :=
  match partWords.reverse with
  | last :: numeral :: _ => if last = kind then (numeral? ceiling numeral).getD 0 else 0
  | _ => 0

def ofWords (partWords : List (List Char)) : TestTotals :=
  { passed := countOf "passed".toList partWords
    failed := countOf "failed".toList partWords }

/-- What a result counts, over all its parts and without a ceiling. -/
def ofResult (result : List Char) : TestTotals :=
  let counts := (result.splitOn ';').map (ofWords <| words ·)
  { passed := (counts.map passed).sum
    failed := (counts.map failed).sum }

private theorem addPart_eq (totals : TestTotals) (within : totals.Within) (part : List Char) :
    totals.addPart part = totals.plus (ofWords (words part)) := by
  obtain ⟨passed, failed⟩ := within
  have keepPassed := Nat.min_eq_left passed
  have keepFailed := Nat.min_eq_left failed
  have kept : totals.plus { passed := 0, failed := 0 } = totals := by
    simp [TestTotals.plus, keepPassed, keepFailed]
  rw [addPart]
  rcases read : (words part).reverse with _ | ⟨last, _ | ⟨numeral, earlier⟩⟩
  · simp only [ofWords, countOf, read, kept]
  · simp only [ofWords, countOf, read, kept]
  · simp only [ofWords, countOf, read]
    by_cases isPassed : last = "passed".toList
    · simp [isPassed, addPassed, TestTotals.plus, keepFailed]
    · by_cases isFailed : last = "failed".toList
      · simp [isFailed, addFailed, TestTotals.plus, keepPassed]
      · simp only [if_neg isPassed, if_neg isFailed, kept]

private theorem addResult_eq (totals : TestTotals) (within : totals.Within) (result : List Char) :
    totals.addResult result = totals.plus (ofResult result) := by
  rw [addResult, foldl_eq_plus_sum addPart_eq _ within]
  simp only [TestTotals.plus, sum, ofResult, mk.injEq]
  omega

/-- The totals of a text are the sum over its results. -/
private theorem ofText?_eq (text : List Char) :
    ofText? text =
      if (lines text).filterMap result? = [] then none
      else some (sum (((lines text).filterMap result?).map ofResult)) := by
  rw [ofText?]
  split
  · next missing => rw [if_pos missing]
  · next results found =>
    have zero : Within {} := ⟨Nat.zero_le _, Nat.zero_le _⟩
    rw [if_neg found, foldl_eq_plus_sum addResult_eq _ zero]
    simp [TestTotals.plus, sum]

end TestTotals

/-- A decimal numeral of at most 64 bits. It may have leading zeros. -/
structure Count where
  digits : List Char
  nonempty : digits ≠ []
  decimal : AllDigits digits
  bounded : Nat.ofDigitChars 10 digits 0 ≤ TestTotals.ceiling

def Count.value (count : Count) : Nat := Nat.ofDigitChars 10 count.digits 0

/-- How a run of tests ended as a whole. -/
inductive Verdict where
  | ok
  | failed
  deriving DecidableEq

def Verdict.text : Verdict → List Char
  | .ok => "ok.".toList
  | .failed => "FAILED.".toList

/-- A result line, with what stands in it before the marker. -/
structure ResultLine where
  before : List Char
  oneLine : '\n' ∉ before
  unmarked : ¬ TestTotals.marker <:+: before
  verdict : Verdict
  passed : Count
  failed : Count
  ignored : Count
  measured : Count
  filtered : Count
  seconds : List Char
  fraction : List Char
  decimalSeconds : AllDigits seconds
  decimalFraction : AllDigits fraction

/-- What a line holds that is no result line. -/
structure NoiseLine where
  text : List Char
  oneLine : '\n' ∉ text
  unmarked : ¬ TestTotals.marker <:+: text

namespace ResultLine

/-- What follows the marker. -/
def result (line : ResultLine) : List Char :=
  ' ' :: line.verdict.text ++ ' ' :: line.passed.digits ++ " passed; ".toList ++
    line.failed.digits ++ " failed; ".toList ++ line.ignored.digits ++ " ignored; ".toList ++
    line.measured.digits ++ " measured; ".toList ++ line.filtered.digits ++
    " filtered out; finished in ".toList ++ line.seconds ++ '.' :: line.fraction ++ ['s']

def text (line : ResultLine) : List Char := line.before ++ TestTotals.marker ++ line.result

def counts (line : ResultLine) : TestTotals :=
  { passed := line.passed.value
    failed := line.failed.value }

end ResultLine

/-- A line of the output of a test run. -/
inductive OutputLine where
  | result (line : ResultLine)
  | noise (line : NoiseLine)

def OutputLine.text : OutputLine → List Char
  | .result line => line.text
  | .noise line => line.text

def OutputLine.result? : OutputLine → Option ResultLine
  | .result line => some line
  | .noise _ => none

inductive LineEnd where
  | feed
  | returnFeed
  deriving DecidableEq

def LineEnd.text : LineEnd → List Char
  | .feed => ['\n']
  | .returnFeed => ['\r', '\n']

/-- The output of a test run: lines with their ends, and perhaps one more that has none. -/
structure TestOutput where
  ended : List (OutputLine × LineEnd)
  unended : Option OutputLine := none

namespace TestOutput

def text (output : TestOutput) : List Char :=
  output.ended.flatMap (fun line => line.1.text ++ line.2.text) ++
    (output.unended.map OutputLine.text).getD []

def results (output : TestOutput) : List ResultLine :=
  output.ended.filterMap (·.1.result?) ++ (output.unended.bind OutputLine.result?).toList

def counts (output : TestOutput) : List TestTotals := output.results.map ResultLine.counts

end TestOutput

section ReadingBack

open TestTotals

private theorem marker_endsOnce : EndsOnce marker := ⟨"test result".toList, ':', by decide, by decide⟩

theorem unmarked_of_no_colon {text : List Char} (noColon : ':' ∉ text) : ¬ marker <:+: text :=
  fun marked => noColon (marked.subset (by decide))

namespace ResultLine

variable (line : ResultLine)

def time : List Char := line.seconds ++ '.' :: line.fraction ++ ['s']

/-- The words of a result, part by part. -/
def parts : List (List (List Char)) :=
  [[line.verdict.text, line.passed.digits, "passed".toList],
    [line.failed.digits, "failed".toList],
    [line.ignored.digits, "ignored".toList],
    [line.measured.digits, "measured".toList],
    [line.filtered.digits, "filtered".toList, "out".toList],
    ["finished".toList, "in".toList, line.time]]

theorem result_eq_intercalate : line.result = [';'].intercalate (line.parts.map spaced) := by
  simp [result, parts, spaced, time, List.intercalate]

/-- The words that every result line has, whatever its counts. -/
def fixedWords : List (List Char) :=
  ["passed", "failed", "ignored", "measured", "filtered", "out", "finished", "in"].map String.toList

theorem forall_words {holds : List Char → Prop} (verdict : ∀ verdict : Verdict, holds verdict.text)
    (count : ∀ count : Count, holds count.digits) (time : holds line.time)
    (fixed : ∀ word ∈ fixedWords, holds word) : ∀ part ∈ line.parts, ∀ word ∈ part, holds word := by
  simp only [fixedWords, List.map_cons, List.map_nil, List.forall_mem_cons, List.not_mem_nil,
    false_imp_iff, implies_true, and_true] at fixed
  simp only [parts, List.forall_mem_cons, List.not_mem_nil, false_imp_iff, implies_true, verdict,
    count, time, fixed, and_self]

private theorem isWord_of_mem_parts : ∀ part ∈ line.parts, ∀ word ∈ part, IsWord word := by
  have fixed : ∀ word ∈ fixedWords, IsWord word := by decide
  refine line.forall_words (fun verdict => ?_) (fun count => count.decimal.isWord count.nonempty) ?_ fixed
  · cases verdict <;> decide
  · refine ⟨by simp [time], fun character member => ?_⟩
    simp only [time, List.mem_append, List.mem_cons, List.not_mem_nil, or_false] at member
    rcases member with (inSeconds | rfl | inFraction) | rfl
    · exact line.decimalSeconds.solid character inSeconds
    · decide
    · exact line.decimalFraction.solid character inFraction
    · decide

/-- The characters of a result line after its marker, its digits and semicolons apart. -/
def alphabet : List Char := " ok.FAILED.s".toList ++ fixedWords.flatten

variable {character : Char}

theorem not_mem_of_mem_parts (noDigit : character.isDigit = false) (foreign : character ∉ alphabet) :
    ∀ part ∈ line.parts, character ∉ spaced part := by
  have apart : ∀ text, text ⊆ alphabet → character ∉ text := fun text within member =>
    foreign (within member)
  have digits : ∀ {text}, AllDigits text → character ∉ text := fun decimal => decimal.not_mem noDigit
  have noWord : ∀ part ∈ line.parts, ∀ word ∈ part, character ∉ word := by
    have within : ∀ word ∈ fixedWords, word ⊆ alphabet := by decide
    refine line.forall_words (fun verdict => ?_) (fun count => digits count.decimal) ?_
      fun word member => apart word (within word member)
    · cases verdict <;> exact apart _ (by decide)
    · have point : character ∉ ['.'] := apart _ (by decide)
      have unit : character ∉ ['s'] := apart _ (by decide)
      simp [time, digits line.decimalSeconds, digits line.decimalFraction, List.mem_singleton.not.mp point,
        List.mem_singleton.not.mp unit]
  have noSpace : character ∉ [' '] := apart _ (by decide)
  intro part isPart member
  obtain ⟨word, isWord, inWord⟩ := List.mem_flatMap.mp member
  rcases List.mem_cons.mp inWord with isSpace | inside
  · exact noSpace (List.mem_singleton.mpr isSpace)
  · exact noWord part isPart word isWord inside

theorem not_mem_result (noDigit : character.isDigit = false) (foreign : character ∉ alphabet)
    (other : character ≠ ';') : character ∉ line.result := by
  rw [result_eq_intercalate]
  refine not_mem_intercalate other fun part member => ?_
  obtain ⟨partWords, isPart, rfl⟩ := List.mem_map.mp member
  exact line.not_mem_of_mem_parts noDigit foreign partWords isPart

/-- Words that end with a number and a kind count for that kind alone. -/
private theorem ofWords_numbered (earlier : List (List Char)) (count : Count) (kind : List Char) :
    ofWords (earlier ++ [count.digits, kind]) =
      { passed := if kind = "passed".toList then count.value else 0
        failed := if kind = "failed".toList then count.value else 0 } := by
  have backwards : (earlier ++ [count.digits, kind]).reverse =
      kind :: count.digits :: earlier.reverse := by simp
  simp only [ofWords, countOf, backwards, count.decimal.numeral? count.nonempty count.bounded,
    Option.getD_some, Count.value]

private theorem ofWords_unnumbered (earlier : List (List Char)) {numeral : List Char}
    (noNumber : numeral? ceiling numeral = none) (kind : List Char) :
    ofWords (earlier ++ [numeral, kind]) = {} := by
  have backwards : (earlier ++ [numeral, kind]).reverse = kind :: numeral :: earlier.reverse := by simp
  simp only [ofWords, countOf, backwards, noNumber, Option.getD_none, ite_self]

private theorem map_ofWords_parts :
    line.parts.map ofWords =
      [{ passed := line.passed.value }, { failed := line.failed.value }, {}, {}, {}, {}] := by
  have noFiltered : numeral? ceiling "filtered".toList = none := by decide
  have noIn : numeral? ceiling "in".toList = none := by decide
  have filtered := ofWords_unnumbered [line.filtered.digits] noFiltered "out".toList
  have time := ofWords_unnumbered ["finished".toList] noIn line.time
  have passed := ofWords_numbered [line.verdict.text] line.passed "passed".toList
  have failed := ofWords_numbered [] line.failed "failed".toList
  have ignored := ofWords_numbered [] line.ignored "ignored".toList
  have measured := ofWords_numbered [] line.measured "measured".toList
  simp +decide only [List.cons_append, List.nil_append, if_true, if_false] at *
  simp only [parts, List.map_cons, List.map_nil, passed, failed, ignored, measured, filtered, time]

private theorem ofResult_result : ofResult line.result = line.counts := by
  have separate : ∀ part ∈ line.parts.map spaced, ';' ∉ part := by
    intro part member
    obtain ⟨partWords, isPart, rfl⟩ := List.mem_map.mp member
    exact line.not_mem_of_mem_parts (by decide) (by decide) partWords isPart
  have read : (line.result.splitOn ';').map (ofWords <| words ·) = line.parts.map ofWords := by
    rw [result_eq_intercalate, List.splitOn_intercalate _ separate (by simp [parts]), List.map_map]
    refine List.map_congr_left fun part isPart => ?_
    exact congrArg ofWords (words_spaced (line.isWord_of_mem_parts part isPart))
  rw [ofResult, read, map_ofWords_parts]
  simp [counts]

theorem result?_text : result? line.text = some line.result := by
  have unmarked : ¬ marker <:+: line.result :=
    unmarked_of_no_colon (line.not_mem_result (by decide) (by decide) (by decide))
  rw [result?, text, after?_append marker_endsOnce line.unmarked, Option.map_some, before_eq_self unmarked]

private theorem noFeed_text : '\n' ∉ line.text := by
  have noFeed : '\n' ∉ marker := by decide
  have noFeedResult : '\n' ∉ line.result := line.not_mem_result (by decide) (by decide) (by decide)
  simp [text, line.oneLine, noFeed, noFeedResult]

/-- A carriage return that belongs to a result line stands before the marker. -/
private theorem withoutReturn_text : withoutReturn line.text = line.text := by
  have last : line.text.getLast? = some 's' := by
    rw [text, result, ← List.append_assoc]
    exact List.getLast?_concat
  refine withoutReturn_eq_self ?_
  rw [last]
  decide

end ResultLine

namespace OutputLine

variable (line : OutputLine)

theorem noFeed_text : '\n' ∉ line.text := by
  cases line with
  | result line => exact line.noFeed_text
  | noise line => exact line.oneLine

theorem result?_text : TestTotals.result? line.text = line.result?.map ResultLine.result := by
  cases line with
  | result line => exact line.result?_text
  | noise line => exact congrArg _ (after?_eq_none line.unmarked)

private theorem result?_withoutReturn :
    TestTotals.result? (withoutReturn line.text) = line.result?.map ResultLine.result := by
  cases line with
  | result line =>
      have kept : withoutReturn (OutputLine.result line).text = line.text := line.withoutReturn_text
      rw [kept]
      exact line.result?_text
  | noise line =>
      have unmarked : ¬ marker <:+: withoutReturn line.text := fun marked =>
        line.unmarked (marked.trans (withoutReturn_isInfix line.text))
      exact congrArg _ (after?_eq_none unmarked)

private theorem results_append (lineEnd : LineEnd) (rest : List Char) :
    (lines (line.text ++ lineEnd.text ++ rest)).filterMap TestTotals.result? =
      (line.result?.map ResultLine.result).toList ++ (lines rest).filterMap TestTotals.result? := by
  have split : ∃ whole, lines (line.text ++ lineEnd.text ++ rest) = whole :: lines rest ∧
      TestTotals.result? whole = line.result?.map ResultLine.result := by
    cases lineEnd with
    | feed =>
        refine ⟨withoutReturn line.text, ?_, line.result?_withoutReturn⟩
        rw [LineEnd.text, List.append_assoc]
        exact lines_append_feed line.noFeed_text rest
    | returnFeed =>
        refine ⟨line.text, ?_, line.result?_text⟩
        have oneLine : '\n' ∉ line.text ++ ['\r'] := by simp [line.noFeed_text]
        have read := lines_append_feed oneLine rest
        rw [withoutReturn_concat] at read
        simpa [LineEnd.text] using read
  obtain ⟨whole, read, result⟩ := split
  rw [read, List.filterMap_cons, result]
  cases line.result? <;> rfl

private theorem results_of_unended :
    (lines line.text).filterMap TestTotals.result? = (line.result?.map ResultLine.result).toList := by
  by_cases empty : line.text = []
  · have none : TestTotals.result? line.text = none := by rw [empty]; decide
    rw [← line.result?_text, none, empty]
    rfl
  · rw [lines_of_unended line.noFeed_text empty, List.filterMap_cons, line.result?_text]
    cases line.result? <;> rfl

end OutputLine

namespace TestOutput

/-- The results that are read from an output are those of its result lines. -/
private theorem results_text (output : TestOutput) :
    (lines output.text).filterMap TestTotals.result? = output.results.map ResultLine.result := by
  obtain ⟨ended, unended⟩ := output
  induction ended with
  | nil =>
      cases unended with
      | none => rfl
      | some line =>
          refine (line.results_of_unended).trans ?_
          cases line <;> rfl
  | cons next later ih =>
      obtain ⟨line, lineEnd⟩ := next
      have first := line.results_append lineEnd (text { ended := later, unended })
      rw [ih] at first
      simp only [text, List.flatMap_cons, List.append_assoc] at first ⊢
      rw [first]
      cases line <;> rfl

private theorem ofText?_text (output : TestOutput) :
    ofText? output.text = if output.counts = [] then none else some (sum output.counts) := by
  rw [ofText?_eq, results_text, List.map_map, counts]
  have each : ofResult ∘ ResultLine.result = ResultLine.counts :=
    funext fun line => line.ofResult_result
  rw [each]
  simp only [List.map_eq_nil_iff]

end TestOutput

/-- The summary of what a test run writes gives the sums over its result lines, each cut to 64 bits, or
says that there is none. So it depends neither on the order of the lines nor on what stands between them,
and where two outputs meet at a line end, their totals add up. -/
theorem totals_add_up :
    (∀ output : TestOutput,
      describe (ofText? output.text) =
        if output.results = [] then "(summary not available)"
        else toString (min (output.results.map (·.passed.value)).sum (2 ^ 64 - 1)) ++ " passed, " ++
          toString (min (output.results.map (·.failed.value)).sum (2 ^ 64 - 1)) ++ " failed") ∧
    (∀ first second : TestOutput, first.counts.Perm second.counts →
      describe (ofText? first.text) = describe (ofText? second.text)) ∧
    (∀ (ended : List (OutputLine × LineEnd)) (output : TestOutput),
      ofText? (TestOutput.text { ended } ++ output.text) =
        Option.merge plus (ofText? (TestOutput.text { ended })) (ofText? output.text)) := by
  refine ⟨fun output => ?_, fun first second same => ?_, fun ended output => ?_⟩
  · have limit : ceiling = 2 ^ 64 - 1 := by decide
    simp only [output.ofText?_text, TestOutput.counts, List.map_eq_nil_iff, ← limit]
    split
    · rfl
    · simp only [describe, sum, List.map_map]
      rfl
  · have empty : first.counts = [] ↔ second.counts = [] := by
      rw [← List.length_eq_zero_iff, ← List.length_eq_zero_iff, same.length_eq]
    rw [first.ofText?_text, second.ofText?_text, sum_perm same]
    simp only [empty]
  · let whole : TestOutput := { ended := ended ++ output.ended, unended := output.unended }
    have text : TestOutput.text { ended } ++ output.text = whole.text := by
      simp [whole, TestOutput.text]
    have counts : whole.counts = TestOutput.counts { ended } ++ output.counts := by
      simp [whole, TestOutput.counts, TestOutput.results]
    rw [text, whole.ofText?_text, TestOutput.ofText?_text, output.ofText?_text, counts, sum_append]
    by_cases first : TestOutput.counts { ended } = [] <;> by_cases second : output.counts = []
    · simp [first, second]
    · simp [first, second, sum, plus]
    · simp [first, second, sum, plus]
    · simp [first, second]

/-- A run that writes carriage returns and stops in its last line, and one with the same counts in the
other order. The sum of what passed is above the ceiling. -/
theorem totals_in_either_order :
    let two : Count := ⟨"2".toList, by decide, by decide, by decide⟩
    let most : Count := ⟨"18446744073709551615".toList, by decide, by decide, by decide⟩
    let line (passed failed : Count) : ResultLine :=
      { before := "2; ".toList, oneLine := by decide, unmarked := unmarked_of_no_colon (by decide)
        verdict := .failed
        passed, failed, ignored := two, measured := two, filtered := two
        seconds := "0".toList, fraction := "04".toList
        decimalSeconds := by decide, decimalFraction := by decide }
    let noise : NoiseLine := ⟨"test 2 passed\r".toList, by decide, unmarked_of_no_colon (by decide)⟩
    let first : TestOutput :=
      { ended := [(.noise noise, .feed), (.result (line two two), .returnFeed)]
        unended := some (.result (line most two)) }
    let second : TestOutput :=
      { ended := [(.result (line most two), .feed), (.result (line two two), .feed)] }
    first.counts.Perm second.counts ∧
      describe (ofText? first.text) = describe (ofText? second.text) ∧
      describe (ofText? second.text) = toString ceiling ++ " passed, " ++ toString 4 ++ " failed" := by
  intro two most line noise first second
  obtain ⟨written, order, -⟩ := totals_add_up
  have same : first.counts.Perm second.counts := .swap _ _ _
  exact ⟨same, order first second same, written second⟩

end ReadingBack

end TimedWaits.Tasks
