import TimedWaits.Proofs.Tasks.Calls
import TimedWaits.Proofs.Text.Fields
import TimedWaits.Proofs.Text.Lines

/-! What a task writes to its output, line by line. What is told of its calls is indented, so a line that
begins with a check mark is not from them. -/

set_option autoImplicit false

namespace TimedWaits.Tasks

open Text

variable {calls : List ToolCall} {message : Message}

/-- The lines that a message puts on the output. -/
def Message.lines : Message → List (List Char)
  | .title text => [[], text.toList, []]
  | .started label => ["  ".toList ++ label.toList ++ "...".toList]
  | .succeeded label => ["  ✓ ".toList ++ label.toList ++ " in ".toList ++ anyTime.toList, []]
  | .totals counted => ["     ".toList ++ (TestTotals.describe counted).toList, []]
  | .callFailed _ _ => []
  | .problems _ _ => [[]]
  | .advice _ => [[]]
  | .completed subject =>
    ["✓ ".toList ++ subject.toList ++ " completed in ".toList ++ anyTime.toList, []]
  | .howToOpen =>
    ["   Open target/doc/sched/index.html in your browser".toList,
      "   Or run 'cargo run -p xtask -- doc --open'".toList, []]
  | .failure _ => []

private theorem Message.output_eq_unlines (message : Message) :
    message.output.toList = unlines message.lines := by
  cases message <;> unfold output lines <;> dsimp only <;> simp [toString]

theorem output_ofMessages (messages : List Message) :
    (Transcript.ofMessages messages).output.toList =
      maskTimes (unlines (messages.flatMap Message.lines)) := by
  have joined : (String.join (messages.map Message.output)).toList =
      unlines (messages.flatMap Message.lines) := by
    rw [String.toList_join]
    induction messages with
    | nil => rfl
    | cons message later ih =>
        rw [List.map_cons, List.flatMap_cons, ih, message.output_eq_unlines, List.flatMap_cons,
          unlines_append]
  rw [Transcript.ofMessages, Transcript.ofMessages.masked, String.toList_ofList, joined]

/-- A line of an indented text, or an empty one. -/
def Indented (line : List Char) : Prop := line = [] ∨ ∃ rest, line = ' ' :: rest

private theorem Indented.maskTimes {line : List Char} (indented : Indented line) :
    Indented (maskTimes line) := by
  rcases indented with rfl | ⟨rest, rfl⟩
  · exact .inl rfl
  · refine .inr ⟨_, maskTimesAfter_cons [] rest (by decide) fun _ _ _ isPoint => ?_⟩
    exact absurd isPoint (by decide)

private theorem Indented.not_marked {line : List Char} (indented : Indented line) :
    line.head? ≠ some '✓' := by
  rcases indented with rfl | ⟨rest, rfl⟩
  · exact nofun
  · exact fun marked => absurd (Option.some.inj marked) (by decide)

private theorem Message.TellsOf.indented (tells : message.TellsOf calls) :
    ∀ line ∈ message.lines, Indented line := by
  have empty : Indented [] := .inl rfl
  have spaces : ∀ rest, Indented (' ' :: rest) := fun rest => .inr ⟨rest, rfl⟩
  cases message with
  | title | completed | howToOpen | failure => cases tells
  | _ => simp [lines, empty, spaces]

theorem not_mem_runCalls_of_marked {tool : Tool} {line : List Char} (marked : line.head? = some '✓') :
    line ∉ ((runCalls calls tool).messages.flatMap Message.lines).map maskTimes := by
  intro member
  obtain ⟨plain, told, rfl⟩ := List.mem_map.mp member
  obtain ⟨message, ofCall, inMessage⟩ := List.mem_flatMap.mp told
  have indented := (tellsOf_runCalls calls tool message ofCall).indented plain inMessage
  exact indented.maskTimes.not_marked marked

private theorem oneLine_describe (counted : Option TestTotals) :
    OneLine (TestTotals.describe counted).toList := by
  have number : ∀ number : Nat, OneLine (toString number).toList := by
    intro number
    rw [Nat.toString_eq_ofList_toDigits, String.toList_ofList]
    have digits : AllDigits (Nat.toDigits 10 number) := fun _ member =>
      Nat.isDigit_of_mem_toDigits (by decide) (by decide) member
    exact ⟨digits.not_mem (by decide), digits.not_mem (by decide)⟩
  have between : OneLine " passed, ".toList := by decide
  have ending : OneLine " failed".toList := by decide
  cases counted with
  | none => decide
  | some totals =>
      change OneLine (toString totals.passed ++ " passed, " ++ toString totals.failed ++ " failed").toList
      simp only [String.toList_append, oneLine_append, number, between, ending, and_self]

theorem Message.TellsOf.oneLine (tells : message.TellsOf calls)
    (labels : ∀ call ∈ calls, OneLine call.label.toList) : ∀ line ∈ message.lines, OneLine line := by
  have empty : OneLine [] := by decide
  have fixed : OneLine "  ".toList ∧ OneLine "...".toList ∧ OneLine "  ✓ ".toList ∧
      OneLine " in ".toList ∧ OneLine "     ".toList ∧ OneLine anyTime.toList := by decide
  have label : ∀ text, (∃ call ∈ calls, call.label = text) → OneLine text.toList := by
    rintro text ⟨call, member, rfl⟩
    exact labels call member
  cases message with
  | started text | succeeded text =>
      simp only [lines, List.forall_mem_cons, List.not_mem_nil, false_imp_iff, implies_true,
        oneLine_append, label text tells, fixed, empty, and_self]
  | totals counted =>
      simp only [lines, List.forall_mem_cons, List.not_mem_nil, false_imp_iff, implies_true,
        oneLine_append, oneLine_describe, fixed, empty, and_self]
  | callFailed | problems | advice => simp [lines, empty]
  | title | completed | howToOpen | failure => cases tells

end TimedWaits.Tasks
