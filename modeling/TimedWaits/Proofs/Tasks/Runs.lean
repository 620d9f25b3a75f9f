import TimedWaits.Proofs.Tasks.Transcripts

/-! What a task does as a whole, for every command line that asks for one and everything the tool may
answer: which calls are made, with which exit code the program ends, and whether its output says that all
went well. -/

set_option autoImplicit false

namespace TimedWaits.Tasks

open Text

variable {task : Task} {tool : Tool}

/-- The tasks with every choice of their flags. -/
def Task.all : List Task :=
  [.check false, .check true, .test false false, .test false true, .test true false, .test true true,
    .document false, .document true]

private theorem Task.mem_all (task : Task) : task ∈ Task.all := by
  cases task with
  | check hostOnly => cases hostOnly <;> decide
  | test unitOnly integrationOnly => cases unitOnly <;> cases integrationOnly <;> decide
  | document openAfterwards => cases openAfterwards <;> decide

instance Task.decidableForall {holds : Task → Prop} [∀ task, Decidable (holds task)] :
    Decidable (∀ task, holds task) :=
  decidable_of_iff (∀ task ∈ Task.all, holds task)
    ⟨fun each task => each task task.mem_all, fun each task _ => each task⟩

/-- What a task tells after its calls. -/
def Task.ending (task : Task) : Option TaskFailure → List Message
  | none => task.closing
  | some cause => [.failure cause]

/-- A task is its calls between a title and an ending. -/
theorem Task.run_eq (task : Task) (tool : Tool) :
    task.run tool =
      { invocations := (runCalls task.calls tool).invocations
        messages := .title task.title :: (runCalls task.calls tool).messages ++
          task.ending (runCalls task.calls tool).failure
        failure := (runCalls task.calls tool).failure } := by
  rw [Task.run]
  obtain ⟨invocations, messages, failure⟩ := runCalls task.calls tool
  cases failure <;> rfl

theorem invocations_execute (task : Task) (tool : Tool) :
    ((CommandLine.run task).execute tool).invocations = (runCalls task.calls tool).invocations := by
  rw [CommandLine.execute, Task.run_eq]

theorem exitCode_execute (task : Task) (tool : Tool) :
    ((CommandLine.run task).execute tool).exitCode =
      if (runCalls task.calls tool).failure.isSome then 1 else 0 := by
  rw [CommandLine.execute, Task.run_eq]

theorem exitCode_eq_zero_iff :
    ((CommandLine.run task).execute tool).exitCode = 0 ↔ (runCalls task.calls tool).failure = none := by
  rw [exitCode_execute]
  cases (runCalls task.calls tool).failure <;> simp

/-- The lines of what a task writes to its output. -/
def Response.outputLines (response : Response) : List (List Char) :=
  match response.transcript with
  | some transcript => Text.lines transcript.output.toList
  | none => []

private theorem oneLine_labels : ∀ task : Task, ∀ call ∈ task.calls, OneLine call.label.toList := by
  decide +kernel

private theorem oneLine_title : ∀ task : Task, ∀ line ∈ (Message.title task.title).lines, OneLine line := by
  decide +kernel

private theorem oneLine_closing :
    ∀ task : Task, ∀ line ∈ task.closing.flatMap Message.lines, OneLine line := by
  decide +kernel

private theorem outputLines_execute (task : Task) (tool : Tool) :
    ((CommandLine.run task).execute tool).outputLines =
      ((.title task.title :: (runCalls task.calls tool).messages ++
        task.ending (runCalls task.calls tool).failure).flatMap Message.lines).map maskTimes := by
  rw [Response.outputLines, CommandLine.execute, Task.run_eq]
  simp only
  rw [output_ofMessages, lines_maskTimes_unlines]
  intro line member
  rw [List.flatMap_append, List.flatMap_cons] at member
  rcases List.mem_append.mp member with before | ending
  · rcases List.mem_append.mp before with ofTitle | ofCalls
    · exact oneLine_title task line ofTitle
    · obtain ⟨message, told, inMessage⟩ := List.mem_flatMap.mp ofCalls
      exact (tellsOf_runCalls _ tool message told).oneLine (oneLine_labels task) line inMessage
  · cases failed : (runCalls task.calls tool).failure with
    | none =>
        rw [failed] at ending
        exact oneLine_closing task line ending
    | some cause =>
        rw [failed] at ending
        cases ending

/-- The line that ends the output of a task that went through, for the tasks that have one. -/
def Task.completionLine? : Task → Option String
  | .check _ => some "✓ All checks completed in #.##s"
  | .test _ _ => some "✓ All tests completed in #.##s"
  | .document _ => none

private theorem completionLine_marked :
    ∀ task : Task, ∀ line ∈ task.completionLine?, line.toList.head? = some '✓' := by
  decide +kernel

private theorem completionLine_not_mem_title : ∀ task : Task, ∀ line ∈ task.completionLine?,
    line.toList ∉ (Message.title task.title).lines.map maskTimes := by
  decide +kernel

private theorem completionLine_mem_closing : ∀ task : Task, ∀ line ∈ task.completionLine?,
    line.toList ∈ (task.closing.flatMap Message.lines).map maskTimes := by
  decide +kernel

private theorem completionLine_mem_iff {line : String} (completes : line ∈ task.completionLine?) :
    line.toList ∈ ((CommandLine.run task).execute tool).outputLines ↔
      ((CommandLine.run task).execute tool).exitCode = 0 := by
  rw [outputLines_execute, exitCode_eq_zero_iff, List.flatMap_append, List.flatMap_cons,
    List.map_append, List.map_append]
  constructor
  · intro member
    rcases List.mem_append.mp member with before | ending
    · rcases List.mem_append.mp before with ofTitle | ofCalls
      · exact absurd ofTitle (completionLine_not_mem_title task line completes)
      · exact absurd ofCalls (not_mem_runCalls_of_marked (completionLine_marked task line completes))
    · cases failed : (runCalls task.calls tool).failure with
      | none => rfl
      | some cause =>
          rw [failed] at ending
          cases ending
  · intro none
    rw [none]
    exact List.mem_append_right _ (completionLine_mem_closing task line completes)

theorem execute_missing (task : Task) :
    ∃ first later, task.calls = first :: later ∧
      (CommandLine.run task).execute .missing =
        { invocations := [], exitCode := 1
          transcript := some (.ofMessages [.title task.title, .started first.label,
            .failure (.toolMissing first.arguments)]) } := by
  have some : ∀ task : Task, task.calls ≠ [] := by decide
  obtain ⟨first, later, calls⟩ := List.exists_cons_of_ne_nil (some task)
  refine ⟨first, later, calls, ?_⟩
  rw [CommandLine.execute, Task.run_eq, calls]
  rfl

/-- The calls whose problems are only reported: lints, formatting, and the tests of the documentation. -/
def ToolCall.IsAdvisory (call : ToolCall) : Prop :=
  call.arguments.head? = some "clippy" ∨ call.arguments.head? = some "fmt" ∨
    ["test", "--doc"] <+: call.arguments

instance (call : ToolCall) : Decidable call.IsAdvisory := inferInstanceAs (Decidable (_ ∨ _ ∨ _))

private theorem reports_iff_isAdvisory :
    ∀ task : Task, ∀ call ∈ task.calls, call.onProblem = .report ↔ call.IsAdvisory := by
  decide +kernel

/-- A command line that asks for a task has its calls made in order up to the first that stops it, and all
of them if none does; the exit code is 1 in the first case and 0 in the second. Without the tool it ends
with 1 after the first call is announced. Problems of the advisory calls, which are those whose problems
do not stop a task, change neither the calls nor the exit code. The line that says that all went well is
in the output exactly if the exit code is 0. -/
theorem tasks_end_at_first_fatal_call {arguments : List String} {task : Task}
    (accepted : CommandLine.read arguments = .run task) :
    let respond := (CommandLine.read arguments).execute
    (∀ results : List ToolResult,
      (∀ position, FirstEnd task.calls results position →
        (respond (.answering results)).invocations =
            (task.calls.take (position + 1)).map ToolCall.arguments ∧
          (respond (.answering results)).exitCode = 1) ∧
      ((∀ position, ¬ EndsAt task.calls results position) →
        (respond (.answering results)).invocations = task.calls.map ToolCall.arguments ∧
          (respond (.answering results)).exitCode = 0)) ∧
    (∃ first later, task.calls = first :: later ∧
      respond .missing =
        { invocations := [], exitCode := 1
          transcript := some (.ofMessages [.title task.title, .started first.label,
            .failure (.toolMissing first.arguments)]) }) ∧
    (∀ call ∈ task.calls, call.onProblem = .report ↔ call.IsAdvisory) ∧
    (∀ results others : List ToolResult,
      (∀ position call, task.calls[position]? = some call → ¬ call.IsAdvisory →
        ((results.getD position {}).exitCode = 0 ↔ (others.getD position {}).exitCode = 0)) →
      (respond (.answering results)).invocations = (respond (.answering others)).invocations ∧
        (respond (.answering results)).exitCode = (respond (.answering others)).exitCode) ∧
    (∀ (tool : Tool) (line : String), line ∈ task.completionLine? →
      (line.toList ∈ (respond tool).outputLines ↔ (respond tool).exitCode = 0)) := by
  have advisory := reports_iff_isAdvisory task
  simp only [accepted, invocations_execute, exitCode_execute]
  refine ⟨fun results => ⟨fun position ends => ?_, fun never => ?_⟩, execute_missing task, advisory,
    fun results others agree => ?_, fun tool line completes => ?_⟩
  · obtain ⟨invocations, failure⟩ := runCalls_of_firstEnd ends
    exact ⟨invocations, if_pos failure⟩
  · obtain ⟨invocations, failure⟩ := runCalls_of_never_ends never
    refine ⟨invocations, if_neg ?_⟩
    simp [failure]
  · have same : ∀ position, EndsAt task.calls results position ↔ EndsAt task.calls others position := by
      intro position
      refine exists_congr fun call => and_congr_right fun present => and_congr_right fun stops => ?_
      have fatal : ¬ call.IsAdvisory := fun advises => by
        have reports := (advisory call (List.mem_of_getElem? present)).mpr advises
        rw [stops] at reports
        cases reports
      exact not_congr (agree position call present fatal)
    obtain ⟨invocations, failure⟩ := runCalls_congr same
    rw [invocations, failure]
    exact ⟨rfl, rfl⟩
  · rw [← exitCode_execute]
    exact completionLine_mem_iff completes

/-- The second call of a check without a host fails: the host is not checked, and nothing is said to have
been completed. -/
theorem failed_bare_check_ends_task :
    let results : List ToolResult := [{}, { exitCode := 101 }]
    let response := (CommandLine.read ["check"]).execute (.answering results)
    CommandLine.read ["check"] = .run (.check false) ∧ FirstEnd (Task.check false).calls results 1 ∧
      response.invocations = Task.bareChecks.map ToolCall.arguments ∧ response.exitCode = 1 ∧
      "✓ All checks completed in #.##s".toList ∉ response.outputLines := by
  intro results response
  have accepted : CommandLine.read ["check"] = .run (.check false) := by decide
  have ends : FirstEnd (Task.check false).calls results 1 := by
    refine ⟨⟨_, rfl, rfl, by decide⟩, fun earlier before => ?_⟩
    cases Nat.lt_one_iff.mp before
    rintro ⟨call, -, -, failed⟩
    exact failed rfl
  obtain ⟨stopping, -, -, -, completion⟩ := tasks_end_at_first_fatal_call accepted
  obtain ⟨invocations, exitCode⟩ := (stopping results).1 1 ends
  refine ⟨accepted, ends, invocations, exitCode, (completion (.answering results) _ rfl).not.mpr ?_⟩
  rw [exitCode]
  decide

end TimedWaits.Tasks
