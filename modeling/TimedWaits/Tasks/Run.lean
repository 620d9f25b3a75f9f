import TimedWaits.Tasks.CommandLine
import TimedWaits.Tasks.Message

/-!
Running a task: its calls are made in order up to the first problem that stops it. Which calls
were made, what was told, and why the task ended early are recorded together.
-/

set_option autoImplicit false

namespace TimedWaits.Tasks

structure TaskRecord where
  invocations : List (List String) := []
  messages : List Message := []
  failure : Option TaskFailure := none

namespace TaskRecord

def preceded (record : TaskRecord) (messages : List Message) : TaskRecord :=
  { record with messages := messages ++ record.messages }

def followed (record : TaskRecord) (messages : List Message) : TaskRecord :=
  { record with messages := record.messages ++ messages }

def afterCall (record : TaskRecord) (call : ToolCall) (messages : List Message) : TaskRecord :=
  { record.preceded messages with invocations := call.arguments :: record.invocations }

end TaskRecord

/-- What is told of a call that succeeded. -/
def ToolCall.successMessages (call : ToolCall) (result : ToolResult) : List Message :=
  [.started call.label, .succeeded call.label] ++
    if call.showsTotals then [.totals (TestTotals.ofText? (Text.decode result.output))] else []

/-- What is told of a call that found a problem which does not stop the task. -/
def ToolCall.problemMessages (call : ToolCall) (result : ToolResult) : List Message :=
  [.started call.label, .problems call.label result] ++ (call.advice.map Message.advice).toList

/-- Makes calls in order, up to the first problem that stops the task. -/
def runCalls : List ToolCall → Tool → TaskRecord
  | [], _ => {}
  | call :: _, .missing =>
    { messages := [.started call.label], failure := some (.toolMissing call.arguments) }
  | call :: later, .answering results =>
    let result := results.headD {}
    if result.succeeded then
      (runCalls later (.answering results.tail)).afterCall call (call.successMessages result)
    else
      match call.onProblem with
      | .stop =>
        { invocations := [call.arguments]
          messages := [.started call.label, .callFailed call.label result]
          failure := some (.callFailed call.label) }
      | .report =>
        (runCalls later (.answering results.tail)).afterCall call (call.problemMessages result)

namespace Task

/-- What a task tells at its end, if it gets there. -/
def closing : Task → List Message
  | .check _ => [.completed "All checks"]
  | .test _ _ => [.completed "All tests"]
  | .document openAfterwards => if openAfterwards then [] else [.howToOpen]

def run (task : Task) (tool : Tool) : TaskRecord :=
  let record := (runCalls task.calls tool).preceded [.title task.title]
  match record.failure with
  | none => record.followed task.closing
  | some cause => record.followed [.failure cause]

end Task

/-- What the program does with a command line: the calls it makes, its exit code, and what it
writes. The wording of information and of misuse is left open. -/
structure Response where
  invocations : List (List String) := []
  exitCode : UInt8
  transcript : Option Transcript := none

/-- Does what a command line asks for. -/
def CommandLine.execute (command : CommandLine) (tool : Tool) : Response :=
  match command with
  | .information => { exitCode := 0 }
  | .misuse => { exitCode := 2 }
  | .run task =>
    let record := task.run tool
    { invocations := record.invocations
      exitCode := if record.failure.isSome then 1 else 0
      transcript := some (Transcript.ofMessages record.messages) }

end TimedWaits.Tasks
