/-!
Calls of the build tool: what is asked of it, what a problem means for the task at hand, and what
the tool gives back.
-/

set_option autoImplicit false

namespace TimedWaits.Tasks

/-- What a problem found by one call means for the task: it ends there, or it goes on after a
report. -/
inductive OnProblem where
  | stop
  | report
  deriving DecidableEq

/-- One call of the build tool within a task. -/
structure ToolCall where
  label : String
  arguments : List String
  onProblem : OnProblem
  /-- Whether the totals of a test run are shown after a success. -/
  showsTotals : Bool := false
  /-- What to do about a problem. -/
  advice : Option String := none

/-- What a call gave back: its exit code, zero for success, and its two output streams. -/
structure ToolResult where
  exitCode : UInt8 := 0
  output : List UInt8 := []
  diagnostics : List UInt8 := []

def ToolResult.succeeded (result : ToolResult) : Bool := result.exitCode == 0

/-- The build tool as a task meets it: missing, or giving these results one call after another.
Calls beyond them succeed without output. -/
inductive Tool where
  | missing
  | answering (results : List ToolResult)

def Tool.name : String := "cargo"

end TimedWaits.Tasks
