import TimedWaits.Tasks.TestTotals
import TimedWaits.Tasks.ToolCall
import TimedWaits.Text.Times
import TimedWaits.Text.Utf8

/-!
What a task tells its user: one constructor for each kind of message, with one function for what
it puts on each of the two output streams.
-/

set_option autoImplicit false

namespace TimedWaits.Tasks

/-- Why a task ended before its last call. -/
inductive TaskFailure where
  | toolMissing (arguments : List String)
  | callFailed (label : String)
  deriving DecidableEq

/-- The wording of a failure, with its cause if it has one. -/
def TaskFailure.message : TaskFailure → String
  | .toolMissing arguments =>
    "Failed to run " ++ " ".intercalate (Tool.name :: arguments) ++
      "\n\nCaused by:\n    No such file or directory (os error 2)"
  | .callFailed label => s!"{label} failed"

inductive Message where
  | title (text : String)
  | started (label : String)
  | succeeded (label : String)
  | totals (counted : Option TestTotals)
  | callFailed (label : String) (result : ToolResult)
  | problems (label : String) (result : ToolResult)
  | advice (text : String)
  | completed (subject : String)
  | howToOpen
  | failure (cause : TaskFailure)

namespace Message

/-- The text of one of the streams of a call, as far as it can be read. -/
def captured (bytes : List UInt8) : String := String.ofList (Text.decode bytes)

/-- The place of a time in a message. Times depend on more than what the tool answers, so all are
written alike. -/
def anyTime : String := String.ofList Text.anyTime

def output : Message → String
  | .title text => s!"\n{text}\n\n"
  | .started label => s!"  {label}...\n"
  | .succeeded label => s!"  ✓ {label} in {anyTime}\n\n"
  | .totals counted => s!"     {TestTotals.describe counted}\n\n"
  | .callFailed _ _ => ""
  | .problems _ _ => "\n"
  | .advice _ => "\n"
  | .completed subject => s!"✓ {subject} completed in {anyTime}\n\n"
  | .howToOpen =>
    "   Open target/doc/sched/index.html in your browser\n" ++
      "   Or run 'cargo run -p xtask -- doc --open'\n\n"
  | .failure _ => ""

def diagnostics : Message → String
  | .callFailed label result =>
    s!"  ✗ {label} failed\n\n{captured result.output}\n{captured result.diagnostics}\n"
  | .problems label result => s!"  ⚠ {label} reported problems\n\n{captured result.diagnostics}\n"
  | .advice text => s!"     {text}\n"
  | .failure cause => s!"Error: {cause.message}\n"
  | _ => ""

end Message

/-- What a task wrote to its two streams. -/
structure Transcript where
  output : String
  diagnostics : String

/-- What the messages write, one after another, with all times replaced. -/
def Transcript.ofMessages (messages : List Message) : Transcript :=
  { output := masked (messages.map Message.output)
    diagnostics := masked (messages.map Message.diagnostics) }
where
  masked (texts : List String) : String :=
    String.ofList (Text.maskTimes (String.join texts).toList)

end TimedWaits.Tasks
