import TimedWaits.Tasks.ToolCall
import TimedWaits.Text.Lines
import TimedWaits.Text.Numeral

/-!
A rehearsal of the build tool: its exit codes are given as a text, one a line, and it writes
nothing.
-/

set_option autoImplicit false

namespace TimedWaits.Tasks

/-- The result of a rehearsed call. A line that is no exit code stands for success. -/
def ToolResult.ofLine (line : List Char) : ToolResult :=
  { exitCode := UInt8.ofNat ((Text.numeral? 255 line).getD 0) }

/-- The tool that answers with the exit codes on the lines of a text. -/
def Tool.rehearsed (script : String) : Tool :=
  .answering ((Text.lines script.toList).map ToolResult.ofLine)

end TimedWaits.Tasks
