import TimedWaits.Tasks.Rehearsal
import TimedWaits.Tasks.Run

/-!
The command line of the development tasks, as a rehearsal: the exit codes of the build tool are
read from standard input, one a line, and the tool itself is not called.
-/

set_option autoImplicit false

namespace TimedWaits

/-- Does what the arguments ask for, and gives the exit code. -/
def rehearse (arguments : List String) : IO UInt32 := do
  let command := Tasks.CommandLine.read arguments
  let script ←
    match command with
    | .run _ => (← IO.getStdin).readToEnd
    | _ => pure ""
  let response := command.execute (Tasks.Tool.rehearsed script)
  match response.transcript with
  | some transcript =>
    IO.print transcript.output
    IO.eprint transcript.diagnostics
  | none =>
    if response.exitCode = 0 then IO.println Tasks.CommandLine.usage
    else IO.eprintln Tasks.CommandLine.usage
  return response.exitCode.toUInt32

end TimedWaits

def main (arguments : List String) : IO UInt32 := TimedWaits.rehearse arguments
