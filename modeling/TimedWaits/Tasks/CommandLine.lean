import TimedWaits.Tasks.Task

/-!
What a command line asks for. Arguments are read from the left, and the first that settles the
matter does so, whatever stands after it.
-/

set_option autoImplicit false

namespace TimedWaits.Tasks

/-- What a command line asks for: a task, some information about the program, or nothing that can
be understood. -/
inductive CommandLine where
  | run (task : Task)
  | information
  | misuse
  deriving DecidableEq

namespace CommandLine

/-- The task that a name stands for, with all its flags off. -/
def taskNamed? : String → Option Task
  | "check" => some (.check false)
  | "test" => some (.test false false)
  | "doc" => some (.document false)
  | _ => none

/-- The task with one flag on; none if the task has no such flag or has it on already. -/
def withFlag? : Task → String → Option Task
  | .check false, "--host-only" => some (.check true)
  | .test false integrationOnly, "--unit" => some (.test true integrationOnly)
  | .test unitOnly false, "--integration" => some (.test unitOnly true)
  | .document false, "--open" => some (.document true)
  | _, _ => none

/-- The first letter of a cluster of short flags. -/
def shortFlag? (argument : String) : Option Char :=
  match argument.toList with
  | '-' :: letter :: _ => if letter = '-' then none else some letter
  | _ => none

/-- Reads the arguments that follow the name of a task. Two dashes end the flags, and since there
is nothing but flags they have to be the last argument. -/
def readFlags (task : Task) : List String → CommandLine
  | [] => .run task
  | argument :: rest =>
    if argument = "--" then if rest.isEmpty then .run task else .misuse
    else if argument = "--help" || shortFlag? argument = some 'h' then .information
    else
      match withFlag? task argument with
      | some flagged => readFlags flagged rest
      | none => .misuse

/-- Reads the arguments that follow the word `help`: at most one name that can be explained. -/
def readTopics : List String → CommandLine
  | [] => .information
  | [topic] => if topic = "help" || (taskNamed? topic).isSome then .information else .misuse
  | _ => .misuse

/-- Whether an argument in the first place asks for information. -/
def asksForInformation (argument : String) : Bool :=
  argument = "--help" || argument = "--version" || shortFlag? argument = some 'h' ||
    shortFlag? argument = some 'V'

/-- Reads a whole command line, without the name of the program. -/
def read : List String → CommandLine
  | [] => .misuse
  | argument :: rest =>
    match taskNamed? argument with
    | some task => readFlags task rest
    | none =>
      if argument = "help" then readTopics rest
      else if asksForInformation argument then .information
      else .misuse

def usage : String :=
  "usage: check [--host-only] | test [--unit] [--integration] | doc [--open] | help [topic]"

end CommandLine

end TimedWaits.Tasks
