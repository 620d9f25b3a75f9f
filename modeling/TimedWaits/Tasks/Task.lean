import TimedWaits.Tasks.ToolCall

/-!
The development tasks and the calls of the build tool that each of them makes.
-/

set_option autoImplicit false

namespace TimedWaits.Tasks

/-- A development task with its flags. -/
inductive Task where
  | check (hostOnly : Bool)
  | test (unitOnly integrationOnly : Bool)
  | document (openAfterwards : Bool)
  deriving DecidableEq

namespace Task

/-- The machine for which the checks without a host are made. -/
def bareTarget : String := "thumbv7em-none-eabihf"

def bareChecks : List ToolCall :=
  [{ label := "Checking sched without a back-end (no_std)"
     arguments := ["check", "-p", "sched", "--target", bareTarget]
     onProblem := .stop },
   { label := "Checking sched on the Cortex-M back-end"
     arguments := ["check", "-p", "sched", "--target", bareTarget, "--features", "hardware,defmt"]
     onProblem := .stop }]

def hostChecks : List ToolCall :=
  [{ label := "Checking host back-end with tracing"
     arguments := ["check", "-p", "sched", "--features", "std,tracing", "--all-targets"]
     onProblem := .stop },
   { label := "Running clippy lints"
     arguments := ["clippy", "--workspace", "--all-targets", "--features",
       "sched/std,sched/tracing", "--", "-D", "warnings"]
     onProblem := .report },
   { label := "Checking code formatting"
     arguments := ["fmt", "--all", "--check"]
     onProblem := .report
     advice := some "Run 'cargo fmt --all' to fix" }]

def testedPackages : List String := ["platform", "sched"]

/-- The tests of one group, package by package. -/
def testGroup (group selection : String) : List ToolCall :=
  testedPackages.map fun package =>
    { label := s!"{group} ({package})"
      arguments := ["test", selection, "-p", package, "--features", "std"]
      onProblem := .stop
      showsTotals := true }

def unitTests : List ToolCall := testGroup "Unit tests" "--lib"

def integrationTests : List ToolCall := testGroup "Integration tests" "--tests"

def documentationTests : ToolCall :=
  { label := "Doc tests"
    arguments := ["test", "--doc", "--workspace", "--features", "sched/std"]
    onProblem := .report
    showsTotals := true }

def buildDocumentation (openAfterwards : Bool) : ToolCall :=
  { label := "Building documentation"
    arguments := ["doc", "-p", "platform", "-p", "sched", "--no-deps", "--features", "sched/std"] ++
      if openAfterwards then ["--open"] else []
    onProblem := .stop }

/-- The calls of a task, in their order. Each of the two flags of the tests leaves out the other
group. -/
def calls : Task → List ToolCall
  | .check hostOnly => (if hostOnly then [] else bareChecks) ++ hostChecks
  | .test unitOnly integrationOnly =>
    (if integrationOnly then [] else unitTests) ++ (if unitOnly then [] else integrationTests) ++
      [documentationTests]
  | .document openAfterwards => [buildDocumentation openAfterwards]

def title : Task → String
  | .check _ => "🔍 Checking builds..."
  | .test _ _ => "🧪 Running tests..."
  | .document _ => "📚 Building documentation..."

end Task

end TimedWaits.Tasks
