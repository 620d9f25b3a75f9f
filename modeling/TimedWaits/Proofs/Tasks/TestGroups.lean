import TimedWaits.Proofs.Tasks.Runs

/-! What a green run of the tests says about the groups that were asked for. Each flag leaves out the other
group and asks for its own, so the groups asked for have run unless both flags are given; then each flag
leaves out what the other asks for, and nothing but the tests of the documentation is run. -/

set_option autoImplicit false

namespace TimedWaits.Tasks

/-- The groups of tests that have a flag of their own. -/
inductive TestGroup where
  | unit
  | integration
  deriving DecidableEq

namespace TestGroup

def flag : TestGroup → String
  | unit => "--unit"
  | integration => "--integration"

/-- The call that runs a group of tests for one package. -/
def arguments (group : TestGroup) (package : String) : List String :=
  match group with
  | unit => ["test", "--lib", "-p", package, "--features", "std"]
  | integration => ["test", "--tests", "-p", package, "--features", "std"]

/-- A group is asked for by its flag, or by the absence of flags. -/
def Selected (group : TestGroup) (flags : List String) : Prop :=
  group.flag ∈ flags ∨ ∀ other : TestGroup, other.flag ∉ flags

end TestGroup

/-- The calls with these arguments were made, at least one of them, and each exited with zero. -/
def Passed (response : Response) (results : List ToolResult) (arguments : List String) : Prop :=
  arguments ∈ response.invocations ∧
    ∀ position, response.invocations[position]? = some arguments →
      (results.getD position {}).exitCode = 0

/-- A group has run if its tests of both packages have passed. -/
def TestGroup.Ran (group : TestGroup) (response : Response) (results : List ToolResult) : Prop :=
  ∀ package ∈ ["platform", "sched"], Passed response results (group.arguments package)

private theorem withFlag?_test {unitOnly integrationOnly : Bool} {argument : String} {flagged : Task}
    (known : CommandLine.withFlag? (.test unitOnly integrationOnly) argument = some flagged) :
    (argument = "--unit" ∧ flagged = .test true integrationOnly) ∨
      (argument = "--integration" ∧ flagged = .test unitOnly true) := by
  unfold CommandLine.withFlag? at known
  split at known
  · next equal => cases equal
  · next equal =>
    cases equal
    exact .inl ⟨rfl, (Option.some.inj known).symm⟩
  · next equal =>
    cases equal
    exact .inr ⟨rfl, (Option.some.inj known).symm⟩
  · next equal => cases equal
  · cases known

/-- The flags that are read are those that stand among the arguments. -/
private theorem readFlags_test {unitOnly integrationOnly : Bool} {flags : List String} {task : Task}
    (accepted : CommandLine.readFlags (.test unitOnly integrationOnly) flags = .run task) :
    task = .test (unitOnly || decide ("--unit" ∈ flags))
      (integrationOnly || decide ("--integration" ∈ flags)) := by
  induction flags generalizing unitOnly integrationOnly with
  | nil =>
      cases accepted
      simp
  | cons argument later ih =>
      rw [CommandLine.readFlags] at accepted
      split at accepted
      · next dashes =>
        split at accepted
        · next last =>
          cases accepted
          simp [dashes, List.isEmpty_iff.mp last]
        · cases accepted
      · split at accepted
        · cases accepted
        · split at accepted
          · next flagged known =>
            rcases withFlag?_test known with ⟨rfl, rfl⟩ | ⟨rfl, rfl⟩
            · simp [ih accepted]
            · simp [ih accepted]
          · cases accepted

private theorem read_test {flags : List String} {task : Task}
    (accepted : CommandLine.read ("test" :: flags) = .run task) :
    task = .test (decide ("--unit" ∈ flags)) (decide ("--integration" ∈ flags)) := by
  have read : CommandLine.readFlags (.test false false) flags = .run task := accepted
  simpa using readFlags_test read

/-- The calls of a group are made unless the other group's flag is given. -/
private theorem mem_calls_test_iff (unitOnly integrationOnly : Bool) (group : TestGroup) :
    ∀ package ∈ ["platform", "sched"],
      group.arguments package ∈ (Task.test unitOnly integrationOnly).calls.map ToolCall.arguments ↔
        (match group with
          | .unit => integrationOnly
          | .integration => unitOnly) = false := by
  cases group <;> cases unitOnly <;> cases integrationOnly <;> decide +kernel

private theorem stops_of_group (group : TestGroup) :
    ∀ task : Task, ∀ package ∈ ["platform", "sched"], ∀ call ∈ task.calls,
      call.arguments = group.arguments package → call.onProblem = .stop := by
  cases group <;> decide +kernel

/-- A run that ends with zero has made all its calls, and those that can stop it have exited with zero. -/
private theorem passed_of_mem_calls {task : Task} {results : List ToolResult} {arguments : List String}
    (green : ((CommandLine.run task).execute (.answering results)).exitCode = 0)
    (member : arguments ∈ task.calls.map ToolCall.arguments)
    (stops : ∀ call ∈ task.calls, call.arguments = arguments → call.onProblem = .stop) :
    Passed ((CommandLine.run task).execute (.answering results)) results arguments := by
  have never := runCalls_failure_eq_none_iff.mp (exitCode_eq_zero_iff.mp green)
  have invocations := (runCalls_of_never_ends never).1
  rw [Passed, invocations_execute, invocations]
  refine ⟨member, fun position present => ?_⟩
  rw [List.getElem?_map, Option.map_eq_some_iff] at present
  obtain ⟨call, atPosition, same⟩ := present
  by_contra failed
  exact never position ⟨call, atPosition,
    stops call (List.mem_of_getElem? atPosition) same, failed⟩

private theorem both_flags_iff {flags : List String} :
    (∀ group : TestGroup, group.flag ∈ flags) ↔ "--unit" ∈ flags ∧ "--integration" ∈ flags :=
  ⟨fun both => ⟨both .unit, both .integration⟩, fun both group => by
    cases group
    · exact both.1
    · exact both.2⟩

/-- A run of the tests that ends with zero had the tool, and has run the groups that were asked for exactly
if not both flags were given. With both of them it has run the tests of the documentation alone. -/
theorem selected_groups_ran_iff {flags : List String} {task : Task} {tool : Tool}
    (accepted : CommandLine.read ("test" :: flags) = .run task)
    (green : ((CommandLine.read ("test" :: flags)).execute tool).exitCode = 0) :
    let response := (CommandLine.read ("test" :: flags)).execute tool
    ∃ results, tool = .answering results ∧
      ((∀ group : TestGroup, group.Selected flags → group.Ran response results) ↔
        ¬ ∀ group : TestGroup, group.flag ∈ flags) ∧
      ((∀ group : TestGroup, group.flag ∈ flags) →
        response.invocations = [["test", "--doc", "--workspace", "--features", "sched/std"]]) := by
  obtain rfl := read_test accepted
  simp only [accepted] at green ⊢
  cases tool with
  | missing =>
      obtain ⟨first, later, -, response⟩ :=
        execute_missing (.test (decide ("--unit" ∈ flags)) (decide ("--integration" ∈ flags)))
      rw [response] at green
      cases green
  | answering results =>
      have never := runCalls_failure_eq_none_iff.mp (exitCode_eq_zero_iff.mp green)
      have invocations := (runCalls_of_never_ends never).1
      refine ⟨results, rfl, ⟨fun ran both => ?_, fun notBoth group selected package isPackage => ?_⟩,
        fun both => ?_⟩
      · have unitRan := (ran .unit (.inl (both .unit)) "platform" (by decide)).1
        rw [invocations_execute, invocations, mem_calls_test_iff _ _ .unit "platform" (by decide)] at unitRan
        exact of_decide_eq_false unitRan (both .integration)
      · refine passed_of_mem_calls green ?_ (stops_of_group group _ package isPackage)
        rw [mem_calls_test_iff _ _ group package isPackage]
        rw [both_flags_iff] at notBoth
        cases group with
        | unit =>
            have notOther : "--integration" ∉ flags := selected.elim
              (fun own other => notBoth ⟨own, other⟩) fun none => none .integration
            exact decide_eq_false notOther
        | integration =>
            have notOther : "--unit" ∉ flags := selected.elim
              (fun own other => notBoth ⟨other, own⟩) fun none => none .unit
            exact decide_eq_false notOther
      · obtain ⟨unit, integration⟩ := both_flags_iff.mp both
        rw [invocations_execute, invocations]
        simp only [unit, integration, decide_true]
        decide +kernel

/-- The unit tests are asked for and pass. The tests of the documentation fail, which the exit code does not
show. -/
theorem green_unit_tests_ran :
    let results : List ToolResult := [{}, {}, { exitCode := 101 }]
    let response := (CommandLine.read ["test", "--unit"]).execute (.answering results)
    CommandLine.read ["test", "--unit"] = .run (.test true false) ∧ response.exitCode = 0 ∧
      TestGroup.unit.Ran response results := by
  intro results response
  have accepted : CommandLine.read ["test", "--unit"] = .run (.test true false) := by decide
  have green : response.exitCode = 0 := by decide +kernel
  obtain ⟨given, answered, ran, -⟩ := selected_groups_ran_iff accepted green
  cases answered
  have notBoth : ¬ ∀ group : TestGroup, group.flag ∈ ["--unit"] := fun both =>
    absurd (both .integration) (by decide)
  exact ⟨accepted, green, ran.mpr notBoth .unit (.inl (by decide))⟩

/-- Both flags ask for both groups, and the run ends with zero without a test of either. -/
theorem both_flags_skip_both_groups :
    let flags := ["--unit", "--integration"]
    let response := (CommandLine.read ("test" :: flags)).execute (.answering [])
    CommandLine.read ("test" :: flags) = .run (.test true true) ∧ response.exitCode = 0 ∧
      ∀ group : TestGroup, group.Selected flags ∧ ¬ group.Ran response [] := by
  intro flags response
  refine ⟨by decide, by decide +kernel, fun group => ⟨.inl ?_, fun ran => ?_⟩⟩
  · cases group <;> decide
  · have called := (ran "platform" (by decide)).1
    revert called
    cases group <;> decide +kernel

end TimedWaits.Tasks
