import Mathlib.Data.Nat.Find
import TimedWaits.Tasks.Run

/-! The calls that a task makes are a beginning of its list: all of it, or as much as it takes to reach
the first call whose problem stops the task. A call does one of two things to what is left, so whatever
holds of a run is shown by going through the calls one after another. -/

set_option autoImplicit false

namespace TimedWaits.Tasks

variable {call : ToolCall} {calls later : List ToolCall} {results others : List ToolResult}
  {position : Nat}

/-- Whether a result stops the task that made the call. -/
def ToolCall.EndsTask (call : ToolCall) (result : ToolResult) : Prop :=
  call.onProblem = .stop ∧ result.exitCode ≠ 0

/-- Whether the call at a position stops its task, given what the tool answers one call after another. -/
def EndsAt (calls : List ToolCall) (results : List ToolResult) (position : Nat) : Prop :=
  ∃ call, calls[position]? = some call ∧ call.EndsTask (results.getD position {})

/-- The first position at which a task is stopped. -/
structure FirstEnd (calls : List ToolCall) (results : List ToolResult) (position : Nat) : Prop where
  ends : EndsAt calls results position
  first : ∀ earlier < position, ¬ EndsAt calls results earlier

theorem endsAt_zero : EndsAt (call :: later) results 0 ↔ call.EndsTask (results.headD {}) := by
  cases results <;> simp [EndsAt]

theorem endsAt_succ :
    EndsAt (call :: later) results (position + 1) ↔ EndsAt later results.tail position := by
  cases results <;> simp [EndsAt]

private theorem firstEnd_succ :
    FirstEnd (call :: later) results (position + 1) ↔
      ¬ call.EndsTask (results.headD {}) ∧ FirstEnd later results.tail position := by
  constructor
  · intro ⟨ends, first⟩
    refine ⟨endsAt_zero.not.mp (first 0 position.succ_pos), endsAt_succ.mp ends, fun earlier before => ?_⟩
    exact endsAt_succ.not.mp (first (earlier + 1) (Nat.succ_lt_succ before))
  · intro ⟨goesOn, ends, first⟩
    refine ⟨endsAt_succ.mpr ends, fun earlier before => ?_⟩
    cases earlier with
    | zero => exact endsAt_zero.not.mpr goesOn
    | succ earlier => exact endsAt_succ.not.mpr (first earlier (Nat.lt_of_succ_lt_succ before))

theorem firstEnd_or_none (calls : List ToolCall) (results : List ToolResult) :
    (∃ position, FirstEnd calls results position) ∨ ∀ position, ¬ EndsAt calls results position := by
  classical
  by_cases ends : ∃ position, EndsAt calls results position
  · exact .inl ⟨Nat.find ends, Nat.find_spec ends, fun _ => Nat.find_min ends⟩
  · exact .inr (not_exists.mp ends)

theorem succeeded_iff (result : ToolResult) : result.succeeded = true ↔ result.exitCode = 0 := by
  simp [ToolResult.succeeded]

/-- What is told of a call that does not stop its task. -/
def ToolCall.messages (call : ToolCall) (result : ToolResult) : List Message :=
  if result.succeeded then call.successMessages result else call.problemMessages result

theorem runCalls_cons_of_goesOn (goesOn : ¬ call.EndsTask (results.headD {})) :
    runCalls (call :: later) (.answering results) =
      (runCalls later (.answering results.tail)).afterCall call
        (call.messages (results.headD {})) := by
  rw [runCalls, ToolCall.messages]
  split
  · rfl
  · next failed =>
    rw [succeeded_iff] at failed
    split
    · next stops => exact absurd ⟨stops, failed⟩ goesOn
    · rfl

theorem runCalls_cons_of_ends (ends : call.EndsTask (results.headD {})) :
    runCalls (call :: later) (.answering results) =
      { invocations := [call.arguments]
        messages := [.started call.label, .callFailed call.label (results.headD {})]
        failure := some (.callFailed call.label) } := by
  have failed : ¬ (results.headD {}).succeeded = true := (succeeded_iff _).not.mpr ends.2
  rw [runCalls]
  simp only [failed, ends.1]
  rfl

/-- A task makes its calls up to the first that stops it. -/
theorem runCalls_of_firstEnd (ends : FirstEnd calls results position) :
    (runCalls calls (.answering results)).invocations =
        (calls.take (position + 1)).map ToolCall.arguments ∧
      (runCalls calls (.answering results)).failure.isSome = true := by
  induction calls generalizing results position with
  | nil =>
      obtain ⟨⟨call, present, -⟩, -⟩ := ends
      cases present
  | cons call later ih =>
      cases position with
      | zero =>
          rw [runCalls_cons_of_ends (endsAt_zero.mp ends.ends)]
          exact ⟨rfl, rfl⟩
      | succ position =>
          obtain ⟨goesOn, endsLater⟩ := firstEnd_succ.mp ends
          obtain ⟨invocations, failure⟩ := ih endsLater
          rw [runCalls_cons_of_goesOn goesOn]
          exact ⟨congrArg (call.arguments :: ·) invocations, failure⟩

theorem runCalls_of_never_ends (never : ∀ position, ¬ EndsAt calls results position) :
    (runCalls calls (.answering results)).invocations = calls.map ToolCall.arguments ∧
      (runCalls calls (.answering results)).failure = none := by
  induction calls generalizing results with
  | nil => exact ⟨rfl, rfl⟩
  | cons call later ih =>
      have goesOn := endsAt_zero.not.mp (never 0)
      obtain ⟨invocations, failure⟩ := ih fun position => endsAt_succ.not.mp (never (position + 1))
      rw [runCalls_cons_of_goesOn goesOn]
      exact ⟨congrArg (call.arguments :: ·) invocations, failure⟩

theorem runCalls_failure_eq_none_iff :
    (runCalls calls (.answering results)).failure = none ↔
      ∀ position, ¬ EndsAt calls results position := by
  refine ⟨fun none => ?_, fun never => (runCalls_of_never_ends never).2⟩
  refine (firstEnd_or_none calls results).resolve_left fun ⟨position, ends⟩ => ?_
  have failed := (runCalls_of_firstEnd ends).2
  rw [none] at failed
  cases failed

/-- Results that stop a task at the same calls lead to the same calls and the same end. -/
theorem runCalls_congr (same : ∀ position, EndsAt calls results position ↔ EndsAt calls others position) :
    (runCalls calls (.answering results)).invocations =
        (runCalls calls (.answering others)).invocations ∧
      (runCalls calls (.answering results)).failure.isSome =
        (runCalls calls (.answering others)).failure.isSome := by
  rcases firstEnd_or_none calls results with ⟨position, ends⟩ | never
  · have endsOther : FirstEnd calls others position :=
      { ends := (same position).mp ends.ends
        first := fun earlier before => (same earlier).not.mp (ends.first earlier before) }
    obtain ⟨invocations, failure⟩ := runCalls_of_firstEnd ends
    obtain ⟨invocationsOther, failureOther⟩ := runCalls_of_firstEnd endsOther
    exact ⟨invocations.trans invocationsOther.symm, failure.trans failureOther.symm⟩
  · have neverOther : ∀ position, ¬ EndsAt calls others position := fun position =>
      (same position).not.mp (never position)
    obtain ⟨invocations, failure⟩ := runCalls_of_never_ends never
    obtain ⟨invocationsOther, failureOther⟩ := runCalls_of_never_ends neverOther
    rw [invocations, invocationsOther, failure, failureOther]
    exact ⟨rfl, rfl⟩

/-- Every message that the calls give tells of one of them. -/
def Message.TellsOf (calls : List ToolCall) : Message → Prop
  | .started label | .succeeded label | .callFailed label _ | .problems label _ =>
    ∃ call ∈ calls, call.label = label
  | .totals _ => True
  | .advice text => ∃ call ∈ calls, call.advice = some text
  | .title _ | .completed _ | .howToOpen | .failure _ => False

private theorem Message.TellsOf.mono {message : Message} (tells : message.TellsOf later)
    (more : later ⊆ calls) : message.TellsOf calls := by
  cases message with
  | started | succeeded | callFailed | problems | advice =>
      obtain ⟨call, member, equal⟩ := tells
      exact ⟨call, more member, equal⟩
  | totals => trivial
  | title | completed | howToOpen | failure => exact tells

private theorem ToolCall.tellsOf_messages (call : ToolCall) (result : ToolResult) :
    ∀ message ∈ call.messages result, message.TellsOf [call] := by
  have own : ∃ other ∈ [call], other.label = call.label := ⟨call, List.mem_cons_self, rfl⟩
  intro message member
  rw [ToolCall.messages] at member
  split at member
  · rw [successMessages] at member
    rcases List.mem_append.mp member with told | totals
    · simp only [List.mem_cons, List.not_mem_nil, or_false] at told
      rcases told with rfl | rfl <;> exact own
    · split at totals
      · cases List.mem_singleton.mp totals
        trivial
      · cases totals
  · rw [problemMessages] at member
    rcases List.mem_append.mp member with told | advised
    · simp only [List.mem_cons, List.not_mem_nil, or_false] at told
      rcases told with rfl | rfl <;> exact own
    · rw [Option.mem_toList, Option.map_eq_some_iff] at advised
      obtain ⟨text, advice, rfl⟩ := advised
      exact ⟨call, List.mem_cons_self, advice⟩

theorem tellsOf_runCalls (calls : List ToolCall) (tool : Tool) :
    ∀ message ∈ (runCalls calls tool).messages, message.TellsOf calls := by
  cases tool with
  | missing =>
      cases calls with
      | nil => exact fun _ member => nomatch member
      | cons call later =>
          intro message member
          cases List.mem_singleton.mp member
          exact ⟨call, List.mem_cons_self, rfl⟩
  | answering results =>
      induction calls generalizing results with
      | nil => exact fun _ member => nomatch member
      | cons call later ih =>
          intro message member
          by_cases ends : call.EndsTask (results.headD {})
          · rw [runCalls_cons_of_ends ends] at member
            simp only [List.mem_cons, List.not_mem_nil, or_false] at member
            rcases member with rfl | rfl <;> exact ⟨call, List.mem_cons_self, rfl⟩
          · rw [runCalls_cons_of_goesOn ends] at member
            rcases List.mem_append.mp member with told | toldLater
            · exact (call.tellsOf_messages _ message told).mono (by simp)
            · exact (ih results.tail message toldLater).mono (by simp)

end TimedWaits.Tasks
