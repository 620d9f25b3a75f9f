import Mathlib.Data.List.Forall2

/-! Operations that let others run from inside them, as those do that call back or post. Two ways to carry
the operations out that agree on each of them agree on all that is nested in one another. -/

set_option autoImplicit false

namespace TimedWaits

/-- An operation, with the uses that are made from inside it where it lets them. -/
inductive NestedUse (Operation : Type) where
  | call (operation : Operation) (inside : List (NestedUse Operation))

/-- A way to carry operations out: the outcome of each, the state that it leaves, and whether it lets
the uses inside it run. -/
structure Performer (Operation State Outcome : Type) where
  perform : Operation → State → Outcome
  left : Outcome → State
  opens : Operation → Outcome → Bool

variable {Operation State Other Outcome OtherOutcome : Type}

namespace NestedUse

mutual

/-- Runs a use: all outcomes in their order, and the last state. -/
def run (performer : Performer Operation State Outcome) :
    NestedUse Operation → State → List Outcome × State
  | .call operation inside, state =>
    let outcome := performer.perform operation state
    if performer.opens operation outcome then
      let (nested, last) := runAll performer inside (performer.left outcome)
      (outcome :: nested, last)
    else ([outcome], performer.left outcome)

def runAll (performer : Performer Operation State Outcome) :
    List (NestedUse Operation) → State → List Outcome × State
  | [], state => ([], state)
  | use :: rest, state =>
    let (first, left) := use.run performer state
    let (later, last) := runAll performer rest left
    (first ++ later, last)

end

end NestedUse

/-- Two performers in step. From related states an operation has outcomes that agree on both sides; then
the states that they leave are related, and both let the uses inside run or neither does. -/
structure Performer.InStep (related : State → Other → Prop) (agree : Outcome → OtherOutcome → Prop)
    (performer : Performer Operation State Outcome)
    (performerOther : Performer Operation Other OtherOutcome) : Prop where
  perform : ∀ operation state other, related state other →
    agree (performer.perform operation state) (performerOther.perform operation other)
  left : ∀ outcome other, agree outcome other →
    related (performer.left outcome) (performerOther.left other)
  opens : ∀ operation outcome other, agree outcome other →
    performer.opens operation outcome = performerOther.opens operation other

namespace NestedUse

variable {related : State → Other → Prop} {agree : Outcome → OtherOutcome → Prop}
variable {performer : Performer Operation State Outcome}
variable {performerOther : Performer Operation Other OtherOutcome}

mutual

theorem run_agrees (inStep : performer.InStep related agree performerOther) :
    ∀ (use : NestedUse Operation) (state : State) (other : Other), related state other →
      List.Forall₂ agree (use.run performer state).1 (use.run performerOther other).1 ∧
        related (use.run performer state).2 (use.run performerOther other).2
  | .call operation inside, state, other, start => by
      have outcomes := inStep.perform operation state other start
      have left := inStep.left _ _ outcomes
      obtain ⟨nested, last⟩ := runAll_agrees inStep inside _ _ left
      simp only [run, ← inStep.opens operation _ _ outcomes]
      cases performer.opens operation (performer.perform operation state) with
      | true => exact ⟨.cons outcomes nested, last⟩
      | false => exact ⟨.cons outcomes .nil, left⟩

/-- Performers in step agree on every run. -/
theorem runAll_agrees (inStep : performer.InStep related agree performerOther) :
    ∀ (uses : List (NestedUse Operation)) (state : State) (other : Other), related state other →
      List.Forall₂ agree (runAll performer uses state).1 (runAll performerOther uses other).1 ∧
        related (runAll performer uses state).2 (runAll performerOther uses other).2
  | [], _, _, start => ⟨.nil, start⟩
  | use :: rest, state, other, start => by
      obtain ⟨first, middle⟩ := run_agrees inStep use state other start
      obtain ⟨later, last⟩ := runAll_agrees inStep rest _ _ middle
      simp only [runAll]
      exact ⟨List.rel_append first later, last⟩

end

end NestedUse

end TimedWaits
