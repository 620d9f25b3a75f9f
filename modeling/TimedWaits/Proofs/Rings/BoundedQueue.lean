import TimedWaits.Outcome
import TimedWaits.Proofs.Rings.Contents
import TimedWaits.Proofs.Runs.Nesting

/-! Rings answer like bounded queues. Operations run one after the other, and where one posts the
ring's signal, inside one another: whatever the post lets run comes after the operation and before
the next one. -/

set_option autoImplicit false

namespace TimedWaits

/-- An operation on a ring. A fetch of several elements brings the slice that it writes them to. -/
inductive RingOperation (α : Type) where
  | store (offered : List α)
  | fetchOne
  | fetch (slice : List α)
  | reset
  | associate (signal : Nat)
  | dissociate
  | isEmpty
  | isFull
  | length
  | capacity

inductive RingReply (α : Type) where
  | nothing
  | flag (value : Bool)
  | count (number : Nat)
  | element (oldest : Option α)
  | slice (count : Nat) (written : List α)
  | association (result : Except Refusal Unit)

/-- What an operation replies, the signal that it posts if any, and the state that whatever the post
lets run will find. -/
structure RingOutcome (α State : Type) where
  reply : RingReply α
  posted : Option Nat := none
  state : State

variable {α State Other : Type}

/-- Carries out an operation on a ring. -/
def Ring.perform : RingOperation α → Ring α → RingOutcome α (Ring α)
  | .store offered, ring =>
    let (count, filled) := ring.store offered
    { reply := .count count, posted := if count = 0 then none else filled.signal, state := filled }
  | .fetchOne, ring =>
    let (elements, rest) := ring.fetch 1
    { reply := .element elements.head?, state := rest }
  | .fetch slice, ring =>
    let (elements, rest) := ring.fetch slice.length
    { reply := .slice elements.length (elements ++ slice.drop elements.length), state := rest }
  | .reset, ring => { reply := .nothing, state := ring.reset }
  | .associate signal, ring =>
    match ring.associate? signal with
    | none => { reply := .association (.error .ringHasSignal), state := ring }
    | some named => { reply := .association (.ok ()), state := named }
  | .dissociate, ring =>
    match ring.dissociate? with
    | none => { reply := .flag false, state := ring }
    | some forgot => { reply := .flag true, state := forgot }
  | .isEmpty, ring => { reply := .flag ring.isEmpty, state := ring }
  | .isFull, ring => { reply := .flag ring.isFull, state := ring }
  | .length, ring => { reply := .count ring.length, state := ring }
  | .capacity, ring => { reply := .count ring.capacity, state := ring }

/-- A queue that holds no more elements than its capacity, with the signal that it posts. -/
structure BoundedQueue (α : Type) where
  capacity : Nat
  elements : List α := []
  within : elements.length ≤ capacity := by simp
  signal : Option Nat := none

namespace BoundedQueue

def room (queue : BoundedQueue α) : Nat := queue.capacity - queue.elements.length

/-- Appends leading elements, as many as there is room for. -/
def append (queue : BoundedQueue α) (offered : List α) : BoundedQueue α :=
  { queue with
    elements := queue.elements ++ offered.take queue.room
    within := by
      have within := queue.within
      rw [List.length_append, List.length_take, room]
      omega }

/-- Removes the oldest elements, at most the given number. -/
def drop (queue : BoundedQueue α) (count : Nat) : BoundedQueue α :=
  { queue with
    elements := queue.elements.drop count
    within := Nat.le_trans (List.length_drop ▸ Nat.sub_le _ _) queue.within }

/-- Carries out an operation on a bounded queue. -/
def perform : RingOperation α → BoundedQueue α → RingOutcome α (BoundedQueue α)
  | .store offered, queue =>
    let stored := min queue.room offered.length
    { reply := .count stored
      posted := if stored = 0 then none else queue.signal
      state := queue.append offered }
  | .fetchOne, queue => { reply := .element queue.elements.head?, state := queue.drop 1 }
  | .fetch slice, queue =>
    let read := min slice.length queue.elements.length
    { reply := .slice read (queue.elements.take read ++ slice.drop read)
      state := queue.drop slice.length }
  | .reset, queue => { reply := .nothing, state := queue.drop queue.elements.length }
  | .associate signal, queue =>
    if queue.signal.isSome then { reply := .association (.error .ringHasSignal), state := queue }
    else { reply := .association (.ok ()), state := { queue with signal := some signal } }
  | .dissociate, queue =>
    { reply := .flag queue.signal.isSome, state := { queue with signal := none } }
  | .isEmpty, queue => { reply := .flag (queue.elements.length == 0), state := queue }
  | .isFull, queue => { reply := .flag (queue.elements.length == queue.capacity), state := queue }
  | .length, queue => { reply := .count queue.elements.length, state := queue }
  | .capacity, queue => { reply := .count queue.capacity, state := queue }

end BoundedQueue

/-- A use of a ring: an operation, with the uses that the observer of the ring's signal makes if the
operation posts it. -/
abbrev RingUse (α : Type) := NestedUse (RingOperation α)

/-- Replies and posts agree, and the states are related. -/
structure RingOutcome.Agrees (related : State → Other → Prop) (left : RingOutcome α State)
    (right : RingOutcome α Other) : Prop where
  reply : left.reply = right.reply
  posted : left.posted = right.posted
  state : related left.state right.state

namespace RingUse

def performer (perform : RingOperation α → State → RingOutcome α State) :
    Performer (RingOperation α) State (RingOutcome α State) where
  perform := perform
  left := RingOutcome.state
  opens _ outcome := outcome.posted.isSome

/-- Runs uses, given what each operation does: all outcomes in their order, and the last state. -/
def runAll (perform : RingOperation α → State → RingOutcome α State) (uses : List (RingUse α))
    (state : State) : List (RingOutcome α State) × State :=
  NestedUse.runAll (performer perform) uses state

theorem inStep {related : State → Other → Prop}
    {perform : RingOperation α → State → RingOutcome α State}
    {performOther : RingOperation α → Other → RingOutcome α Other}
    (step : ∀ operation state other, related state other →
      (perform operation state).Agrees related (performOther operation other)) :
    (performer perform).InStep related (RingOutcome.Agrees related) (performer performOther) where
  perform := step
  left _ _ agrees := agrees.state
  opens _ _ _ agrees := congrArg Option.isSome agrees.posted

end RingUse

namespace Ring

/-- A ring holds what a queue of one place less holds, and posts the same signal. -/
structure Mirrors (ring : Ring α) (queue : BoundedQueue α) : Prop where
  holds : ring.Holds queue.elements
  capacity : ring.capacity = queue.capacity
  signal : ring.signal = queue.signal

namespace Mirrors

variable {ring : Ring α} {queue : BoundedQueue α}

private theorem store_agrees (mirrors : ring.Mirrors queue) (offered : List α) :
    (perform (.store offered) ring).Agrees Mirrors
      (BoundedQueue.perform (.store offered) queue) := by
  obtain ⟨count, filled, size, signal⟩ := mirrors.holds.store offered
  rw [mirrors.capacity] at count filled
  rw [List.length_take] at count
  have kept : (ring.store offered).2.signal = queue.signal := signal.trans mirrors.signal
  constructor
  case reply => exact congrArg RingReply.count count
  case posted =>
    simp only [perform, BoundedQueue.perform, count, kept]
    rfl
  case state =>
    refine ⟨filled, ?_, kept⟩
    change (ring.store offered).2.capacity = queue.capacity
    rw [Ring.capacity, size, ← mirrors.capacity, Ring.capacity]

theorem drained (mirrors : ring.Mirrors queue) (count : Nat) :
    (ring.fetch count).2.Mirrors (queue.drop count) := by
  obtain ⟨-, left, size, signal⟩ := mirrors.holds.fetch count
  refine ⟨left, ?_, signal.trans mirrors.signal⟩
  change (ring.fetch count).2.capacity = queue.capacity
  rw [Ring.capacity, size, ← mirrors.capacity, Ring.capacity]

private theorem fetchOne_agrees (mirrors : ring.Mirrors queue) :
    (perform .fetchOne ring).Agrees Mirrors (BoundedQueue.perform .fetchOne queue) := by
  have fetched := (mirrors.holds.fetch 1).1
  refine ⟨?_, rfl, mirrors.drained 1⟩
  simp only [perform, BoundedQueue.perform, fetched]
  cases queue.elements <;> rfl

private theorem fetch_agrees (mirrors : ring.Mirrors queue) (slice : List α) :
    (perform (.fetch slice) ring).Agrees Mirrors
      (BoundedQueue.perform (.fetch slice) queue) := by
  have fetched := (mirrors.holds.fetch slice.length).1
  have read : queue.elements.take (min slice.length queue.elements.length) =
      queue.elements.take slice.length := List.take_eq_take_iff.mpr (by omega)
  refine ⟨?_, rfl, mirrors.drained slice.length⟩
  simp only [perform, BoundedQueue.perform, fetched, read, List.length_take]

private theorem reset_agrees (mirrors : ring.Mirrors queue) :
    (perform .reset ring).Agrees Mirrors (BoundedQueue.perform .reset queue) := by
  have empty : (queue.drop queue.elements.length).elements = [] := List.drop_length
  refine ⟨rfl, rfl, ?_, mirrors.capacity, mirrors.signal⟩
  change ring.reset.Holds (queue.drop queue.elements.length).elements
  rw [empty]
  exact holds_nil rfl rfl

private theorem associate_agrees (mirrors : ring.Mirrors queue) (signal : Nat) :
    (perform (.associate signal) ring).Agrees Mirrors
      (BoundedQueue.perform (.associate signal) queue) := by
  simp only [perform, associate?, BoundedQueue.perform, mirrors.signal]
  cases queue.signal with
  | some named => exact ⟨rfl, rfl, mirrors⟩
  | none =>
      have holds := mirrors.holds
      exact ⟨rfl, rfl, ⟨holds.read, holds.room, holds.write, holds.cells⟩, mirrors.capacity, rfl⟩

private theorem dissociate_agrees (mirrors : ring.Mirrors queue) :
    (perform .dissociate ring).Agrees Mirrors (BoundedQueue.perform .dissociate queue) := by
  have holds := mirrors.holds
  simp only [perform, dissociate?, BoundedQueue.perform, mirrors.signal]
  cases named : queue.signal with
  | some signal =>
      exact ⟨rfl, rfl, ⟨holds.read, holds.room, holds.write, holds.cells⟩, mirrors.capacity, rfl⟩
  | none =>
      exact ⟨rfl, rfl, holds, mirrors.capacity, mirrors.signal.trans named⟩

theorem perform_agrees (mirrors : ring.Mirrors queue) (operation : RingOperation α) :
    (perform operation ring).Agrees Mirrors (BoundedQueue.perform operation queue) := by
  have holds := mirrors.holds
  cases operation with
  | store offered => exact mirrors.store_agrees offered
  | fetchOne => exact mirrors.fetchOne_agrees
  | fetch slice => exact mirrors.fetch_agrees slice
  | reset => exact mirrors.reset_agrees
  | associate signal => exact mirrors.associate_agrees signal
  | dissociate => exact mirrors.dissociate_agrees
  | isEmpty =>
      refine ⟨congrArg RingReply.flag (holds.isEmpty_eq.trans ?_), rfl, mirrors⟩
      cases queue.elements <;> rfl
  | isFull =>
      refine ⟨congrArg RingReply.flag (holds.isFull_eq.trans ?_), rfl, mirrors⟩
      rw [mirrors.capacity]
  | length => exact ⟨congrArg RingReply.count holds.length_eq, rfl, mirrors⟩
  | capacity => exact ⟨congrArg RingReply.count mirrors.capacity, rfl, mirrors⟩

end Mirrors

/-- A store that takes nothing in leaves the ring as it is, cells and indices included. -/
theorem store_eq_self {ring : Ring α} {offered : List α} (none : (ring.store offered).1 = 0) :
    (ring.store offered).2 = ring := by
  cases offered with
  | nil => rfl
  | cons element rest =>
      cases one : ring.storeOne? element with
      | none => rw [store, one]
      | some stored =>
          rw [store, one] at none
          exact absurd none (Nat.succ_ne_zero _)

end Ring

end TimedWaits
