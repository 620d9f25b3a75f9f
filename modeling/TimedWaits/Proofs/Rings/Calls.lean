import Mathlib.Algebra.Order.Ring.Nat
import Mathlib.Logic.Function.Basic
import TimedWaits.Scenario.Action
import TimedWaits.Proofs.Alarms.Run
import TimedWaits.Proofs.Rings.BoundedQueue
import TimedWaits.Proofs.Runs.Touches

/-! The rings of a system. Every call on a ring is one operation on it, and the post that may come of it
follows when the operation is over; nothing else that a system does changes a ring. -/

set_option autoImplicit false

namespace TimedWaits

/-- The operation that a call carries out on a ring. A fetch of several elements brings a slice of
zeros. -/
def Action.ringOperation? : Action → Option (Nat × RingOperation Int)
  | .store ring elements => some (ring, .store elements)
  | .fetchOne ring => some (ring, .fetchOne)
  | .fetch ring count => some (ring, .fetch (List.replicate count 0))
  | .resetRing ring => some (ring, .reset)
  | .associate ring signal => some (ring, .associate signal)
  | .dissociate ring => some (ring, .dissociate)
  | .ringIsEmpty ring => some (ring, .isEmpty)
  | .ringIsFull ring => some (ring, .isFull)
  | .ringLength ring => some (ring, .length)
  | .ringCapacity ring => some (ring, .capacity)
  | _ => none

/-- The operation that a command carries out on a given ring, if it is about that one. -/
def Command.ringOperation? (index : Nat) : Command → Option (RingOperation Int)
  | .store ring elements => if ring = index then some (.store elements) else none
  | .fetch ring count => if ring = index then some (.fetch (List.replicate count 0)) else none
  | .resetRing ring => if ring = index then some .reset else none
  | .associate ring signal => if ring = index then some (.associate signal) else none
  | .dissociate ring => if ring = index then some .dissociate else none
  | _ => none

def RingReply.answer : RingReply Int → Answer
  | .nothing => .nothing
  | .flag value => .flag value
  | .count number => .count number
  | .element oldest => .ofOption .element oldest
  | .slice number written => .slice number written
  | .association result => .ofExcept result

namespace RingOutcome

/-- What is left to do after an operation: to post the signal, if it posts one, and to answer. -/
def announce {State : Type} (outcome : RingOutcome Int State) : Activity Answer :=
  match outcome.posted with
  | none => .done outcome.reply.answer
  | some signal => do
    (SignalRef.shared signal).post
    return outcome.reply.answer

/-- A system is as before but for one ring, which has the state of an outcome, and for notes that
speak of no post. -/
structure KeptIn (outcome : RingOutcome Int (Ring Int)) (index : Nat) (before after : System) :
    Prop where
  rings : after.rings.get = Function.update before.rings.get index outcome.state
  others : after = { before with rings := after.rings, history := after.history }
  notes : ∃ notes, after.history = notes ++ before.history ∧
    ∀ signal alarm, Occurrence.posted signal alarm ∉ notes

end RingOutcome

namespace System

variable {system : System} {outcome : RingOutcome Int (Ring Int)} {index : Nat}

private theorem get_setRing (system : System) (index : Nat) (ring : Ring Int) :
    (system.setRing index ring).rings.get = Function.update system.rings.get index ring := by
  funext other
  rw [Function.update_apply]
  exact Table.get_set _ _ _ _

theorem keptIn_self (same : outcome.state = system.rings.get index) :
    outcome.KeptIn index system system where
  rings := by rw [same, Function.update_eq_self]
  others := rfl
  notes := ⟨[], rfl, by simp⟩

theorem keptIn_setRing (system : System) (index : Nat) :
    outcome.KeptIn index system (system.setRing index outcome.state) where
  rings := get_setRing system index outcome.state
  others := rfl
  notes := ⟨[], rfl, by simp⟩

end System

theorem RingOutcome.KeptIn.record {outcome : RingOutcome Int (Ring Int)} {index : Nat}
    {before after : System} (kept : outcome.KeptIn index before after) {occurrence : Occurrence}
    (silent : ∀ signal alarm, Occurrence.posted signal alarm ≠ occurrence) :
    outcome.KeptIn index before (after.record occurrence) where
  rings := kept.rings
  others := congrArg (fun system : System => system.record occurrence) kept.others
  notes := by
    obtain ⟨notes, history, none⟩ := kept.notes
    refine ⟨occurrence :: notes, congrArg (occurrence :: ·) history, fun signal alarm member => ?_⟩
    rcases List.mem_cons.mp member with same | member
    · exact silent signal alarm same
    · exact none signal alarm member

theorem Ring.perform_fetch_zeros (ring : Ring Int) (count : Nat) :
    Ring.perform (.fetch (List.replicate count 0)) ring =
      { reply := .slice (ring.fetch count).1.length ((ring.fetch count).1 ++
          List.replicate (count - (ring.fetch count).1.length) 0)
        state := (ring.fetch count).2 } := by
  simp only [perform, List.length_replicate, List.drop_replicate]

namespace Rings

variable {σ : Type} {environment : Environment σ} {world : World σ}

private theorem activity_store_run {bound index : Nat} {elements : List Int} {stored : Stored}
    {changed : System} (applied : world.system.store index elements = (stored, changed)) :
    ((Action.store index elements).activity bound).run environment world =
      (Attachment.callAny stored.attachment >>= fun _ => Activity.done (.count stored.count)).run
        environment { world with system := changed } := by
  simp only [Action.activity, store, Activity.run_bind, Activity.perform, Activity.run,
    World.apply, Command.apply, applied]
  cases (Attachment.callAny stored.attachment).run environment { world with system := changed } with
  | mk result ran => cases result <;> rfl

/-- A store is the operation on the ring, and then the post of the ring's signal if it took anything
in. -/
private theorem store_run (bound index : Nat) (elements : List Int) :
    let outcome := Ring.perform (.store elements) (world.system.rings.get index)
    ∃ kept, outcome.KeptIn index world.system kept ∧
      ((Action.store index elements).activity bound).run environment world =
        outcome.announce.run environment { world with system := kept } := by
  intro outcome
  let stored := (world.system.rings.get index).store elements
  by_cases nothing : stored.1 = 0
  · have same : outcome.state = world.system.rings.get index := Ring.store_eq_self nothing
    have posted : outcome.posted = none := if_pos nothing
    have answer : outcome.announce = .done (.count stored.1) := by
      rw [RingOutcome.announce, posted]
      rfl
    have applied : world.system.store index elements =
        ({ count := stored.1, attachment := none },
          if elements.isEmpty then world.system else world.system.log (.ringFull elements.length)) :=
      if_pos nothing
    rw [activity_store_run applied, answer]
    split
    · exact ⟨_, System.keptIn_self same, rfl⟩
    · exact ⟨_, (System.keptIn_self same).record (by simp), rfl⟩
  · have posted : outcome.posted = stored.2.signal := if_neg nothing
    let kept := (world.system.setRing index stored.2).record
      (.stored index (elements.take stored.1))
    have applied : world.system.store index elements = _ := if_neg nothing
    refine ⟨kept, (System.keptIn_setRing world.system index).record (by simp), ?_⟩
    rw [activity_store_run applied, RingOutcome.announce, posted]
    cases named : stored.2.signal with
    | none => rfl
    | some signal => rfl

private theorem action_run {action : Action} {index : Nat} {operation : RingOperation Int}
    (named : action.ringOperation? = some (index, operation)) (bound : Nat) :
    let outcome := Ring.perform operation (world.system.rings.get index)
    ∃ kept, outcome.KeptIn index world.system kept ∧
      (action.activity bound).run environment world =
        outcome.announce.run environment { world with system := kept } := by
  cases action with
  | store ring elements =>
      cases named
      exact store_run bound index elements
  | fetchOne ring =>
      cases named
      exact ⟨_, (System.keptIn_setRing world.system index).record (by simp), rfl⟩
  | fetch ring count =>
      cases named
      rw [Ring.perform_fetch_zeros]
      exact ⟨_, (System.keptIn_setRing world.system index).record (by simp), rfl⟩
  | resetRing ring =>
      cases named
      exact ⟨_, (System.keptIn_setRing world.system index).record (by simp), rfl⟩
  | associate ring signal =>
      cases named
      simp only [Action.activity, Ring.perform, Activity.run_bind, Activity.perform, Activity.run,
        World.apply, Command.apply, System.associate]
      cases (world.system.rings.get index).associate? signal with
      | none => exact ⟨_, (System.keptIn_self rfl).record (by simp), rfl⟩
      | some ring => exact ⟨_, System.keptIn_setRing world.system index, rfl⟩
  | dissociate ring =>
      cases named
      have activity : (Action.dissociate index).activity bound =
          .act (.dissociate index) fun forgot => .done (.flag forgot) := rfl
      simp only [activity, Ring.perform, Activity.run, World.apply, Command.apply,
        System.dissociate]
      cases (world.system.rings.get index).dissociate? with
      | none => exact ⟨_, System.keptIn_self rfl, rfl⟩
      | some ring => exact ⟨_, System.keptIn_setRing world.system index, rfl⟩
  | ringIsEmpty | ringIsFull | ringLength | ringCapacity =>
      cases named
      exact ⟨world.system, System.keptIn_self rfl, rfl⟩
  | _ => cases named

/-! ### Runs -/

theorem ring_store (index : Nat) (elements : List Int) (system : System) :
    (system.store index elements).2.rings.get index =
      ((system.rings.get index).store elements).2 := by
  let stored := (system.rings.get index).store elements
  have set : (system.setRing index stored.2).rings.get index = stored.2 := Table.get_set_same _ _ _
  simp only [System.store]
  split
  · next nothing =>
    have same : stored.2 = system.rings.get index := Ring.store_eq_self nothing
    split <;> exact same.symm
  · split
    · exact set
    · simp only [System.beginPost]
      split <;> exact set

theorem ring_apply (command : Command) (index : Nat) (system : System) :
    (command.apply system).2.rings.get index =
      match command.ringOperation? index with
      | none => system.rings.get index
      | some operation => (Ring.perform operation (system.rings.get index)).state := by
  by_cases about : command.ring? = some index
  · have set : ∀ ring, (system.setRing index ring).rings.get index = ring :=
      fun ring => Table.get_set_same _ _ _
    cases command with
    | store ring elements =>
        cases about
        simp only [Command.ringOperation?, if_pos]
        exact ring_store index elements system
    | fetch ring count =>
        cases about
        simp only [Command.ringOperation?, if_pos, Ring.perform_fetch_zeros]
        exact set _
    | resetRing ring =>
        cases about
        simp only [Command.ringOperation?, if_pos]
        exact set _
    | associate ring signal =>
        cases about
        simp only [Command.ringOperation?, if_pos, Command.apply, System.associate, Ring.perform]
        cases (system.rings.get index).associate? signal with
        | none => rfl
        | some named => exact set named
    | dissociate ring =>
        cases about
        simp only [Command.ringOperation?, if_pos, Command.apply, System.dissociate, Ring.perform]
        cases (system.rings.get index).dissociate? with
        | none => rfl
        | some forgot => exact set forgot
    | _ => cases about
  · rw [command.rings_apply about]
    cases command with
    | store | fetch | resetRing | associate | dissociate =>
        have elsewhere := fun same => about (congrArg some same)
        simp only [Command.ringOperation?, if_neg elsewhere]
    | _ => rfl

private theorem ring_applyAll (commands : List Command) (index : Nat) (system : System) :
    (system.applyAll commands).rings.get index =
      (commands.filterMap (·.ringOperation? index)).foldl
        (fun ring operation => (Ring.perform operation ring).state) (system.rings.get index) := by
  induction commands generalizing system with
  | nil => rfl
  | cons command rest ih =>
      rw [System.applyAll, ih, ring_apply, List.filterMap_cons]
      cases command.ringOperation? index <;> rfl

end Rings

namespace Ring

variable {α : Type}

/-- What can be seen of a ring is what can be seen of a queue that has one place less, and both
indices lie on the circle. -/
structure Shows (ring : Ring α) (queue : BoundedQueue α) : Prop where
  read : ring.read < ring.size
  write : ring.write < ring.size
  size : ring.size = queue.capacity + 1
  elements : ring.toList = queue.elements
  signal : ring.signal = queue.signal

private theorem Mirrors.shows {ring : Ring α} {queue : BoundedQueue α} (mirrors : ring.Mirrors queue) :
    ring.Shows queue where
  read := mirrors.holds.read
  write := mirrors.holds.write_lt
  size := by
    have wide := ring.two_le_size
    have capacity : ring.size - 1 = queue.capacity := mirrors.capacity
    omega
  elements := mirrors.holds.toList_eq
  signal := mirrors.signal

private theorem mirrors_empty (size : Nat) (wide : 2 ≤ size) :
    ({ size, two_le_size := wide } : Ring α).Mirrors { capacity := size - 1 } where
  holds := holds_nil rfl rfl
  capacity := rfl
  signal := rfl

/-- Whatever uses are made of an empty ring, also by the observer of its signal in the middle of a
store, each of them replies and posts as on a bounded queue with one place less, and leaves what a
queue would hold; a store that takes nothing in leaves the ring as it is. In a system every call on a
ring is such an operation, followed by at most the one post that comes of it and by the answer, and
a ring changes by these operations only. -/
theorem uses_refine_bounded_queue :
    (∀ {α : Type} (size : Nat) (wide : 2 ≤ size) (uses : List (RingUse α)),
      let left := RingUse.runAll perform uses { size, two_le_size := wide }
      let right := RingUse.runAll BoundedQueue.perform uses { capacity := size - 1 }
      List.Forall₂ (RingOutcome.Agrees Shows) left.1 right.1 ∧ left.2.Shows right.2) ∧
    (∀ {α : Type} (ring : Ring α) (offered : List α),
      (ring.store offered).1 = 0 → (ring.store offered).2 = ring) ∧
    (∀ (action : Action) (index : Nat) (operation : RingOperation Int),
      action.ringOperation? = some (index, operation) →
      ∀ {σ : Type} (environment : Environment σ) (world : World σ) (bound : Nat),
        let outcome := perform operation (world.system.rings.get index)
        ∃ kept, outcome.KeptIn index world.system kept ∧
          (action.activity bound).run environment world =
            outcome.announce.run environment { world with system := kept }) ∧
    ∀ (commands : List Command) (index : Nat) (system : System),
      (system.applyAll commands).rings.get index =
        (commands.filterMap (·.ringOperation? index)).foldl
          (fun ring operation => (perform operation ring).state) (system.rings.get index) := by
  refine ⟨?_, fun _ _ none => store_eq_self none, ?_, Rings.ring_applyAll⟩
  · intro α size wide uses left right
    have inStep := RingUse.inStep fun operation (ring : Ring α) queue (mirrors : ring.Mirrors queue) =>
      mirrors.perform_agrees operation
    obtain ⟨outcomes, last⟩ := NestedUse.runAll_agrees inStep uses _ _ (mirrors_empty size wide)
    refine ⟨outcomes.imp fun _ _ agrees => ?_, last.shows⟩
    exact ⟨agrees.reply, agrees.posted, agrees.state.shows⟩
  · intro action index operation named σ environment world bound
    exact Rings.action_run named bound

/-- Two elements fill a ring of three cells; the observer of its signal takes the first of them out
in the middle of the store. -/
theorem observer_takes_first :
    let uses : List (RingUse Int) := [.call (.associate 0) [],
      .call (.store [5, 6, 7]) [.call .isFull [], .call .fetchOne []]]
    let left := RingUse.runAll perform uses { size := 3 }
    2 ≤ 3 ∧ left.2.toList = [6] := by
  intro uses left
  exact ⟨by decide, (uses_refine_bounded_queue.1 3 (by decide) uses).2.elements⟩

end Ring

end TimedWaits
