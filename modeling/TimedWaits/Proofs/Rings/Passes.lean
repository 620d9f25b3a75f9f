import TimedWaits.Calls.Rings
import TimedWaits.Proofs.Alarms.BlockedWaits

/-! The passes of a wait for the elements of a ring. Each pass looks at the ring and waits once; a post
that it wakes up to begins the next one. -/

set_option autoImplicit false

namespace TimedWaits.Rings

open Activity

variable {σ : Type} {environment : Environment σ} {conduct : Conduct} {world later last : World σ}
  {system : System} {bound ring queue signal rounds passes : Nat} {deadline : Tick}

theorem waitFor_upon (empty : (system.rings.get ring).isEmpty = true)
    (associated : (system.rings.get ring).signal = some signal) (bound queue : Nat) (timeout : Tick) :
    (waitFor bound ring queue timeout).upon system =
      (waitUntil bound ring queue signal (Tick.deadlineAfter (system.queueNow queue) timeout) bound).upon
        system := by
  rw [waitFor, hasElements, upon_read, empty, if_neg (by decide), upon_read, associated]
  rfl

theorem waitFor_upon_filled (filled : (system.rings.get ring).isEmpty = false) (bound queue : Nat)
    (timeout : Tick) : (waitFor bound ring queue timeout).upon system = .done true := by
  rw [waitFor, hasElements, upon_read, filled, if_pos (by decide)]
  rfl

/-- What a pass does once it has found the ring empty. -/
def pass (bound ring queue signal : Nat) (deadline : Tick) (rounds : Nat) : Activity Bool := do
  if ← Alarms.waitUntil bound queue (.shared signal) deadline then
    waitUntil bound ring queue signal deadline rounds
  else
    hasElements ring

theorem waitUntil_upon_empty (empty : (system.rings.get ring).isEmpty = true)
    (bound queue signal : Nat) (deadline : Tick) (rounds : Nat) :
    (waitUntil bound ring queue signal deadline (rounds + 1)).upon system =
      (pass bound ring queue signal deadline rounds).upon system := by
  rw [waitUntil, hasElements, upon_read, empty, if_neg (by decide)]
  rfl

theorem waitUntil_upon_filled (filled : (system.rings.get ring).isEmpty = false)
    (bound queue signal : Nat) (deadline : Tick) (rounds : Nat) :
    (waitUntil bound ring queue signal deadline (rounds + 1)).upon system = .done true := by
  rw [waitUntil, hasElements, upon_read, filled, if_pos (by decide)]
  rfl

private theorem waitUntil_run_filled (filled : (world.system.rings.get ring).isEmpty = false)
    (bound queue signal : Nat) (deadline : Tick) (rounds : Nat) :
    (waitUntil bound ring queue signal deadline (rounds + 1)).run environment world = (.ok true, world) := by
  rw [← run_upon, waitUntil_upon_filled filled]
  rfl

theorem waitUntil_run_empty (empty : (world.system.rings.get ring).isEmpty = true)
    (bound queue signal : Nat) (deadline : Tick) (rounds : Nat) :
    (waitUntil bound ring queue signal deadline (rounds + 1)).run environment world =
      match (Alarms.waitUntil bound queue (.shared signal) deadline).run environment world with
      | (.ok true, later) => (waitUntil bound ring queue signal deadline rounds).run environment later
      | (.ok false, after) => (.ok !(after.system.rings.get ring).isEmpty, after)
      | (.error failure, after) => (.error failure, after) := by
  rw [← run_upon, waitUntil_upon_empty empty, run_upon, pass, run_bind]
  cases (Alarms.waitUntil bound queue (.shared signal) deadline).run environment world with
  | mk outcome after =>
      rcases outcome with failure | woken
      · rfl
      · cases woken <;> rfl

theorem waitUntil_meanwhile (empty : (world.system.rings.get ring).isEmpty = true)
    (meanwhile : (waitUntil bound ring queue signal deadline (rounds + 1)).Meanwhile conduct environment
      world) :
    (Alarms.waitUntil bound queue (.shared signal) deadline).Meanwhile conduct environment world ∧
      ∀ later, (Alarms.waitUntil bound queue (.shared signal) deadline).run environment world =
        (.ok true, later) →
        (waitUntil bound ring queue signal deadline rounds).Meanwhile conduct environment later := by
  rw [← meanwhile_upon, waitUntil_upon_empty empty, meanwhile_upon] at meanwhile
  obtain ⟨during, onward⟩ := meanwhile_bind.mp meanwhile
  exact ⟨during, onward true⟩

theorem waitUntil_spared {own : List Nat} (empty : (world.system.rings.get ring).isEmpty = true)
    (spared : (waitUntil bound ring queue signal deadline (rounds + 1)).Spared environment own world) :
    (Alarms.waitUntil bound queue (.shared signal) deadline).Spared environment own world ∧
      ∀ later, (Alarms.waitUntil bound queue (.shared signal) deadline).run environment world =
        (.ok true, later) →
        ∃ more, (waitUntil bound ring queue signal deadline rounds).Spared environment more later := by
  rw [← spared_upon, waitUntil_upon_empty empty, spared_upon] at spared
  obtain ⟨during, onward⟩ := spared_bind.mp spared
  exact ⟨during, fun later woken => ⟨_, onward true later woken⟩⟩

/-- A wait for elements goes through a number of passes that find the ring empty and wake up to a post. -/
inductive Passes (bound ring queue signal : Nat) (deadline : Tick) (environment : Environment σ) :
    Nat → World σ → World σ → Prop where
  | start (world : World σ) : Passes bound ring queue signal deadline environment 0 world world
  | pass {passes : Nat} {world later last : World σ}
      (empty : (world.system.rings.get ring).isEmpty = true)
      (woken : (Alarms.waitUntil bound queue (.shared signal) deadline).run environment world =
        (.ok true, later))
      (onward : Passes bound ring queue signal deadline environment passes later last) :
      Passes bound ring queue signal deadline environment (passes + 1) world last

namespace Passes

theorem meanwhile (through : Passes bound ring queue signal deadline environment passes world last)
    (meanwhile : (waitUntil bound ring queue signal deadline (passes + rounds)).Meanwhile conduct environment
      world) :
    (waitUntil bound ring queue signal deadline rounds).Meanwhile conduct environment last := by
  induction through with
  | start => rwa [Nat.zero_add] at meanwhile
  | pass empty woken onward ih =>
      rw [Nat.succ_add] at meanwhile
      exact ih ((waitUntil_meanwhile empty meanwhile).2 _ woken)

theorem run (through : Passes bound ring queue signal deadline environment passes world last) :
    (waitUntil bound ring queue signal deadline (passes + rounds)).run environment world =
      (waitUntil bound ring queue signal deadline rounds).run environment last := by
  induction through with
  | start => rw [Nat.zero_add]
  | pass empty woken onward ih =>
      rw [Nat.succ_add, waitUntil_run_empty empty, woken]
      exact ih

/-- Others spare the alarms of all passes, and so nothing spoils the queues. -/
theorem spared {own : List Nat}
    (through : Passes bound ring queue signal deadline environment passes world last)
    (spared : (waitUntil bound ring queue signal deadline (passes + rounds)).Spared environment own world)
    (threaded : world.system.Threaded) (sound : world.system.ledger.Sound) :
    last.system.Threaded ∧ last.system.ledger.Sound ∧
      world.system.ledger.count ≤ last.system.ledger.count ∧
      ∃ more, (waitUntil bound ring queue signal deadline rounds).Spared environment more last := by
  induction through generalizing own with
  | start =>
      rw [Nat.zero_add] at spared
      exact ⟨threaded, sound, Nat.le_refl _, own, spared⟩
  | pass empty woken onward ih =>
      rw [Nat.succ_add] at spared
      obtain ⟨during, after⟩ := waitUntil_spared empty spared
      obtain ⟨more, later⟩ := after _ woken
      have ended := Alarms.waitUntil_ended threaded sound (Alarms.ahead_of_woken woken) during woken
      obtain ⟨threadedLast, soundLast, grown, others, sparedLast⟩ := ih later ended.threaded ended.sound
      exact ⟨threadedLast, soundLast, Nat.le_trans (Nat.le_of_lt ended.exist) grown, others, sparedLast⟩

/-- Each pass takes a post that was there at first or was raised since. -/
theorem pending_add_le (through : Passes bound ring queue signal deadline environment passes world last)
    (meanwhile : (waitUntil bound ring queue signal deadline (passes + rounds)).Meanwhile conduct environment
      world)
    (tallies : world.system.Tallies signal) :
    last.system.Continues world.system ∧ last.system.pending signal + passes ≤
      world.system.pending signal +
        (last.system.since world.system).countP (Occurrence.isRaise (.shared signal)) := by
  induction through with
  | start world => exact ⟨.refl _, Nat.le_add_right _ _⟩
  | @pass passes world later last empty woken onward ih =>
      rw [Nat.succ_add] at meanwhile
      obtain ⟨during, after⟩ := waitUntil_meanwhile empty meanwhile
      have supply := during.takes_le tallies
      rw [Alarms.waitUntil_takes (Alarms.ahead_of_woken woken) woken, woken] at supply
      have counted := during.tallies tallies
      have continues := during.continues
      rw [woken] at counted continues
      obtain ⟨onwards, few⟩ := ih (after later woken) counted
      have whole := @System.Continues.since_trans world.system later.system last.system continues onwards
      refine ⟨continues.trans onwards, ?_⟩
      rw [whole, List.countP_append]
      dsimp only at supply
      omega

end Passes

/-- What comes of a wait for elements at the beginning of its last pass, with the rounds that it has left:
it has none, or there are elements, or the pass times out, or it is cut off. -/
inductive Ending (bound ring queue signal : Nat) (deadline : Tick) (environment : Environment σ) :
    Nat → World σ → Except Failure Bool → World σ → Prop where
  | spent (world : World σ) :
      Ending bound ring queue signal deadline environment 0 world (.error .exhausted) world
  | filled {rounds : Nat} {world : World σ} (filled : (world.system.rings.get ring).isEmpty = false) :
      Ending bound ring queue signal deadline environment (rounds + 1) world (.ok true) world
  | timedOut {rounds : Nat} {world after : World σ} (empty : (world.system.rings.get ring).isEmpty = true)
      (timedOut : (Alarms.waitUntil bound queue (.shared signal) deadline).run environment world =
        (.ok false, after)) :
      Ending bound ring queue signal deadline environment (rounds + 1) world
        (.ok !(after.system.rings.get ring).isEmpty) after
  | cutOff {rounds : Nat} {world after : World σ} {failure : Failure}
      (empty : (world.system.rings.get ring).isEmpty = true)
      (cutOff : (Alarms.waitUntil bound queue (.shared signal) deadline).run environment world =
        (.error failure, after)) :
      Ending bound ring queue signal deadline environment (rounds + 1) world (.error failure) after

/-- Whatever becomes of a wait for elements, it is over in the pass after some that woke up to a post. -/
theorem waitUntil_ending (bound ring queue signal : Nat) (deadline : Tick) (environment : Environment σ)
    (rounds : Nat) (world : World σ) :
    ∃ passes left last, passes + left = rounds ∧
      Passes bound ring queue signal deadline environment passes world last ∧
      Ending bound ring queue signal deadline environment left last
        ((waitUntil bound ring queue signal deadline rounds).run environment world).1
        ((waitUntil bound ring queue signal deadline rounds).run environment world).2 := by
  induction rounds generalizing world with
  | zero => exact ⟨0, 0, world, rfl, .start world, .spent world⟩
  | succ rounds ih =>
      cases empty : (world.system.rings.get ring).isEmpty with
      | false =>
          rw [waitUntil_run_filled empty]
          exact ⟨0, rounds + 1, world, Nat.zero_add _, .start world, .filled empty⟩
      | true =>
          rw [waitUntil_run_empty empty]
          cases ran : (Alarms.waitUntil bound queue (.shared signal) deadline).run environment world with
          | mk outcome after =>
              match outcome with
              | .error failure =>
                  exact ⟨0, rounds + 1, world, Nat.zero_add _, .start world, .cutOff empty ran⟩
              | .ok false =>
                  exact ⟨0, rounds + 1, world, Nat.zero_add _, .start world, .timedOut empty ran⟩
              | .ok true =>
                  obtain ⟨passes, left, last, rfl, through, ending⟩ := ih after
                  exact ⟨passes + 1, left, last, Nat.succ_add _ _, .pass empty ran through, ending⟩

end TimedWaits.Rings
