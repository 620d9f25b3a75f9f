import TimedWaits.Proofs.Alarms.Ownership
import TimedWaits.Proofs.Alarms.WaitBalance
import TimedWaits.Proofs.Runs.Requests
import TimedWaits.Proofs.Signals.Supply

/-! A timed wait taken apart. Others act only between the entry of its alarm and the moment at which it
finds a post; what comes before and after is one atomic change each. -/

set_option autoImplicit false

namespace TimedWaits

open Activity

namespace Activity

variable {σ α : Type} {environment : Environment σ}

theorem spared_upon (activity : Activity α) (world : World σ) (own : List Nat) :
    (activity.upon world.system).Spared environment own world ↔
    activity.Spared environment own world := by
  induction activity with
  | look _ ih => exact ih _
  | _ => rfl

end Activity

/-- The world in which a wait has just made its alarm. -/
def World.withAlarm {σ : Type} (world : World σ) (queue signal : Nat) (deadline : Tick) : World σ :=
  { world with system := Alarms.made queue signal deadline world.system }

theorem World.apply_createAlarm {σ : Type} (world : World σ) (queue signal : Nat) (deadline : Tick) :
    world.apply (.createAlarm queue (.shared signal) deadline false) =
      (world.system.ledger.count, world.withAlarm queue signal deadline) := rfl

namespace Alarms

variable {σ : Type} {environment : Environment σ} {conduct : Conduct} {world ready after : World σ}
  {bound queue signal : Nat} {deadline : Tick} {own : List Nat}
  {woken : Bool} {failure : Failure}

/-- The part of a wait in which others act: its alarm is added, and then it waits for a post. -/
def awaiting (bound queue signal alarm : Nat) : Activity Unit := do
  discard <| add queue alarm
  (SignalRef.shared signal).awaitPost bound

/-- What a wait does once there is a post: it takes that and withdraws its alarm. -/
def concluding (queue signal alarm : Nat) : Activity Bool :=
  .act (.take (.shared signal)) fun _ => .perform (.withdrawAlarm queue alarm)

def conclude (queue signal alarm : Nat) (system : System) : Bool × System :=
  (system.take (.shared signal)).2.withdrawAlarm queue alarm

theorem awaiting_uses (bound queue signal alarm : Nat) :
    (awaiting bound queue signal alarm).Uses
      (fun command => command = .insertAlarm queue alarm ∨ command.IsLog) Request.IsPause := by
  have adds : (add queue alarm).Uses (fun command => command = .insertAlarm queue alarm ∨ command.IsLog) _ :=
    add_uses queue alarm (.inl rfl) fun _ => .inr trivial
  refine .bind (.discard (adds.weaken ?_)) fun _ => .awaitPost _ bound trivial
  rintro request ⟨target, delay, rfl⟩
  trivial

/-- A wait blocks only on its signal, and only while that has no post. -/
theorem awaiting_asks (bound queue signal alarm : Nat) :
    (awaiting bound queue signal alarm).Asks (fun request now => ∀ reference, request = .idle reference →
      reference = .shared signal ∧ now.pending signal = 0) environment world := by
  have adds : (add queue alarm).Uses (fun _ => True) _ := add_uses queue alarm trivial fun _ => trivial
  refine .bind (adds.discard.asks.mono ?_) fun _ _ _ => ((SignalRef.awaitPost_asks _ bound).mono ?_)
  · rintro request now ⟨target, delay, rfl⟩ reference same
    cases same
  · rintro request now ⟨rfl, none⟩ reference same
    cases same
    exact ⟨rfl, none⟩

theorem blockedWait_eq (bound queue signal alarm : Nat) :
    blockedWait bound queue signal alarm = awaiting bound queue signal alarm >>= fun _ =>
      concluding queue signal alarm := by
  simp only [blockedWait, SignalRef.wait, awaiting, bind_assoc]
  rfl

theorem takes_apply (signal : Nat) (command : Command) (other : command ≠ .take (.shared signal))
    (world : World σ) :
    ((world.apply command).2.system.since world.system).countP (Occurrence.isTake (.shared signal)) = 0 :=
  takes_since signal command other world.system

private theorem awaiting_takes (bound queue signal alarm : Nat) :
    ((awaiting bound queue signal alarm).occurrences .call environment world).countP
      (Occurrence.isTake (.shared signal)) = 0 := by
  refine (awaiting_uses bound queue signal alarm).occurrences_call ?_ ?_
  · intro system command allowed
    refine takes_since signal command ?_ system
    rcases allowed with rfl | log
    · exact nofun
    · exact log.ne_take signal
  · intro system request pause
    exact request.countP_since (by cases request <;> rfl) (fun _ => rfl) system

private theorem concluding_takes (some : world.system.pending signal ≠ 0) (queue alarm : Nat) :
    ((concluding queue signal alarm).occurrences .call environment world).countP
      (Occurrence.isTake (.shared signal)) = 1 := by
  obtain ⟨last, applied, -, history⟩ := System.take_of_pending some
  have one : ((world.apply (.take (.shared signal))).2.system.since world.system).countP
      (Occurrence.isTake (.shared signal)) = 1 := by
    change ((world.system.take (.shared signal)).2.since world.system).countP _ = 1
    rw [applied, @System.since_eq _ _ [.took (.shared signal)] history]
    simp [Occurrence.isTake]
  have none := takes_apply signal (.withdrawAlarm queue alarm) (by rintro ⟨⟩) (world.apply (.take (.shared signal))).2
  simp only [concluding, occurrences, perform, List.countP_append, List.countP_nil, one, none]

/-- A wait that was woken up had its deadline ahead. -/
theorem ahead_of_woken (returned : (waitUntil bound queue (.shared signal) deadline).run environment world =
    (.ok true, after)) : Tick.isDue deadline (world.system.queueNow queue) = false := by
  cases due : Tick.isDue deadline (world.system.queueNow queue) with
  | false => rfl
  | true =>
      rw [waitUntil_eq, run, if_pos due] at returned
      cases returned

section Ahead

variable (ahead : Tick.isDue deadline (world.system.queueNow queue) = false)

include ahead

theorem waitUntil_upon (bound signal : Nat) :
    (waitUntil bound queue (.shared signal) deadline).upon world.system =
      .act (.createAlarm queue (.shared signal) deadline false) fun alarm =>
        (blockedWait bound queue signal alarm).ensuring (.dropAlarm alarm) := by
  rw [waitUntil_eq, upon, ahead, if_neg Bool.false_ne_true]
  rfl

theorem waitUntil_run (bound signal : Nat) :
    (waitUntil bound queue (.shared signal) deadline).run environment world =
      ((blockedWait bound queue signal world.system.ledger.count).ensuring
        (.dropAlarm world.system.ledger.count)).run environment (world.withAlarm queue signal deadline) := by
  rw [← run_upon, waitUntil_upon ahead, run, World.apply_createAlarm]

theorem waitUntil_run_ok
    (posted : (awaiting bound queue signal world.system.ledger.count).run environment
      (world.withAlarm queue signal deadline) = (.ok (), ready)) :
    let ended := conclude queue signal world.system.ledger.count ready.system
    (waitUntil bound queue (.shared signal) deadline).run environment world =
      (.ok ended.1, { ready with system := ended.2.dropAlarm world.system.ledger.count }) := by
  rw [waitUntil_run ahead, run_ensuring, blockedWait_eq, run_bind, posted]
  rfl

theorem waitUntil_run_error
    (stuck : (awaiting bound queue signal world.system.ledger.count).run environment
      (world.withAlarm queue signal deadline) = (.error failure, ready)) :
    (waitUntil bound queue (.shared signal) deadline).run environment world =
      (.error failure, { ready with system := ready.system.dropAlarm world.system.ledger.count }) := by
  rw [waitUntil_run ahead, run_ensuring, blockedWait_eq, run_bind, stuck]
  rfl

/-- A wait that returns found a post. -/
theorem waitUntil_returned
    (returned : (waitUntil bound queue (.shared signal) deadline).run environment world =
      (.ok woken, after)) :
    ∃ ready, (awaiting bound queue signal world.system.ledger.count).run environment
        (world.withAlarm queue signal deadline) = (.ok (), ready) ∧ ready.system.pending signal ≠ 0 ∧
      let ended := conclude queue signal world.system.ledger.count ready.system
      woken = ended.1 ∧ after = { ready with system := ended.2.dropAlarm world.system.ledger.count } := by
  cases posted : (awaiting bound queue signal world.system.ledger.count).run environment
      (world.withAlarm queue signal deadline) with
  | mk outcome ready =>
      cases outcome with
      | error failure =>
          rw [waitUntil_run_error ahead posted] at returned
          cases returned
      | ok =>
          obtain ⟨_, added, -, waited⟩ := run_bind_ok posted
          rw [waitUntil_run_ok ahead posted] at returned
          cases returned
          exact ⟨ready, rfl, SignalRef.awaitPost_ok waited, rfl, rfl⟩

theorem waitUntil_meanwhile
    (meanwhile : (waitUntil bound queue (.shared signal) deadline).Meanwhile conduct environment world) :
    (awaiting bound queue signal world.system.ledger.count).Meanwhile conduct environment
      (world.withAlarm queue signal deadline) := by
  rw [← meanwhile_upon, waitUntil_upon ahead, Meanwhile, World.apply_createAlarm] at meanwhile
  have blocked := meanwhile_ensuring.mp meanwhile
  rw [blockedWait_eq] at blocked
  exact (meanwhile_bind.mp blocked).1

/-- Others spare the alarm of a wait, with those that were to be spared before. -/
theorem waitUntil_spared
    (spared : (waitUntil bound queue (.shared signal) deadline).Spared environment own world) :
    (awaiting bound queue signal world.system.ledger.count).Meanwhile
      (considerate (· ∈ own ++ [world.system.ledger.count])) environment
      (world.withAlarm queue signal deadline) := by
  rw [← spared_upon, waitUntil_upon ahead, Spared, World.apply_createAlarm] at spared
  have blocked := spared_ensuring.mp spared
  rw [blockedWait_eq] at blocked
  refine (spared_bind.mp blocked).1.meanwhile (awaiting_uses bound queue signal _) ?_
  intro command allowed reply
  cases command with
  | createAlarm => exact (allowed.elim (fun same => nomatch same) False.elim)
  | _ => rfl

theorem waitUntil_asks {condition : Request → System → Prop}
    (asks : (awaiting bound queue signal world.system.ledger.count).Asks condition environment
      (world.withAlarm queue signal deadline)) :
    (waitUntil bound queue (.shared signal) deadline).Asks condition environment world := by
  rw [← asks_upon, waitUntil_upon ahead, Asks, World.apply_createAlarm]
  refine Asks.ensuring ?_
  rw [blockedWait_eq]
  exact asks.bind fun _ _ _ => trivial

/-- A wait that returns took one post. -/
theorem waitUntil_takes
    (returned : (waitUntil bound queue (.shared signal) deadline).run environment world =
      (.ok woken, after)) :
    ((waitUntil bound queue (.shared signal) deadline).occurrences .call environment world).countP
      (Occurrence.isTake (.shared signal)) = 1 := by
  obtain ⟨ready, posted, some, -⟩ := waitUntil_returned ahead returned
  let alarm := world.system.ledger.count
  let made := world.withAlarm queue signal deadline
  have created := takes_apply signal (.createAlarm queue (.shared signal) deadline false) nofun world
  have waited : ((blockedWait bound queue signal alarm).occurrences .call environment made).countP
      (Occurrence.isTake (.shared signal)) = 1 := by
    rw [blockedWait_eq, occurrences_bind, posted, List.countP_append, awaiting_takes,
      concluding_takes some]
  have whole : (((blockedWait bound queue signal alarm).ensuring (.dropAlarm alarm)).occurrences .call
      environment made).countP (Occurrence.isTake (.shared signal)) = 1 := by
    rw [occurrences_ensuring, List.countP_append, waited]
    exact congrArg (· + 1) (takes_apply signal (.dropAlarm alarm) nofun _)
  rw [← occurrences_upon, waitUntil_upon ahead, occurrences, World.apply_createAlarm, List.countP_append,
    whole]
  exact congrArg (1 + ·) created

end Ahead

/-! ### The alarm of a wait -/

section Own

variable {mine : Nat → Prop} (threaded : world.system.Threaded) (sound : world.system.ledger.Sound)

include threaded sound

/-- Whatever becomes of the wait for a post, the alarm of the wait is in its queue until it fires. -/
theorem awaiting_tracked (own : mine world.system.ledger.count)
    (meanwhile : (awaiting bound queue signal world.system.ledger.count).Meanwhile (considerate mine)
      environment (world.withAlarm queue signal deadline)) :
    Tracked world.system.ledger.count queue deadline world.system
      ((awaiting bound queue signal world.system.ledger.count).run environment
        (world.withAlarm queue signal deadline)).2.system := by
  obtain ⟨during, onward⟩ := meanwhile_bind.mp meanwhile
  obtain ⟨adding, -⟩ := meanwhile_bind.mp during
  have tracked := add_tracked threaded sound own rfl adding
  have same := run_discard environment (add queue world.system.ledger.count)
    (world.withAlarm queue signal deadline)
  rw [awaiting, run_bind]
  cases added : (add queue world.system.ledger.count).run environment
      (world.withAlarm queue signal deadline) with
  | mk outcome ran =>
      rw [added] at same tracked
      rw [same]
      cases outcome with
      | error failure => exact tracked
      | ok first =>
          have uses : ((SignalRef.shared signal).awaitPost bound).Uses (fun _ => False) fun _ => True :=
            .awaitPost _ bound trivial
          exact tracked.uses own uses (fun _ impossible => impossible.elim) (onward () ran same)

theorem waitUntil_ended (ahead : Tick.isDue deadline (world.system.queueNow queue) = false)
    (spared : (waitUntil bound queue (.shared signal) deadline).Spared environment own world)
    (returned : (waitUntil bound queue (.shared signal) deadline).run environment world =
      (.ok woken, after)) :
    Ended world.system.ledger.count queue deadline world.system woken after.system := by
  obtain ⟨ready, posted, -, rfl, rfl⟩ := waitUntil_returned ahead returned
  have tracked := awaiting_tracked threaded sound (List.mem_append_right own List.mem_cons_self)
    (waitUntil_spared ahead spared)
  rw [posted] at tracked
  have taken : Tracked _ queue deadline world.system (ready.system.take (.shared signal)).2 :=
    tracked.apply (.take (.shared signal)) trivial not_false
  exact @Ended.apply _ _ _ _ _ _ taken.ended (.dropAlarm _) not_false trivial

end Own

end Alarms

end TimedWaits
