import Mathlib.Data.List.MinMax
import TimedWaits.Proofs.Alarms.Order

/-! Relative delays on a queue. Every deadline lies within half the range of the tick at which its
alarm entered, but an alarm that is overdue by then and one with a long delay can lie too far apart
to be compared. Runs in which all members can be compared keep to windows. -/

set_option autoImplicit false

namespace TimedWaits

namespace Ledger

/-- The ticks until the deadline of an alarm by the clock of a queue, negative once it is overdue. -/
def lead (ledger : Ledger) (queue alarm : Nat) : Int :=
  Tick.distance (ledger.deadline alarm) (ledger.now queue)

/-- The deadline of an alarm lies less than half the range behind that of every member of a queue. -/
def Comparable (ledger : Ledger) (queue alarm : Nat) : Prop :=
  ∀ member ∈ ledger.members queue,
    ledger.lead queue alarm - ledger.lead queue member < 2147483648

instance (ledger : Ledger) (queue alarm : Nat) : Decidable (ledger.Comparable queue alarm) :=
  inferInstanceAs (Decidable (∀ member ∈ _, _ < _))

/-- No member of a queue gets overdue by half the range while a delay passes. -/
def Endures (ledger : Ledger) (queue : Nat) (delay : Tick) : Prop :=
  ∀ member ∈ ledger.members queue, -2147483648 < ledger.lead queue member - delay.toNat

instance (ledger : Ledger) (queue : Nat) (delay : Tick) : Decidable (ledger.Endures queue delay) :=
  inferInstanceAs (Decidable (∀ member ∈ _, _ < _))

/-- What a relative delay and a clock that only moves forward allow on one queue: the deadline of an
alarm that enters is that of a delay from the current tick, and no member gets overdue by half the
range. -/
def Timely (ledger : Ledger) (queue : Nat) : Command → Prop
  | .insertAlarm other alarm => other = queue → alarm ∉ ledger.members queue →
      ∃ delay, ledger.deadline alarm = Tick.deadlineAfter (ledger.now queue) delay
  | .setClock clock tick => clock = ledger.clockOf queue →
      ledger.Endures queue (tick - ledger.now queue)
  | .advance clock delay => clock = ledger.clockOf queue → ledger.Endures queue delay
  | _ => True

/-- The alarms that enter a queue can be compared with all its members. -/
def Careful (ledger : Ledger) (queue : Nat) : Command → Prop
  | .insertAlarm other alarm => other = queue → alarm ∉ ledger.members queue →
      ledger.Comparable queue alarm
  | _ => True

/-- No member of a queue is overdue by half the range, and all can be compared. -/
structure Close (ledger : Ledger) (queue : Nat) : Prop where
  recent : ∀ member ∈ ledger.members queue, -2147483648 < ledger.lead queue member
  comparable : ∀ member ∈ ledger.members queue, ledger.Comparable queue member

variable {ledger next : Ledger} {queue alarm : Nat} {command : Command}

/-- The current tick and the deadlines of a queue lie less than half the range apart. -/
private theorem Close.spread (close : ledger.Close queue) {first second : Tick}
    (amongFirst : first ∈ ledger.now queue :: (ledger.members queue).map ledger.deadline)
    (amongSecond : second ∈ ledger.now queue :: (ledger.members queue).map ledger.deadline) :
    Tick.distance first (ledger.now queue) - Tick.distance second (ledger.now queue) <
      2147483648 := by
  have bounds := Tick.distance_bounds first (ledger.now queue)
  rcases List.mem_cons.mp amongSecond with rfl | amongSecond
  · rw [Tick.distance_self]
    omega
  · obtain ⟨later, queuedLater, rfl⟩ := List.mem_map.mp amongSecond
    rcases List.mem_cons.mp amongFirst with rfl | amongFirst
    · have recent := close.recent later queuedLater
      rw [lead] at recent
      rw [Tick.distance_self]
      omega
    · obtain ⟨earlier, queuedEarlier, rfl⟩ := List.mem_map.mp amongFirst
      exact close.comparable earlier queuedEarlier later queuedLater

/-- Members that can be compared lie in one window together with the current tick: it begins at the
earliest of these ticks. -/
theorem Close.within (close : ledger.Close queue) : ∃ base, ledger.Within queue base := by
  let ticks := ledger.now queue :: (ledger.members queue).map ledger.deadline
  obtain ⟨base, earliest⟩ :
      ∃ base, base ∈ List.argmin (Tick.distance · (ledger.now queue)) ticks := by
    cases first : List.argmin (Tick.distance · (ledger.now queue)) ticks with
    | none => exact absurd (List.argmin_eq_none.mp first) (List.cons_ne_nil _ _)
    | some base => exact ⟨base, rfl⟩
  have inside : ∀ tick ∈ ticks, Tick.InWindow base tick := by
    intro tick among
    have order := List.le_of_mem_argmin among earliest
    have offset := Tick.offset_of_distances tick base (ledger.now queue) order
    have near := close.spread among (List.argmin_mem earliest)
    rw [Tick.InWindow, Tick.halfRange]
    omega
  exact ⟨base, inside _ List.mem_cons_self, fun alarm queued =>
    inside _ (List.mem_cons_of_mem _ (List.mem_map_of_mem queued))⟩

private theorem Close.of_agree (close : ledger.Close queue)
    (fewer : ∀ member ∈ next.members queue, member ∈ ledger.members queue)
    (lead : ∀ member ∈ ledger.members queue,
      next.lead queue member = ledger.lead queue member) : next.Close queue := by
  refine ⟨?_, ?_⟩
  · intro member queued
    rw [lead member (fewer member queued)]
    exact close.recent member (fewer member queued)
  · intro first queuedFirst second queuedSecond
    rw [lead first (fewer first queuedFirst), lead second (fewer second queuedSecond)]
    exact close.comparable first (fewer first queuedFirst) second (fewer second queuedSecond)

theorem lead_deadlineAfter {delay : Tick}
    (timely : ledger.deadline alarm = Tick.deadlineAfter (ledger.now queue) delay) :
    ledger.lead queue alarm = min delay.toNat 2147483647 := by
  rw [lead, timely, Tick.distance_deadlineAfter]

private theorem Close.insert {delay : Tick} (close : ledger.Close queue)
    (timely : ledger.deadline alarm = Tick.deadlineAfter (ledger.now queue) delay)
    (comparable : ledger.Comparable queue alarm) : (ledger.insert queue alarm).Close queue := by
  have ahead := lead_deadlineAfter timely
  have same : ∀ member,
      (ledger.insert queue alarm).lead queue member = ledger.lead queue member := fun _ => rfl
  have bounds : ∀ member, ledger.lead queue member < 2147483648 := fun member =>
    (Tick.distance_bounds (ledger.deadline member) (ledger.now queue)).2
  refine ⟨?_, ?_⟩
  · intro member queued
    rw [same]
    rcases mem_insert.mp queued with rfl | former
    · omega
    · exact close.recent member former
  · intro first queuedFirst second queuedSecond
    rw [same, same]
    have bound := bounds first
    rcases mem_insert.mp queuedSecond with rfl | formerSecond
    · omega
    · rcases mem_insert.mp queuedFirst with rfl | formerFirst
      · exact comparable second formerSecond
      · exact close.comparable first formerFirst second formerSecond

private theorem Step.now (step : ledger.Step command next) (queue : Nat) :
    next.now queue = ledger.now queue ∨
      ∃ delay, next = ledger.setClock (ledger.clockOf queue) (Tick.after (ledger.now queue) delay) ∧
        (ledger.Timely queue command → ledger.Endures queue delay) := by
  cases step with
  | setClock clock tick =>
      by_cases own : clock = ledger.clockOf queue
      · subst own
        refine .inr ⟨tick - ledger.now queue, ?_, fun timely => timely rfl⟩
        rw [Tick.after_sub]
      · exact .inl (Function.update_of_ne (Ne.symm own) _ _)
  | advance clock delay =>
      by_cases own : clock = ledger.clockOf queue
      · subst own
        exact .inr ⟨delay, rfl, fun timely => timely rfl⟩
      · exact .inl (Function.update_of_ne (Ne.symm own) _ _)
  | _ => exact .inl rfl

/-- Time that passes brings the members of a queue no further apart. -/
private theorem Close.pass {delay : Tick} (close : ledger.Close queue)
    (endures : ledger.Endures queue delay) :
    (ledger.setClock (ledger.clockOf queue)
      (Tick.after (ledger.now queue) delay)).Close queue := by
  have now : (ledger.setClock (ledger.clockOf queue) (Tick.after (ledger.now queue) delay)).now
      queue = Tick.after (ledger.now queue) delay := Function.update_self _ _ _
  have shrinks : ∀ member ∈ ledger.members queue,
      (ledger.setClock (ledger.clockOf queue) (Tick.after (ledger.now queue) delay)).lead queue
        member = ledger.lead queue member - delay.toNat := by
    intro member queued
    have near := endures member queued
    rw [lead] at near
    rw [lead, now, lead]
    exact Tick.distance_after (Int.le_of_lt near)
  refine ⟨?_, ?_⟩
  · intro member queued
    rw [shrinks member queued]
    exact endures member queued
  · intro first queuedFirst second queuedSecond
    have comparable := close.comparable first queuedFirst second queuedSecond
    rw [shrinks first queuedFirst, shrinks second queuedSecond]
    omega

private theorem Close.step (close : ledger.Close queue) (sound : ledger.Sound)
    (step : ledger.Step command next) (timely : ledger.Timely queue command)
    (careful : ledger.Careful queue command) : next.Close queue := by
  have extend := step.extends
  rcases step.members queue with fewer | ⟨alarm, rfl, rfl, loose⟩
  · rcases step.now queue with same | ⟨delay, rfl, endures⟩
    · refine close.of_agree (fun member queued => fewer.subset queued) fun member queued => ?_
      rw [lead, same, extend.deadline member (sound.stored queue member queued), lead]
    · exact close.pass (endures timely)
  · obtain ⟨delay, deadline⟩ := timely rfl (loose queue)
    exact close.insert deadline (careful rfl (loose queue))

end Ledger

/-- Proper commands that a relative delay and a clock that only moves forward allow on a queue. -/
def timely (queue : Nat) : Permit := fun ledger command _ =>
  ledger.Proper command ∧ ledger.Timely queue command

/-- Such commands, as long as alarms that enter the queue can be compared with its members. -/
def careful (queue : Nat) : Permit := fun ledger command next =>
  timely queue ledger command next ∧ ledger.Careful queue command

theorem Leads.sound {queue : Nat} {first last : System} (leads : Leads (timely queue) first last)
    (threaded : first.Threaded) (sound : first.ledger.Sound) :
    last.Threaded ∧ last.ledger.Sound :=
  leads.preserves threaded sound fun sound step permitted => sound.step step permitted.1

theorem Leads.windowed_of_careful {queue : Nat} {first last : System}
    (leads : Leads (careful queue) first last) (threaded : first.Threaded)
    (sound : first.ledger.Sound) (close : first.ledger.Close queue) :
    Leads (windowed queue) first last ∧
      last.Threaded ∧ last.ledger.Sound ∧ last.ledger.Close queue := by
  induction leads with
  | refl => exact ⟨.refl first, threaded, sound, close⟩
  | @apply last command _ permitted ih =>
      obtain ⟨before, threaded, sound, close⟩ := ih
      obtain ⟨⟨proper, timely⟩, careful⟩ := permitted
      obtain ⟨step, kept⟩ := command.step_apply threaded
      have closer := close.step sound step timely careful
      exact ⟨before.apply ⟨proper, closer.within⟩, kept, sound.step step proper, closer⟩
  | note _ report ih =>
      obtain ⟨before, kept⟩ := ih
      refine ⟨before.note report, ?_⟩
      rw [System.Threaded, System.ledger, System.timing_record report]
      exact kept

end TimedWaits
