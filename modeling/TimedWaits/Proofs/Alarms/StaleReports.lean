import TimedWaits.Proofs.Alarms.Rearming

/-! How long the delay holds that a check reports. A check reads the clock once, and the observers that
it calls may take time. What it reports is counted from its reading, not from the moment at which it
returns. -/

set_option autoImplicit false

namespace TimedWaits

open Activity

/-- A deadline that is ahead is as many ticks away as its distance says. -/
private theorem Tick.toNat_remaining {deadline now : Tick} (ahead : isDue deadline now = false) :
    0 < distance deadline now ∧ ((remaining deadline now).toNat : Int) = distance deadline now := by
  have bound := offset_lt now deadline
  have left : (remaining deadline now).toNat = offset now deadline := by
    rw [remaining, if_neg (by rw [ahead]; exact Bool.false_ne_true)]
    rfl
  rw [isDue, decide_eq_false_iff_not, distance_eq, halfRange] at ahead
  rw [left, distance_eq, halfRange]
  split at ahead <;> split <;> omega

/-- A delay of at least one tick that ends by each deadline left in a queue if it begins now. A deadline
that is due by now counts as one tick ahead. -/
def System.Fits (system : System) (queue : Nat) (delay : Tick) : Prop :=
  ∀ alarm ∈ system.alarms.members queue, delay ≠ 0 ∧ (delay.toNat : Int) ≤
    max 1 (Tick.distance (system.alarms.alarms.get alarm).deadline (system.queueNow queue))

instance (system : System) (queue : Nat) (delay : Tick) : Decidable (system.Fits queue delay) :=
  inferInstanceAs (Decidable (∀ alarm ∈ system.alarms.members queue, _ ∧ _))

/-- What a check tells of a queue when it returns, with the tick at which it read the clock: zero if no
alarm is left, and else the ticks from the reading on to the nearest deadline. -/
structure System.Told (queue : Nat) (reading delay : Tick) (system : System) : Prop
    extends System.Anchored queue reading system where
  empty : system.alarms.members queue = [] ↔ delay = 0
  least : ∀ alarm ∈ system.alarms.members queue,
    (delay.toNat : Int) ≤ Tick.distance (system.alarms.alarms.get alarm).deadline reading
  nearest : ∀ alarm ∈ (system.alarms.members queue).head?,
    Tick.distance (system.alarms.alarms.get alarm).deadline reading = delay.toNat

namespace System

variable {system : System} {queue : Nat} {reading delay : Tick}

/-- Where one window holds a queue and an earlier reading of its clock, what is left until a deadline has
shrunk by the time that went by since the reading. -/
theorem Anchored.distance_deadline (holds : system.Anchored queue reading) {alarm : Nat}
    (queued : alarm ∈ system.alarms.members queue) :
    Tick.distance (system.alarms.alarms.get alarm).deadline (system.queueNow queue) =
      Tick.distance (system.alarms.alarms.get alarm).deadline reading -
        Tick.distance (system.queueNow queue) reading := by
  obtain ⟨base, within, near⟩ := holds.window
  have deadline : Tick.InWindow base (system.alarms.alarms.get alarm).deadline :=
    within.deadlines alarm queued
  have now : Tick.InWindow base (system.queueNow queue) := within.now
  rw [deadline.distance_eq now, deadline.distance_eq near, now.distance_eq near]
  omega

/-- What was told fits if the clock stands where it was read. A delay of one tick fits at any time, and
no other one does once the clock has moved on. -/
private theorem Told.fits_iff (told : system.Told queue reading delay) :
    system.Fits queue delay ↔
      delay.toNat ≤ 1 ∨ Tick.distance (system.queueNow queue) reading ≤ 0 := by
  constructor
  · intro fits
    cases front : (system.alarms.members queue).head? with
    | none =>
        have none := told.empty.mp (List.head?_eq_none_iff.mp front)
        exact .inl (by rw [none]; decide)
    | some alarm =>
        have queued := List.mem_of_head? front
        have short := (fits alarm queued).2
        have whole := told.nearest alarm front
        rw [told.distance_deadline queued] at short
        omega
  · intro still alarm queued
    have some : delay ≠ 0 := fun zero => by
      rw [told.empty.mpr zero] at queued
      cases queued
    have least := told.least alarm queued
    rw [told.distance_deadline queued]
    exact ⟨some, by omega⟩

end System

namespace Alarms

variable {σ : Type} {environment : Environment σ} {world checked : World σ} {queue bound : Nat}
  {delay : Tick}

private theorem toNat_reported_of_ahead {deadline now : Tick} (ahead : Tick.isDue deadline now = false) :
    ((reported now (some deadline)).toNat : Int) = Tick.distance deadline now := by
  obtain ⟨leads, left⟩ := Tick.toNat_remaining ahead
  have positive : 0 < (Tick.remaining deadline now).toNat := by omega
  rw [reported, Tick.max_one positive, left]

/-- A check that returns has told what there is to know from its reading on. -/
theorem check_tells
    (meanwhile : (check bound queue).Meanwhile (anchored queue (world.system.queueNow queue)) environment
      world)
    (holds : world.system.Anchored queue (world.system.queueNow queue))
    (returned : (check bound queue).run environment world = (.ok delay, checked)) :
    checked.system.Told queue (world.system.queueNow queue) delay := by
  obtain ⟨after, rests⟩ := check_rests meanwhile holds returned
  obtain ⟨drained, reports⟩ := check_reports returned
  have nearest : checked.system.alarms.nextDeadline? queue =
      (checked.system.ledger.members queue).head?.map checked.system.ledger.deadline :=
    congrArg (Option.map checked.system.ledger.deadline)
      (LinkedLists.Spells.front?_eq after.threaded queue)
  rw [nearest] at reports
  refine ⟨after, ⟨fun empty => ?_, fun zero => ?_⟩, fun alarm queued => (rests alarm queued).2, ?_⟩
  · change checked.system.ledger.members queue = [] at empty
    rw [reports, empty]
    rfl
  · exact List.eq_nil_iff_forall_not_mem.mpr fun alarm queued => (rests alarm queued).1 zero
  · intro alarm first
    change (checked.system.ledger.members queue).head? = some alarm at first
    have ahead := drain_undue drained after.threaded alarm first
    rw [reports, first]
    exact (toNat_reported_of_ahead ahead).symm

/-- Whenever a round of the loop goes to sleep, it was told by its check how long. -/
private theorem round_sleeps {pace : LoopPace}
    (meanwhile : (round bound queue pace).Meanwhile (anchored queue (world.system.queueNow queue))
      environment world)
    (holds : world.system.Anchored queue (world.system.queueNow queue)) :
    (round bound queue pace).Asks (fun request now => ∀ clock sleep, request = .sleep clock sleep →
      clock = (now.alarms.queues.get queue).clock ∧
        ∃ delay, now.Told queue (world.system.queueNow queue) delay ∧ sleep = pace.sleep delay)
      environment world := by
  obtain ⟨checking, -⟩ := meanwhile_bind.mp meanwhile
  refine .bind ((check_uses bound queue).asks.mono ?_) fun delay checked returned => ?_
  · rintro request now ⟨observer, token, rfl⟩ clock sleep same
    cases same
  · have told := check_tells checking holds returned
    refine .bind trivial fun clock ran read => .request fun other sleep same => ?_
    cases read
    cases same
    exact ⟨rfl, delay, told, rfl⟩

/-- What a check reports is counted from its reading of the clock. In any run whose ticks stay in one window
with that reading, whatever the observers do that a check calls: when the check returns, it reports zero if
and only if no alarm is left, and else the ticks from its reading to the nearest deadline. At that moment
the delay fits the queue, if it is more than one tick, exactly if the clock has not moved on since the
reading. A round of the loop that goes to sleep does so for no longer than such a delay. So it passes no
deadline if the clock has not moved on, and in any case none by more than the time that the check took. -/
theorem delay_fits_iff_prompt {setup : Setup} {queue : Nat} {σ : Type} {world : World σ}
    (run : Leads (windowed queue) setup.system world.system) (environment : Environment σ) (bound : Nat) :
    let reading := world.system.queueNow queue
    (∀ delay checked, (check bound queue).Meanwhile (anchored queue reading) environment world →
      (check bound queue).run environment world = (.ok delay, checked) →
      checked.system.Told queue reading delay ∧
        (checked.system.Fits queue delay ↔
          delay.toNat ≤ 1 ∨ Tick.distance (checked.system.queueNow queue) reading ≤ 0)) ∧
    ∀ pace, (round bound queue pace).Meanwhile (anchored queue reading) environment world →
      (round bound queue pace).Asks (fun request now => ∀ clock sleep, request = .sleep clock sleep →
        clock = (now.alarms.queues.get queue).clock ∧
          ∀ alarm ∈ now.alarms.members queue, sleep ≠ 0 ∧ (sleep.toNat : Int) ≤
            Tick.distance (now.alarms.alarms.get alarm).deadline (now.queueNow queue) +
              Tick.distance (now.queueNow queue) reading) environment world := by
  obtain ⟨threaded, sound, ordered, base, within⟩ := run.ordered setup.threaded setup.sound
    (setup.ordered queue) ⟨_, setup.within queue⟩
  intro reading
  have holds : world.system.Anchored queue reading := ⟨threaded, sound, ordered, base, within, within.now⟩
  constructor
  · intro delay checked meanwhile returned
    have told := check_tells meanwhile holds returned
    exact ⟨told, told.fits_iff⟩
  · intro pace meanwhile
    refine (round_sleeps meanwhile holds).mono fun request now sleeps clock sleep same => ?_
    obtain ⟨own, delay, told, rfl⟩ := sleeps clock sleep same
    refine ⟨own, fun alarm queued => ⟨pace.sleep_ne_zero delay, ?_⟩⟩
    have some : delay ≠ 0 := fun zero => by
      rw [told.empty.mpr zero] at queued
      cases queued
    have short := pace.toNat_sleep_le some
    have least := told.least alarm queued
    have shrunk := told.distance_deadline queued
    change _ ≤ _ + Tick.distance _ (world.system.queueNow queue)
    omega

/-- Strides that observers make as long as one window holds a queue and a further tick after each. -/
def strideWithin (queue : Nat) (base anchor : Tick) (system : System) : List Command → System
  | [] => system
  | command :: rest =>
    let next := (command.apply system).2
    if Tick.InWindow base (next.queueNow queue) ∧ Tick.InWindow base anchor ∧
        ∀ alarm ∈ next.alarms.members queue, Tick.InWindow base (next.alarms.alarms.get alarm).deadline then
      strideWithin queue base anchor (system.stride command) rest
    else system

/-- Observers that make the same strides whenever they are called. -/
def habitually (queue : Nat) (base anchor : Tick) (commands : List Command) : Environment Unit :=
  fun request world =>
    (.ok (), { world with system := strideWithin queue base anchor (request.begin world.system) commands })

private theorem reaches_strideWithin {base anchor : Tick} {commands : List Command}
    (proper : ∀ command ∈ commands, ∀ ledger : Ledger, ledger.Proper command) (system : System) :
    Reaches (anchored queue anchor) system (strideWithin queue base anchor system commands) := by
  induction commands generalizing system with
  | nil => exact .refl system
  | cons command rest ih =>
      have later := ih fun other member => proper other (List.mem_cons_of_mem command member)
      rw [strideWithin]
      split
      · next within =>
        obtain ⟨now, near, deadlines⟩ := within
        have allowed : anchored queue anchor system command :=
          ⟨proper command List.mem_cons_self _, base, ⟨now, deadlines⟩, near⟩
        exact (Reaches.single command allowed).trans (later _)
      · exact .refl system

theorem habitually_meanwhile {α : Type} {base anchor : Tick} {commands : List Command}
    (proper : ∀ command ∈ commands, ∀ ledger : Ledger, ledger.Proper command) (activity : Activity α)
    (world : World Unit) :
    activity.Meanwhile (anchored queue anchor) (habitually queue base anchor commands) world :=
  .of_answers fun _ _ => reaches_strideWithin proper _

/-- The ticks wrap between the reading and the deadlines. An observer takes the second alarm off, which
was the nearest of those left, while the clock stands still. -/
theorem delay_past_wrap_fits :
    let setup : Setup := { clocks := [4294967290], signals := [.host], queues := [{}] }
    let system := setup.system.applyAll [.attach 0 (.custom 0) 7,
      .createAlarm 0 (.shared 0) 4294967290 true, .createAlarm 0 (.shared 0) 4294967295 true,
      .createAlarm 0 (.shared 0) 8 true, .insertAlarm 0 0, .insertAlarm 0 1, .insertAlarm 0 2]
    let environment := habitually 0 4294967290 4294967290 [.withdrawAlarm 0 1]
    let world : World Unit := { system, outside := () }
    let checked := ((check 3 0).run environment world).2
    Leads (windowed 0) setup.system system ∧
      (check 3 0).Meanwhile (anchored 0 (world.system.queueNow 0)) environment world ∧
      (check 3 0).run environment world = (.ok 14, checked) ∧
      checked.system.alarms.members 0 = [2] ∧ checked.system.queueNow 0 = 4294967290 ∧
      checked.system.Told 0 (world.system.queueNow 0) 14 ∧ checked.system.Fits 0 14 := by
  intro setup system environment world checked
  have run : Leads (windowed 0) setup.system system := by
    refine Leads.applyAll ⟨⟨trivial, 4294967290, ?_⟩, ⟨trivial, 4294967290, ?_⟩,
      ⟨trivial, 4294967290, ?_⟩, ⟨trivial, 4294967290, ?_⟩, ⟨⟨?_, ?_⟩, 4294967290, ?_⟩,
      ⟨⟨?_, ?_⟩, 4294967290, ?_⟩, ⟨⟨?_, ?_⟩, 4294967290, ?_⟩, trivial⟩
    all_goals first | decide | exact ⟨by decide, by decide⟩
  have reading : world.system.queueNow 0 = 4294967290 := by decide +kernel
  have reported : ((check 3 0).run environment world).1 = .ok 14 := by decide +kernel
  have left : checked.system.alarms.members 0 = [2] := by decide +kernel
  have still : checked.system.queueNow 0 = 4294967290 := by decide +kernel
  clear_value system
  have returned : (check 3 0).run environment world = (.ok 14, checked) := Prod.ext reported rfl
  clear_value checked
  have meanwhile : (check 3 0).Meanwhile (anchored 0 (world.system.queueNow 0)) environment world := by
    rw [reading]
    exact habitually_meanwhile (by simp [Ledger.Proper]) _ _
  obtain ⟨told, fits⟩ := (delay_fits_iff_prompt run environment 3).1 14 checked meanwhile returned
  have prompt : Tick.distance (checked.system.queueNow 0) (world.system.queueNow 0) ≤ 0 := by
    rw [still, reading]
    decide
  exact ⟨run, meanwhile, returned, left, still, told, fits.mpr (.inr prompt)⟩

/-- An observer that is called by the check takes five ticks. The check reports the nine ticks from its
reading to the deadline that is left, of which four are left when it returns. -/
theorem slow_observer_outdates_delay :
    let setup : Setup := { clocks := [0], signals := [.host], queues := [{}] }
    let system := setup.system.applyAll [.attach 0 (.custom 0) 7, .createAlarm 0 (.shared 0) 1 true,
      .createAlarm 0 (.shared 0) 10 true, .insertAlarm 0 0, .insertAlarm 0 1, .advance 0 1]
    let environment := habitually 0 0 1 [.advance 0 5]
    let world : World Unit := { system, outside := () }
    let checked := ((check 3 0).run environment world).2
    Leads (windowed 0) setup.system system ∧
      (check 3 0).Meanwhile (anchored 0 (world.system.queueNow 0)) environment world ∧
      (check 3 0).run environment world = (.ok 9, checked) ∧
      checked.system.alarms.nextDeadline? 0 = some 10 ∧ checked.system.queueNow 0 = 6 ∧
      ¬ checked.system.Fits 0 9 := by
  intro setup system environment world checked
  have run : Leads (windowed 0) setup.system system := by
    refine Leads.applyAll ⟨⟨trivial, 0, ?_⟩, ⟨trivial, 0, ?_⟩, ⟨trivial, 0, ?_⟩,
      ⟨⟨?_, ?_⟩, 0, ?_⟩, ⟨⟨?_, ?_⟩, 0, ?_⟩, ⟨trivial, 0, ?_⟩, trivial⟩
    all_goals first | decide | exact ⟨by decide, by decide⟩
  have reading : world.system.queueNow 0 = 1 := by decide +kernel
  have reported : ((check 3 0).run environment world).1 = .ok 9 := by decide +kernel
  have left : checked.system.alarms.nextDeadline? 0 = some 10 := by decide +kernel
  have late : checked.system.queueNow 0 = 6 := by decide +kernel
  have outdated : ¬ checked.system.Fits 0 9 := by decide +kernel
  clear_value system
  have returned : (check 3 0).run environment world = (.ok 9, checked) := Prod.ext reported rfl
  clear_value checked
  have meanwhile : (check 3 0).Meanwhile (anchored 0 (world.system.queueNow 0)) environment world := by
    rw [reading]
    exact habitually_meanwhile (by simp [Ledger.Proper]) _ _
  exact ⟨run, meanwhile, returned, left, late, outdated⟩

end Alarms

end TimedWaits
