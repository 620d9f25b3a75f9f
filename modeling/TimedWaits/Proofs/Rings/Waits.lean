import TimedWaits.Proofs.Alarms.Loops
import TimedWaits.Proofs.Alarms.Passages
import TimedWaits.Proofs.Rings.Heralds

/-! Waits for the elements of a ring. A wait tells whether the ring has elements, blocks only while it
has none, and gives up only once its deadline was reached on the clock of its queue. -/

set_option autoImplicit false

namespace TimedWaits

open Activity

namespace Alarms

variable {alarm queue signal bound : Nat} {deadline : Tick} {start system last : System}
  {reads : Nat → Tick → Prop} {conduct : Conduct}

/-! ### The tick of a firing -/

/-- Others put alarms into their own queues only, and fire alarms only at ticks that are told. -/
def reading (reads : Nat → Tick → Prop) : Conduct := fun system command =>
  system.ledger.Proper command ∧ ∀ queue now, command = .fireFirst queue now → reads queue now

/-- Since a given moment an alarm of a queue was fired only at ticks that are told for the queue. -/
structure FiredAsRead (reads : Nat → Tick → Prop) (alarm queue : Nat) (start system : System) : Prop where
  threaded : system.Threaded
  sound : system.ledger.Sound
  exist : alarm < system.ledger.count
  belongs : (system.ledger.alarm alarm).queue = queue
  continues : system.Continues start
  fired : ∀ tick, .fired alarm tick ∈ system.since start → reads queue tick

namespace FiredAsRead

theorem of_fired {tick : Tick} (threaded : system.Threaded) (command : Command)
    (fired : .fired alarm tick ∈ (command.apply system).2.since system) :
    ∃ queue, command = .fireFirst queue tick ∧ alarm ∈ system.ledger.members queue :=
  (command.passes threaded).of_fired (List.mem_filter.mpr ⟨fired, rfl⟩)

theorem apply (asRead : FiredAsRead reads alarm queue start system) (command : Command)
    (allowed : reading reads system command) :
    FiredAsRead reads alarm queue start (command.apply system).2 := by
  obtain ⟨proper, told⟩ := allowed
  obtain ⟨step, kept⟩ := command.step_apply asRead.threaded
  have onward := (System.Continues.refl system).apply command
  refine ⟨kept, asRead.sound.step step proper, Nat.lt_of_lt_of_le asRead.exist step.extends.count,
    (step.extends.queue alarm asRead.exist).trans asRead.belongs, asRead.continues.trans onward, ?_⟩
  intro tick fired
  rw [asRead.continues.since_trans onward] at fired
  rcases List.mem_append.mp fired with now | before
  · obtain ⟨other, same, member⟩ := of_fired asRead.threaded command now
    have home : queue = other := asRead.belongs.symm.trans (asRead.sound.belongs other alarm member)
    exact home ▸ told other tick same
  · exact asRead.fired tick before

theorem note (asRead : FiredAsRead reads alarm queue start system) {occurrence : Occurrence}
    (aside : occurrence.IsAside) : FiredAsRead reads alarm queue start (system.record occurrence) := by
  have onward := (System.Continues.refl system).record occurrence
  have ledger := System.ledger_record aside system
  refine ⟨asRead.threaded.record aside, ledger ▸ asRead.sound, ledger ▸ asRead.exist,
    ledger ▸ asRead.belongs, asRead.continues.trans onward, fun tick fired => ?_⟩
  rw [asRead.continues.since_trans onward, System.since_record] at fired
  rcases List.mem_append.mp fired with now | before
  · obtain rfl := List.mem_singleton.mp now
    exact aside.elim
  · exact asRead.fired tick before

private theorem begin (asRead : FiredAsRead reads alarm queue start system) (request : Request) :
    FiredAsRead reads alarm queue start (request.begin system) := by
  cases request with
  | rearm log delay =>
      have noted : FiredAsRead reads alarm queue start (system.record (.rearmed log delay)) :=
        asRead.note trivial
      exact noted.apply (.addRearm log delay) ⟨trivial, nofun⟩
  | sleep clock delay =>
      have noted : FiredAsRead reads alarm queue start (system.record (.slept clock delay)) :=
        asRead.note trivial
      exact noted.apply (.advance clock delay) ⟨trivial, nofun⟩
  | observe | execute | idle => exact asRead.note trivial

private theorem reaches (asRead : FiredAsRead reads alarm queue start system)
    (tells : ∀ system command, conduct system command → reading reads system command)
    (run : Reaches conduct system last) : FiredAsRead reads alarm queue start last :=
  run.preserves asRead
    (fun kept allowed => System.stride_preserves (motive := FiredAsRead reads alarm queue start)
      (kept.apply _ (tells _ _ allowed)) fun index token called =>
        called.apply (.markReady index token) ⟨trivial, nofun⟩)
    fun kept aside => kept.note aside

end FiredAsRead

variable {σ : Type} {environment : Environment σ} {world after : World σ} {own : List Nat} {woken : Bool}

private theorem waitUntil_fires_as_read (threaded : world.system.Threaded)
    (sound : world.system.ledger.Sound)
    (ahead : Tick.isDue deadline (world.system.queueNow queue) = false)
    (tells : ∀ system command, conduct system command → reading reads system command)
    (meanwhile : (waitUntil bound queue (.shared signal) deadline).Meanwhile conduct environment world)
    (returned : (waitUntil bound queue (.shared signal) deadline).run environment world =
      (.ok woken, after)) :
    FiredAsRead reads world.system.ledger.count queue world.system after.system := by
  obtain ⟨ready, posted, -, rfl, rfl⟩ := waitUntil_returned ahead returned
  have made : FiredAsRead reads world.system.ledger.count queue world.system
      (world.withAlarm queue signal deadline).system := by
    obtain ⟨created, kept⟩ := threaded.createAlarm queue (.shared signal) deadline false
    have grown : (made queue signal deadline world.system).ledger = _ := created
    refine ⟨kept, ?_, ?_, ?_, (System.Continues.refl _).apply (.createAlarm _ _ _ _), ?_⟩
    · exact grown ▸ sound.step (.create queue (.shared signal) deadline false) trivial
    · change _ < (Alarms.made queue signal deadline world.system).ledger.count
      rw [grown]
      exact Nat.lt_succ_self _
    · exact congrArg Alarm.queue (made_alarm queue signal deadline threaded)
    · intro tick fired
      obtain ⟨other, same, -⟩ := FiredAsRead.of_fired threaded
        (.createAlarm queue (.shared signal) deadline false) fired
      cases same
  have awaited : FiredAsRead reads world.system.ledger.count queue world.system ready.system := by
    have kept := (awaiting_uses bound queue signal world.system.ledger.count).preserves
      (waitUntil_meanwhile ahead meanwhile) made ?_ (fun kept _ => kept.begin _)
      fun kept run => kept.reaches tells run
    · rwa [posted] at kept
    · intro system command kept allowed
      rcases allowed with rfl | log
      · exact kept.apply _ ⟨⟨kept.exist, kept.belongs⟩, nofun⟩
      · cases command with
        | log notice => exact kept.apply (.log notice) ⟨trivial, nofun⟩
        | _ => exact log.elim
  have taken := awaited.apply (.take (.shared signal)) ⟨trivial, nofun⟩
  have withdrawn := taken.apply (.withdrawAlarm queue world.system.ledger.count) ⟨trivial, nofun⟩
  exact withdrawn.apply (.dropAlarm world.system.ledger.count) ⟨trivial, nofun⟩

/-- A check fires alarms of its queue only, at the tick that it read. -/
private theorem check_fires_as_read (bound queue : Nat) : ∃ next, check bound queue = .look next ∧
    ∀ system, (next system).Uses (fun command => ∀ other now, command = .fireFirst other now →
      other = queue ∧ now = system.queueNow queue) fun _ => True := by
  refine ⟨_, check_eq bound queue, fun system => .bind (((drain_uses queue _ bound).mono ?_).weaken ?_)
    fun _ => .read _⟩
  · rintro command (rfl | ⟨-, silent⟩) other now same
    · cases same
      exact ⟨rfl, rfl⟩
    · subst same
      exact absurd trivial silent
  · exact fun _ _ => trivial

end Alarms

namespace Rings

variable {σ : Type} {environment : Environment σ} {world last after : World σ}
  {bound ring queue signal rounds passes : Nat} {deadline timeout : Tick} {reads : Nat → Tick → Prop}

/-- A deadline was reached on the clock of a queue. It is due by now, or an alarm for it that was made
since a given moment was fired at a tick that others read off that clock and at which it was due. -/
def Reached (reads : Nat → Tick → Prop) (queue : Nat) (deadline : Tick) (start system : System) : Prop :=
  Tick.isDue deadline (system.queueNow queue) = true ∨
    ∃ alarm tick, start.ledger.count ≤ alarm ∧ (system.ledger.alarm alarm).queue = queue ∧
      system.ledger.deadline alarm = deadline ∧ .fired alarm tick ∈ system.since start ∧
      Tick.isDue deadline tick = true ∧ reads queue tick

private theorem attending_reads (system : System) (command : Command)
    (allowed : attending reads ring signal system command) : Alarms.reading reads system command :=
  ⟨allowed.1, allowed.2.2.1⟩

/-! ### What a wait asks for -/

/-- A wait for elements blocks only while the ring has none, and from then on elements come with a post
to wake up to. -/
def Blocks (reads : Nat → Tick → Prop) (ring signal : Nat) (request : Request) (now : System) : Prop :=
  ∀ reference, request = .idle reference → reference = .shared signal ∧ now.pending signal = 0 ∧
    (now.rings.get ring).isEmpty = true ∧
    ∀ moment, Reaches (attending reads ring signal) (request.begin now) moment →
      (moment.rings.get ring).isEmpty = false → moment.pending signal ≠ 0

private theorem pass_blocks (heralded : Heralded ring signal world.system)
    (meanwhile : (Alarms.waitUntil bound queue (.shared signal) deadline).Meanwhile
      (attending reads ring signal) environment world) :
    (Alarms.waitUntil bound queue (.shared signal) deadline).Asks (Blocks reads ring signal) environment
      world := by
  cases due : Tick.isDue deadline (world.system.queueNow queue) with
  | true =>
      rw [Alarms.waitUntil_eq, Asks, if_pos due]
      trivial
  | false =>
      refine Alarms.waitUntil_asks due ?_
      have made : Heralded ring signal (world.withAlarm queue signal deadline).system :=
        @Heralded.apply _ _ _ (.createAlarm queue (.shared signal) deadline false) heralded trivial
          (by rintro ⟨⟩)
      refine Asks.mono ((Alarms.awaiting_uses bound queue signal _).asks_kept (Alarms.awaiting_asks _ _ _ _)
        (Alarms.waitUntil_meanwhile due meanwhile) made ?_ (fun kept pause => kept.begin pause)
        fun kept run => kept.reaches run) ?_
      · intro system command kept allowed
        rcases allowed with rfl | log
        · exact kept.apply trivial (by rintro ⟨⟩)
        · cases command with
          | log => exact kept.apply trivial (by rintro ⟨⟩)
          | _ => exact log.elim
      · rintro request now ⟨idle, kept⟩ reference rfl
        obtain ⟨same, none⟩ := idle reference rfl
        have begun : Heralded ring signal ((Request.idle reference).begin now) := kept.begin trivial
        refine ⟨same, none, ?_, fun moment run => (begun.reaches run).heralded⟩
        cases empty : (now.rings.get ring).isEmpty with
        | true => rfl
        | false => exact absurd none (kept.heralded empty)

private theorem waitUntil_blocks (linked : Linked ring signal world.system)
    (meanwhile : (waitUntil bound ring queue signal deadline rounds).Meanwhile (attending reads ring signal)
      environment world) :
    (waitUntil bound ring queue signal deadline rounds).Asks (Blocks reads ring signal) environment
      world := by
  induction rounds generalizing world with
  | zero => trivial
  | succ rounds ih =>
      rw [← asks_upon]
      cases empty : (world.system.rings.get ring).isEmpty with
      | false =>
          rw [waitUntil_upon_filled empty]
          trivial
      | true =>
          rw [waitUntil_upon_empty empty, asks_upon]
          obtain ⟨during, onward⟩ := waitUntil_meanwhile empty meanwhile
          have heralded : Heralded ring signal world.system :=
            ⟨linked, fun filled => by rw [empty] at filled; cases filled⟩
          refine .bind (pass_blocks heralded during) fun woken later ran => ?_
          cases woken with
          | false => trivial
          | true =>
              have kept := (Alarms.waitUntil_uses bound queue signal deadline).preserves
                (motive := Linked ring signal) during linked (fun kept timed => kept.apply timed)
                (fun kept pause => kept.begin pause) fun kept run => kept.reaches run
              rw [ran] at kept
              exact ih kept (onward later ran)

/-! ### What a wait answers -/

/-- A pass that times out does so once the deadline of the wait was reached. -/
private theorem Passes.reached {own : List Nat} {left : Nat}
    (through : Passes bound ring queue signal deadline environment passes world last)
    (threaded : world.system.Threaded) (sound : world.system.ledger.Sound)
    (tallies : world.system.Tallies signal)
    (spared : (waitUntil bound ring queue signal deadline (passes + (left + 1))).Spared environment own world)
    (meanwhile : (waitUntil bound ring queue signal deadline (passes + (left + 1))).Meanwhile
      (attending reads ring signal) environment world)
    (empty : (last.system.rings.get ring).isEmpty = true)
    (timedOut : (Alarms.waitUntil bound queue (.shared signal) deadline).run environment last =
      (.ok false, after)) : Reached reads queue deadline world.system after.system := by
  cases due : Tick.isDue deadline (last.system.queueNow queue) with
  | true =>
      rw [Alarms.waitUntil_eq, Activity.run, if_pos due] at timedOut
      cases timedOut
      exact .inl due
  | false =>
      obtain ⟨threaded, sound, grown, others, spared⟩ := through.spared spared threaded sound
      obtain ⟨continues, -⟩ := through.pending_add_le meanwhile tallies
      have during := (waitUntil_meanwhile empty (through.meanwhile meanwhile)).1
      have ended := Alarms.waitUntil_ended threaded sound due (waitUntil_spared empty spared).1 timedOut
      have asRead := Alarms.waitUntil_fires_as_read threaded sound due attending_reads during timedOut
      obtain ⟨belongs, ends, tick, fired, isDue⟩ := ended.timedOut rfl
      refine .inr ⟨_, tick, grown, belongs, ends, ?_, isDue, asRead.fired tick fired⟩
      rw [continues.since_trans ended.continues]
      exact List.mem_append_left _ fired

private theorem waitUntil_answers {own : List Nat} (threaded : world.system.Threaded)
    (sound : world.system.ledger.Sound) (tallies : world.system.Tallies signal) {filled : Bool}
    (spared : (waitUntil bound ring queue signal deadline bound).Spared environment own world)
    (meanwhile : (waitUntil bound ring queue signal deadline bound).Meanwhile (attending reads ring signal)
      environment world)
    (returned : (waitUntil bound ring queue signal deadline bound).run environment world =
      (.ok filled, after)) :
    filled = !(after.system.rings.get ring).isEmpty ∧
      (filled = false → Reached reads queue deadline world.system after.system) := by
  obtain ⟨passes, left, last, same, through, ending⟩ :=
    waitUntil_ending bound ring queue signal deadline environment bound world
  rw [returned] at ending
  dsimp only at ending
  cases ending with
  | filled filled => exact ⟨by rw [filled]; rfl, nofun⟩
  | @timedOut left _ _ empty timedOut =>
      refine ⟨rfl, fun _ => ?_⟩
      have whole : waitUntil bound ring queue signal deadline bound =
          waitUntil bound ring queue signal deadline (passes + (left + 1)) := by rw [same]
      rw [whole] at spared meanwhile
      exact through.reached threaded sound tallies spared meanwhile empty timedOut

/-- A wait for the elements of a ring tells the truth and never sleeps on elements. Let the ring have a
signal that nothing observes, and let others leave both as they are and take no post of the signal. When
the wait returns, its answer is whether the ring has elements at that moment. It denies that only if the
deadline as of the call was reached on the clock of its queue: it is due when the wait looks, or an alarm
of the wait was fired at a tick that others read and at which it was due, and what a check takes for that
is its own reading. The wait blocks only while the ring has no elements, and once it has some there is a
post to wake up to. It goes through passes that find no elements and take exactly one post each, which
was there at first or was raised since, and is over or cut off in the next one. -/
theorem waits_tell_of_elements {setup : Setup} {σ : Type} {world : World σ}
    (run : Reaches proper setup.system world.system) (environment : Environment σ)
    (reads : Nat → Tick → Prop) (bound queue : Nat) (timeout : Tick) {ring signal : Nat}
    (associated : (world.system.rings.get ring).signal = some signal)
    (unobserved : (world.system.signal (.shared signal)).attachment = none)
    (spared : (waitFor bound ring queue timeout).Spared environment [] world)
    (meanwhile : (waitFor bound ring queue timeout).Meanwhile (attending reads ring signal) environment
      world) :
    let call := waitFor bound ring queue timeout
    let deadline := Tick.deadlineAfter (world.system.queueNow queue) timeout
    (∀ filled after, call.run environment world = (.ok filled, after) →
      filled = !(after.system.rings.get ring).isEmpty ∧
        (filled = false → Reached reads queue deadline world.system after.system)) ∧
    call.Asks (Blocks reads ring signal) environment world ∧
    ((world.system.rings.get ring).isEmpty = true → ∃ passes left last, passes + left = bound ∧
      Passes bound ring queue signal deadline environment passes world last ∧
      Ending bound ring queue signal deadline environment left last (call.run environment world).1
        (call.run environment world).2 ∧
      last.system.pending signal + passes ≤ world.system.pending signal +
        (last.system.since world.system).countP (Occurrence.isRaise (.shared signal))) ∧
    (∀ pass later : World σ,
      (Alarms.waitUntil bound queue (.shared signal) deadline).run environment pass = (.ok true, later) →
      ((Alarms.waitUntil bound queue (.shared signal) deadline).occurrences .call environment pass).countP
        (Occurrence.isTake (.shared signal)) = 1) ∧
    ∀ rounds queue, ∃ next, Alarms.check rounds queue = .look next ∧
      ∀ system, (next system).Uses (fun command => ∀ other now, command = .fireFirst other now →
        other = queue ∧ now = system.queueNow queue) fun _ => True := by
  obtain ⟨threaded, sound⟩ := run.sound setup.threaded setup.sound
  have tallies : world.system.Tallies signal := (setup.tallies signal).reaches run
  intro call deadline
  have takes : ∀ pass later : World σ, (Alarms.waitUntil bound queue (.shared signal) deadline).run
      environment pass = (.ok true, later) →
      ((Alarms.waitUntil bound queue (.shared signal) deadline).occurrences .call environment pass).countP
        (Occurrence.isTake (.shared signal)) = 1 :=
    fun pass later woken => Alarms.waitUntil_takes (Alarms.ahead_of_woken woken) woken
  cases empty : (world.system.rings.get ring).isEmpty with
  | false =>
      have runs : call.run environment world = (.ok true, world) := by
        rw [← run_upon, waitFor_upon_filled empty]
        rfl
      refine ⟨fun filled after returned => ?_, ?_, nofun, takes, Alarms.check_fires_as_read⟩
      · rw [runs] at returned
        cases returned
        exact ⟨by rw [empty]; rfl, nofun⟩
      · rw [← asks_upon, waitFor_upon_filled empty]
        trivial
  | true =>
      have upon := waitFor_upon empty associated bound queue timeout
      rw [← spared_upon, upon, spared_upon] at spared
      rw [← meanwhile_upon, upon, meanwhile_upon] at meanwhile
      have runs : call.run environment world =
          (waitUntil bound ring queue signal deadline bound).run environment world := by
        rw [← run_upon, upon, run_upon]
      refine ⟨fun filled after returned => ?_, ?_, fun _ => ?_, takes, Alarms.check_fires_as_read⟩
      · exact waitUntil_answers threaded sound tallies spared meanwhile (runs ▸ returned)
      · rw [← asks_upon, upon, asks_upon]
        exact waitUntil_blocks ⟨associated, unobserved⟩ meanwhile
      · obtain ⟨passes, left, last, same, through, ending⟩ :=
          waitUntil_ending bound ring queue signal deadline environment bound world
        have whole : (waitUntil bound ring queue signal deadline (passes + left)).Meanwhile
            (attending reads ring signal) environment world := by rwa [same]
        rw [runs]
        exact ⟨passes, left, last, same, through, ending, (through.pending_add_le whole tallies).2⟩

/-- Strides that others make as long as a ring keeps its signal and nothing observes that. -/
def stridesLinked (ring signal : Nat) (system : System) : List Command → System
  | [] => system
  | command :: rest =>
    let next := system.stride command
    if (next.rings.get ring).signal = some signal ∧ (next.signal (.shared signal)).attachment.isNone then
      stridesLinked ring signal next rest
    else system

/-- Others who make the same strides whenever they are asked. -/
def supplying (ring signal : Nat) (commands : List Command) : Environment Unit := fun request world =>
  (.ok (), { world with system := stridesLinked ring signal (request.begin world.system) commands })

private theorem reaches_stridesLinked {conduct : Conduct} {commands : List Command}
    (allowed : ∀ command ∈ commands, ∀ system, Linked ring signal (system.stride command) →
      conduct system command) (system : System) :
    Reaches conduct system (stridesLinked ring signal system commands) := by
  induction commands generalizing system with
  | nil => exact .refl system
  | cons command rest ih =>
      have later := ih fun other member => allowed other (List.mem_cons_of_mem command member)
      rw [stridesLinked]
      split
      · next linked =>
        have kept : Linked ring signal (system.stride command) :=
          ⟨linked.1, Option.isNone_iff_eq_none.mp linked.2⟩
        exact (Reaches.single command (allowed command List.mem_cons_self system kept)).trans (later _)
      · exact .refl system

/-- A wait takes a post that is left over and goes on. Then others store an element and fetch it again,
and the alarm of the wait fires, which leaves it two posts and nothing to fetch. -/
theorem fetched_element_leaves_timeout :
    let setup : Setup :=
      { clocks := [0], signals := [.host], queues := [{}], rings := [{ Ring.smallest with signal := some 0 }] }
    let system := setup.system.strides [.beginPost (.shared 0)]
    let world : World Unit := { system, outside := () }
    let environment := supplying 0 0 [.store 0 [7], .fetch 0 1, .advance 0 10, .fireFirst 0 10]
    let reads := fun queue tick => queue = 0 ∧ tick = (10 : Tick)
    let call := waitFor 3 0 0 9
    let after := (call.run environment world).2
    Reaches proper setup.system world.system ∧ (world.system.rings.get 0).signal = some 0 ∧
      (world.system.signal (.shared 0)).attachment = none ∧ world.system.pending 0 = 1 ∧
      call.Spared environment [] world ∧ call.Meanwhile (attending reads 0 0) environment world ∧
      call.run environment world = (.ok false, after) ∧ after.system.pending 0 = 1 ∧
      (after.system.rings.get 0).isEmpty = true ∧ Reached reads 0 9 world.system after.system := by
  intro setup system world environment reads call after
  have run : Reaches proper setup.system world.system := .strides ⟨trivial, trivial⟩
  have associated : (world.system.rings.get 0).signal = some 0 := by decide +kernel
  have unobserved : (world.system.signal (.shared 0)).attachment = none := by decide +kernel
  have stale : world.system.pending 0 = 1 := by decide +kernel
  have reading : world.system.queueNow 0 = 0 := by decide +kernel
  have answer : (call.run environment world).1 = .ok false := by decide +kernel
  have left : after.system.pending 0 = 1 := by decide +kernel
  have empty : (after.system.rings.get 0).isEmpty = true := by decide +kernel
  clear_value system
  have returned : call.run environment world = (.ok false, after) := Prod.ext answer rfl
  clear_value after
  have spared : call.Spared environment [] world :=
    .of_answers fun _ _ _ => reaches_stridesLinked (by simp [Alarms.considerate, Ledger.Proper,
      Command.Handles]) _
  have meanwhile : call.Meanwhile (attending reads 0 0) environment world :=
    .of_answers fun _ _ => reaches_stridesLinked (by simp [attending, Ledger.Proper, reads]) _
  have tells := (waits_tell_of_elements run environment reads 3 0 9 associated unobserved spared
    meanwhile).1 false after returned
  rw [reading] at tells
  exact ⟨run, associated, unobserved, stale, spared, meanwhile, returned, left, empty, tells.2 rfl⟩

end Rings

end TimedWaits
