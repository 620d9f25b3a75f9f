import TimedWaits.Proofs.Alarms.StaleReports
import TimedWaits.Proofs.Runs.Requests

/-! Checks from inside checks. Whatever the observers do that a check calls, as long as they add nothing
that was due when the check began, each round of it uses up an alarm that was. -/

set_option autoImplicit false

namespace TimedWaits

open Activity

theorem Activity.Meanwhile.mono {σ α : Type} {environment : Environment σ} {activity : Activity α}
    {world : World σ} {conduct other : Conduct} (meanwhile : activity.Meanwhile conduct environment world)
    (weaker : ∀ system command, conduct system command → other system command) :
    activity.Meanwhile other environment world := by
  induction activity generalizing world with
  | done | fail => trivial
  | look _ ih => exact ih _ meanwhile
  | act _ _ ih => exact ih _ meanwhile
  | ask _ _ ih => exact ⟨meanwhile.1.mono weaker, ih _ meanwhile.2⟩

/-! ### Firings -/

namespace Occurrence

/-- The alarm that is fired, and the tick that it is fired for. -/
def firing? : Occurrence → Option (Nat × Tick)
  | .fired alarm now => some (alarm, now)
  | _ => none

/-- An alarm is taken off a queue, but not fired. -/
def isRemovalOf (alarm : Nat) : Occurrence → Bool
  | .withdrawn other | .dropped other true => other = alarm
  | _ => false

/-- The alarms that are fired in a part of the history, in the order in which it happens. -/
def firings (occurrences : List Occurrence) : List (Nat × Tick) :=
  occurrences.reverse.filterMap firing?

private theorem countP_exits (alarm : Nat) (occurrences : List Occurrence) :
    occurrences.countP (isExitOf alarm) =
      occurrences.countP (isFiringOf alarm) + occurrences.countP (isRemovalOf alarm) := by
  rw [List.countP_eq_countP_filter_add occurrences (isExitOf alarm) (isFiringOf alarm),
    List.countP_filter, List.countP_filter]
  congr 1 <;> refine List.countP_congr fun occurrence _ => ?_
  all_goals cases occurrence with
    | dropped other wasQueued => cases wasQueued <;> simp [isExitOf, isFiringOf, isRemovalOf]
    | _ => simp [isExitOf, isFiringOf, isRemovalOf]

theorem firings_append (later earlier : List Occurrence) :
    firings (later ++ earlier) = firings earlier ++ firings later := by
  rw [firings, List.reverse_append, List.filterMap_append, firings, firings]

theorem firings_of_countP {occurrences : List Occurrence}
    (none : occurrences.countP (fun occurrence => occurrence.firing?.isSome) = 0) :
    firings occurrences = [] := by
  rw [List.countP_eq_zero] at none
  refine List.filterMap_eq_nil_iff.mpr fun occurrence member => ?_
  exact Option.not_isSome_iff_eq_none.mp (none occurrence (List.mem_reverse.mp member))

private theorem firings_filter_isPassage (occurrences : List Occurrence) :
    firings (occurrences.filter isPassage) = firings occurrences := by
  rw [firings, ← List.filter_reverse, List.filterMap_filter, firings]
  refine List.filterMap_congr fun occurrence _ => ?_
  cases occurrence with
  | posted signal poster => cases poster <;> rfl
  | dropped alarm wasQueued => cases wasQueued <;> rfl
  | _ => rfl

end Occurrence

namespace Ledger

variable {ledger next : Ledger} {queue alarm : Nat} {reading : Tick} {command : Command}

/-- The alarms in a queue that are due at a tick. -/
def due (ledger : Ledger) (queue : Nat) (reading : Tick) : List Nat :=
  (ledger.members queue).filter (ledger.isDue reading)

/-- An alarm that is meant for a queue and due at a tick. -/
structure Lapses (ledger : Ledger) (queue : Nat) (reading : Tick) (alarm : Nat) : Prop where
  exist : alarm < ledger.count
  belongs : (ledger.alarm alarm).queue = queue
  due : ledger.isDue reading alarm = true

theorem Sound.lapses (sound : ledger.Sound) (member : alarm ∈ ledger.due queue reading) :
    ledger.Lapses queue reading alarm := by
  obtain ⟨queued, due⟩ := List.mem_filter.mp member
  exact ⟨sound.stored queue alarm queued, sound.belongs queue alarm queued, due⟩

theorem Lapses.extends (lapses : ledger.Lapses queue reading alarm) (extend : ledger.Extends next) :
    next.Lapses queue reading alarm := by
  refine ⟨Nat.lt_of_lt_of_le lapses.exist extend.count,
    (extend.queue alarm lapses.exist).trans lapses.belongs, ?_⟩
  rw [isDue, extend.deadline alarm lapses.exist]
  exact lapses.due

private theorem due_eq_cons {others : List Nat} (front : ledger.members queue = alarm :: others)
    (due : ledger.isDue reading alarm = true) :
    ledger.due queue reading = alarm :: (ledger.fire queue alarm others).due queue reading := by
  rw [Ledger.due, front, List.filter_cons_of_pos due, Ledger.due, fire, members_setMembers_self]
  rfl

/-- What is due in a queue becomes no more by a step that enters nothing that is. -/
private theorem Step.due_sublist (step : ledger.Step command next) (sound : ledger.Sound)
    (later : ∀ alarm, command = .insertAlarm queue alarm → ledger.isDue reading alarm = false) :
    (next.due queue reading).Sublist (ledger.due queue reading) := by
  rcases step.members queue with fewer | ⟨entered, rfl, rfl, -⟩
  · have same : ∀ alarm ∈ next.members queue,
        next.isDue reading alarm = ledger.isDue reading alarm := by
      intro alarm member
      rw [isDue, step.extends.deadline alarm (sound.stored queue alarm (fewer.subset member)), isDue]
    rw [due, List.filter_congr same]
    exact fewer.filter _
  · have same : (ledger.insert queue entered).due queue reading = ledger.due queue reading :=
      filter_insert (later entered rfl)
    rw [same]

/-- An alarm that is due does not enter its queue by such a step. -/
private theorem Passes.entries {reply : command.Reply} {notes : List Occurrence}
    (passes : ledger.Passes next command reply notes) (lapses : ledger.Lapses queue reading alarm)
    (proper : ledger.Proper command)
    (later : ∀ alarm, command = .insertAlarm queue alarm → ledger.isDue reading alarm = false) :
    notes.countP (Occurrence.isEntryOf alarm) = 0 := by
  cases passes with
  | @enters place entered position loose =>
      have differ : entered ≠ alarm := by
        rintro rfl
        have undue := later entered (by rw [← lapses.belongs, proper.2])
        rw [lapses.due] at undue
        cases undue
      simp [Occurrence.isEntryOf, differ]
  | _ => rfl

end Ledger

/-- Nothing enters a queue that is due there at a tick, and no queue takes in an alarm of another one. -/
def entersLater (queue : Nat) (reading : Tick) : Conduct := fun system command =>
  system.ledger.Proper command ∧
    ∀ alarm, command = .insertAlarm queue alarm → system.ledger.isDue reading alarm = false

namespace System

variable {queue alarm : Nat} {reading : Tick} {command : Command} {first middle last system : System}

theorem entersLater_of_quiet (command : Command) (quiet : ¬ command.Enqueues) (system : System) :
    entersLater queue reading system command := by
  cases command with
  | insertAlarm => exact absurd trivial quiet
  | _ => exact ⟨trivial, nofun⟩

private theorem entries_of_lapses (threaded : system.Threaded)
    (lapses : system.ledger.Lapses queue reading alarm)
    (allowed : entersLater queue reading system command) :
    ((command.apply system).2.since system).countP (Occurrence.isEntryOf alarm) = 0 := by
  rw [← Occurrence.countP_filter_isPassage _ fun _ => Occurrence.isPassage_of_isEntryOf]
  exact (command.passes threaded).entries lapses allowed.1 allowed.2

/-- A later moment up to which nothing has entered a queue that is due there at a tick. What is due has
become no more. -/
structure Wanes (queue : Nat) (reading : Tick) (first last : System) : Prop extends Grows first last where
  sound : last.ledger.Sound
  due : (last.ledger.due queue reading).Sublist (first.ledger.due queue reading)
  entries : ∀ alarm, first.ledger.Lapses queue reading alarm →
    (last.since first).countP (Occurrence.isEntryOf alarm) = 0

namespace Wanes

theorem refl (threaded : system.Threaded) (sound : system.ledger.Sound) :
    Wanes queue reading system system := by
  refine ⟨.refl threaded, sound, .refl _, fun alarm _ => ?_⟩
  have none : system.since system = [] := since_eq rfl
  rw [none]
  rfl

theorem trans (before : Wanes queue reading first middle) (after : Wanes queue reading middle last) :
    Wanes queue reading first last := by
  refine ⟨before.toGrows.trans after.toGrows, after.sound, after.due.trans before.due, ?_⟩
  intro alarm lapses
  rw [before.continues.since_trans after.continues, List.countP_append, before.entries alarm lapses,
    after.entries alarm (lapses.extends before.extend)]

theorem apply (wanes : Wanes queue reading first last) (allowed : entersLater queue reading last command) :
    Wanes queue reading first (command.apply last).2 := by
  obtain ⟨step, -⟩ := command.step_apply wanes.threaded
  refine wanes.trans ⟨(Grows.refl wanes.threaded).apply command, wanes.sound.step step allowed.1,
    step.due_sublist wanes.sound allowed.2, fun alarm lapses => ?_⟩
  exact entries_of_lapses wanes.threaded lapses allowed

theorem note (wanes : Wanes queue reading first last) {occurrence : Occurrence}
    (aside : occurrence.IsAside) : Wanes queue reading first (last.record occurrence) := by
  have same := last.ledger_record aside
  refine wanes.trans
    ⟨(Grows.refl wanes.threaded).note aside, same ▸ wanes.sound, ?_, fun alarm _ => ?_⟩
  · rw [same]
  · rw [last.since_record]
    cases occurrence <;> first | rfl | exact aside.elim

theorem begin (wanes : Wanes queue reading first last) (request : Request) :
    Wanes queue reading first (request.begin last) := by
  cases request with
  | rearm log delay =>
      have noted : Wanes queue reading first (last.record (.rearmed log delay)) := wanes.note trivial
      exact noted.apply (entersLater_of_quiet (.addRearm log delay) not_false _)
  | sleep clock delay =>
      have noted : Wanes queue reading first (last.record (.slept clock delay)) := wanes.note trivial
      exact noted.apply (entersLater_of_quiet (.advance clock delay) not_false _)
  | observe | execute | idle => exact wanes.note trivial

theorem reaches (wanes : Wanes queue reading first middle)
    (run : Reaches (entersLater queue reading) middle last) : Wanes queue reading first last :=
  run.preserves (motive := Wanes queue reading first) wanes
    (fun kept allowed => stride_preserves (motive := Wanes queue reading first) (kept.apply allowed)
      fun index token called =>
        called.apply (entersLater_of_quiet (.markReady index token) not_false _))
    fun kept aside => kept.note aside

end Wanes

end System

namespace Alarms

variable {σ : Type} {environment : Environment σ} {world : World σ} {queue bound : Nat} {reading : Tick}

theorem drain_succ (queue bound : Nat) (now : Tick) : drain queue now (bound + 1) =
    .act (.fireFirst queue now) fun
      | none => .done ()
      | some fired => Attachment.callAny fired.attachment >>= fun _ =>
          .act (.log (.alarmFired fired.deadline now)) fun _ => drain queue now bound := by
  refine congrArg (Activity.act (.fireFirst queue now)) (funext fun reply => ?_)
  cases reply <;> rfl

private theorem callAny_ok {attachment : Option Attachment}
    (granted : (Attachment.callAny attachment).Granted environment world) :
    ∃ called, (Attachment.callAny attachment).run environment world = (.ok (), called) := by
  match attachment with
  | none => exact ⟨world, rfl⟩
  | some { observer := .selector index, token } => exact ⟨_, rfl⟩
  | some { observer := .custom index, token } => exact ⟨_, granted.run_request⟩

/-- A command that fires no alarm notes none as fired. -/
theorem firings_apply (command : Command) (holds : ∀ queue now, command ≠ .fireFirst queue now)
    (system : System) : Occurrence.firings ((command.apply system).2.since system) = [] := by
  refine Occurrence.firings_of_countP (command.countP_since ?_ (fun _ => rfl) (fun _ _ => rfl) system)
  intro occurrence noted
  cases occurrence with
  | fired alarm now =>
      obtain ⟨queue, same⟩ := noted
      exact absurd same (holds queue now)
  | _ => rfl

private theorem firings_log (notice : Notice) (system : System) :
    Occurrence.firings (((Command.log notice).apply system).2.since system) = [] :=
  firings_apply (.log notice) nofun system

private theorem callAny_firings (attachment : Option Attachment) :
    Occurrence.firings ((Attachment.callAny attachment).occurrences .call environment world) = [] := by
  match attachment with
  | none => rfl
  | some { observer := .selector index, token } =>
      exact firings_apply (.markReady index token) nofun _
  | some { observer := .custom index, token } =>
      have asks : (Activity.request (.observe index token)).Uses (fun _ => False)
          (· = .observe index token) := .request rfl
      refine Occurrence.firings_of_countP (asks.occurrences_call (fun _ _ never => never.elim) ?_)
      rintro system request rfl
      exact Request.countP_since _ rfl (fun _ => rfl) system

private theorem fireFirst_firings {system unqueued : System} {alarm : Nat}
    (fires : system.Fires queue alarm reading unqueued) :
    Occurrence.firings ((system.fireFirst queue reading).2.since system) = [(alarm, reading)] := by
  rw [← Occurrence.firings_filter_isPassage, fires.filter_since]
  rfl

/-- A round of a drain that fires an alarm, up to the moment at which the next round begins. -/
structure FiringRound (queue bound : Nat) (reading : Tick) (environment : Environment σ) (alarm : Nat)
    (world later : World σ) : Prop where
  run : (drain queue reading (bound + 1)).run environment world =
    (drain queue reading bound).run environment later
  firings : Occurrence.firings ((drain queue reading (bound + 1)).occurrences .call environment world) =
    (alarm, reading) ::
      Occurrence.firings ((drain queue reading bound).occurrences .call environment later)
  meanwhile : (drain queue reading bound).Meanwhile (entersLater queue reading) environment later
  granted : (drain queue reading bound).Granted environment later
  threaded : later.system.Threaded
  sound : later.system.ledger.Sound
  due : (alarm :: later.system.ledger.due queue reading).Sublist (world.system.ledger.due queue reading)

private theorem drain_fires_front (threaded : world.system.Threaded) (sound : world.system.ledger.Sound)
    (meanwhile : (drain queue reading (bound + 1)).Meanwhile (entersLater queue reading) environment world)
    (granted : (drain queue reading (bound + 1)).Granted environment world) {alarm : Nat}
    {others : List Nat} (front : world.system.ledger.members queue = alarm :: others)
    (due : world.system.ledger.isDue reading alarm = true) :
    ∃ later, FiringRound queue bound reading environment alarm world later := by
  obtain ⟨⟨reply, replied⟩, ledger, kept⟩ := threaded.fireFirst_due front due
  obtain ⟨unqueued, fires⟩ := threaded.fires front due
  let popped : World σ := { world with system := (world.system.fireFirst queue reading).2 }
  have applied : world.apply (.fireFirst queue reading) = (some reply, popped) := Prod.ext replied rfl
  rw [drain_succ, Meanwhile, applied] at meanwhile
  rw [drain_succ, Granted, applied] at granted
  obtain ⟨calling, logging⟩ := meanwhile_bind.mp meanwhile
  obtain ⟨calls, onward⟩ := granted_bind.mp granted
  obtain ⟨called, answered⟩ := callAny_ok calls
  let later := (called.apply (.log (.alarmFired reply.deadline reading))).2
  have soundPopped : popped.system.ledger.Sound := ledger ▸ sound.step (.fire front due) trivial
  have wanes : System.Wanes queue reading popped.system later.system := by
    have uses : (Attachment.callAny reply.attachment).Uses (fun command => ¬ command.Enqueues)
        fun _ => True := callAny_uses (fun _ _ => not_false) (fun _ _ => trivial) _
    have kept := uses.preserves (motive := System.Wanes queue reading popped.system) calling
      (.refl kept soundPopped) (fun wanes quiet => wanes.apply (System.entersLater_of_quiet _ quiet _))
      (fun wanes _ => wanes.begin _) fun wanes run => wanes.reaches run
    rw [answered] at kept
    exact kept.apply (System.entersLater_of_quiet (.log _) not_false _)
  refine ⟨later, drain_run_of_fired replied answered, ?_, logging () called answered,
    onward () called answered, wanes.threaded, wanes.sound, ?_⟩
  · have logged : Occurrence.firings
        ((called.apply (.log (.alarmFired reply.deadline reading))).2.system.since called.system) = [] :=
      firings_log _ _
    rw [drain_succ, occurrences, applied, Occurrence.firings_append]
    dsimp only
    rw [fireFirst_firings fires, occurrences_bind, answered, Occurrence.firings_append, callAny_firings]
    dsimp only
    rw [occurrences, Occurrence.firings_append, logged]
    rfl
  · have rest := wanes.due
    rw [ledger] at rest
    rw [Ledger.due_eq_cons front due]
    exact rest.cons_cons alarm

/-- Each round uses up the first alarm of those that are still due, and what others do adds none. -/
private theorem drain_ends (threaded : world.system.Threaded) (sound : world.system.ledger.Sound)
    (meanwhile : (drain queue reading bound).Meanwhile (entersLater queue reading) environment world)
    (granted : (drain queue reading bound).Granted environment world)
    (enough : (world.system.ledger.due queue reading).length < bound) :
    ∃ (after : World σ) (fired : List Nat),
      (drain queue reading bound).run environment world = (.ok (), after) ∧
      Occurrence.firings ((drain queue reading bound).occurrences .call environment world) =
        fired.map (·, reading) ∧
      fired.Sublist (world.system.ledger.due queue reading) := by
  induction bound generalizing world with
  | zero => exact absurd enough (Nat.not_lt_zero _)
  | succ bound ih =>
      by_cases undue : ∀ alarm ∈ (world.system.ledger.members queue).head?,
          world.system.ledger.isDue reading alarm = false
      · have held := threaded.fireFirst_undue undue
        have applied : world.apply (.fireFirst queue reading) = (none, world) := by
          rw [World.apply, Command.apply, held]
        refine ⟨world, [], drain_run_of_undue held, ?_, List.nil_sublist _⟩
        have none : world.system.since world.system = [] := System.since_eq rfl
        rw [drain_succ, occurrences, applied]
        dsimp only
        rw [none]
        rfl
      · simp only [not_forall, Bool.not_eq_false] at undue
        obtain ⟨alarm, first, due⟩ := undue
        obtain ⟨others, front⟩ := List.head?_eq_some_iff.mp first
        obtain ⟨later, round⟩ := drain_fires_front threaded sound meanwhile granted front due
        have fewer := round.due.length_le
        rw [List.length_cons] at fewer
        obtain ⟨after, fired, run, firings, among⟩ :=
          ih round.threaded round.sound round.meanwhile round.granted (by omega)
        refine ⟨after, alarm :: fired, round.run.trans run, ?_, (among.cons_cons alarm).trans round.due⟩
        rw [round.firings, firings, List.map_cons]

theorem check_wanes (threaded : world.system.Threaded) (sound : world.system.ledger.Sound)
    (meanwhile : (check bound queue).Meanwhile (entersLater queue reading) environment world) :
    System.Wanes queue reading world.system ((check bound queue).run environment world).2.system := by
  refine (check_uses bound queue).preserves (motive := System.Wanes queue reading world.system) meanwhile
    (.refl threaded sound) ?_ (fun wanes _ => wanes.begin _) fun wanes run => wanes.reaches run
  rintro system command wanes (⟨now, rfl⟩ | ⟨unconcerned, -⟩)
  · exact wanes.apply (System.entersLater_of_quiet (.fireFirst queue now) not_false _)
  · refine wanes.apply (System.entersLater_of_quiet _ (fun enqueues => unconcerned ?_) _)
    cases command with
    | insertAlarm => trivial
    | _ => exact enqueues.elim

private theorem check_ends (threaded : world.system.Threaded) (sound : world.system.ledger.Sound)
    (meanwhile : (check bound queue).Meanwhile (entersLater queue (world.system.queueNow queue)) environment
      world)
    (granted : (check bound queue).Granted environment world)
    (enough : (world.system.ledger.due queue (world.system.queueNow queue)).length < bound) :
    ∃ (delay : Tick) (checked : World σ) (fired : List Nat),
      (check bound queue).run environment world = (.ok delay, checked) ∧
      Occurrence.firings ((check bound queue).occurrences .call environment world) =
        fired.map (·, world.system.queueNow queue) ∧
      fired.Sublist (world.system.ledger.due queue (world.system.queueNow queue)) := by
  rw [check_eq] at meanwhile granted ⊢
  obtain ⟨draining, -⟩ := meanwhile_bind.mp meanwhile
  obtain ⟨grants, -⟩ := granted_bind.mp granted
  obtain ⟨checked, fired, run, firings, among⟩ := drain_ends threaded sound draining grants enough
  change (drain queue (world.system.ledger.now queue) bound).run environment world = _ at run
  let delay := reported (world.system.ledger.now queue) (checked.system.alarms.nextDeadline? queue)
  refine ⟨delay, checked, fired, ?_, ?_, among⟩
  · rw [Activity.run, run_bind, run]
    rfl
  · rw [occurrences, occurrences_bind, run, Occurrence.firings_append]
    exact (List.append_nil _).trans firings

/-- A check takes an alarm off a queue by firing it only. -/
private theorem check_removes_nothing (alarm : Nat) :
    ((check bound queue).occurrences .call environment world).countP (Occurrence.isRemovalOf alarm) = 0 := by
  refine (check_uses bound queue).occurrences_call (fun system command allowed => ?_) ?_
  · refine command.countP_since (fun occurrence noted => ?_) (fun _ => rfl) (fun _ _ => rfl) system
    cases occurrence with
    | withdrawn other =>
        obtain ⟨place, rfl⟩ := noted
        rcases allowed with ⟨now, same⟩ | ⟨unconcerned, -⟩
        · cases same
        · exact absurd trivial unconcerned
    | dropped other wasQueued =>
        cases noted
        rcases allowed with ⟨now, same⟩ | ⟨unconcerned, -⟩
        · cases same
        · exact absurd trivial unconcerned
    | _ => rfl
  · rintro system request ⟨observer, token, rfl⟩
    exact Request.countP_since _ rfl (fun _ => rfl) system

private theorem check_reaches
    (meanwhile : (check bound queue).Meanwhile (entersLater queue reading) environment world) :
    Reaches anything world.system ((check bound queue).run environment world).2.system := by
  have strides : (check bound queue).Strides (fun _ => True) .nothing :=
    (check_ordinary bound queue).mono fun _ _ => trivial
  exact strides.reaches (fun request before => before.begin (fun _ _ => trivial) request)
    (meanwhile.mono fun _ _ _ => trivial) (.refl _)

/-- Where one window holds everything, a check that returns leaves nothing that was due when it began. Each
such alarm was posted once, by the check or by others, or others removed or dropped it. -/
private theorem check_settles {delay : Tick} {checked : World σ}
    (holds : world.system.Anchored queue reading)
    (still : world.system.queueNow queue = reading)
    (later : (check bound queue).Meanwhile (entersLater queue reading) environment world)
    (meanwhile : (check bound queue).Meanwhile (anchored queue reading) environment world)
    (returned : (check bound queue).run environment world = (.ok delay, checked)) :
    checked.system.ledger.due queue reading = [] ∧
      ∀ alarm ∈ world.system.ledger.due queue reading, alarm ∉ checked.system.alarms.members queue ∧
        (checked.system.since world.system).countP (Occurrence.isPostBy alarm) +
          ((check bound queue).occurrences .others environment world).countP
            (Occurrence.isRemovalOf alarm) = 1 := by
  subst still
  have wanes := check_wanes holds.threaded holds.sound later
  have accounts := System.Accounts.reaches holds.threaded (check_reaches later)
  have counted := fun counts => later.countP_history counts
  rw [returned] at wanes accounts counted
  dsimp only at wanes accounts counted
  obtain ⟨-, rests⟩ := check_rests meanwhile holds returned
  have undue : ∀ alarm ∈ checked.system.ledger.members queue,
      checked.system.ledger.isDue (world.system.queueNow queue) alarm = false := by
    intro alarm queued
    obtain ⟨some, least⟩ := rests alarm queued
    have positive : delay.toNat ≠ 0 := fun zero => some (UInt32.toNat_inj.mp zero)
    rw [Ledger.isDue, Tick.isDue, decide_eq_false_iff_not]
    omega
  have none : checked.system.ledger.due queue (world.system.queueNow queue) = [] :=
    List.filter_eq_nil_iff.mpr fun alarm queued => Bool.eq_false_iff.mp (undue alarm queued)
  refine ⟨none, fun alarm member => ?_⟩
  have lapses := (holds.sound.lapses member).extends wanes.extend
  have left : alarm ∉ checked.system.ledger.members queue := by
    intro queued
    have ahead := undue alarm queued
    rw [lapses.due] at ahead
    cases ahead
  have loose : ¬ checked.system.ledger.Holds alarm := by
    rintro ⟨place, queued⟩
    have same := wanes.sound.belongs place alarm queued
    rw [lapses.belongs] at same
    exact left (same ▸ queued)
  have queued : world.system.ledger.Holds alarm := ⟨queue, (List.mem_filter.mp member).1⟩
  have balance := accounts.balance alarm
  rw [holds.threaded.presence_eq_one queued, wanes.threaded.presence_eq_zero loose,
    wanes.entries alarm (holds.sound.lapses member), Occurrence.countP_exits,
    ← accounts.posts] at balance
  -- The check itself only fires, so what was removed or dropped was so by others.
  have others := counted (Occurrence.isRemovalOf alarm)
  rw [← accounts.continues.since_append, List.countP_append, check_removes_nothing] at others
  exact ⟨left, by omega⟩

/-- Whatever a check calls may remove and drop alarms, check again and move the clock on, and it may add
alarms that are not due at the tick which the check read when it began. If it returns each time, the check
ends. The loop of the check fires only alarms that were in the queue and due at that tick, in their order
and each at most once, and it fires them for that tick. None of them was added meanwhile. If one window of
ticks holds all deadlines and ticks, nothing is left in the queue that was due. Each alarm that was has been
posted once, or else others have removed or dropped it before. -/
theorem reentrant_check_ends {setup : Setup} {queue : Nat} {σ : Type} {environment : Environment σ}
    {world : World σ} {bound : Nat} (run : Reaches proper setup.system world.system)
    (enough : (world.system.ledger.due queue (world.system.queueNow queue)).length < bound)
    (later : (check bound queue).Meanwhile (entersLater queue (world.system.queueNow queue)) environment
      world)
    (granted : (check bound queue).Granted environment world) :
    let call := check bound queue
    let reading := world.system.queueNow queue
    let due := world.system.ledger.due queue reading
    ∃ (delay : Tick) (checked : World σ) (fired : List Nat),
      call.run environment world = (.ok delay, checked) ∧
      Occurrence.firings (call.occurrences .call environment world) = fired.map (·, reading) ∧
      fired.Sublist due ∧ due.Nodup ∧
      (∀ alarm ∈ due, ∀ position, .queued alarm position ∉ checked.system.since world.system) ∧
      (Leads (windowed queue) setup.system world.system →
        call.Meanwhile (anchored queue reading) environment world →
        checked.system.ledger.due queue reading = [] ∧
        ∀ alarm ∈ due, alarm ∉ checked.system.alarms.members queue ∧
          (checked.system.since world.system).countP (Occurrence.isPostBy alarm) +
            (call.occurrences .others environment world).countP (Occurrence.isRemovalOf alarm) = 1) := by
  intro call reading due
  obtain ⟨threaded, sound⟩ := run.sound setup.threaded setup.sound
  obtain ⟨delay, checked, fired, returned, firings, among⟩ :=
    check_ends threaded sound later granted enough
  refine ⟨delay, checked, fired, returned, firings, among, (threaded.nodup queue).filter _, ?_, ?_⟩
  · have wanes := check_wanes threaded sound later
    rw [returned] at wanes
    intro alarm member position entered
    have none := List.countP_eq_zero.mp (wanes.entries alarm (sound.lapses member)) _ entered
    exact none (decide_eq_true rfl)
  · intro leads meanwhile
    obtain ⟨-, -, ordered, base, within⟩ := leads.ordered setup.threaded setup.sound
      (setup.ordered queue) ⟨_, setup.within queue⟩
    have holds : world.system.Anchored queue reading :=
      ⟨threaded, sound, ordered, base, within, within.now⟩
    exact check_settles holds rfl later meanwhile returned

/-- The queue that a command enters an alarm into, and the alarm. -/
def entry? : Command → Option (Nat × Nat)
  | .insertAlarm queue alarm => some (queue, alarm)
  | _ => none

/-- A command that enters only alarms that exist, into their own queues and before they are due, and that
stays in a window. -/
def Admits (queue : Nat) (base reading : Tick) (system : System) (command : Command) : Prop :=
  (∀ entry ∈ entry? command, entry.2 < system.ledger.count ∧
    (system.ledger.alarm entry.2).queue = entry.1 ∧ system.ledger.isDue reading entry.2 = false) ∧
  let next := (command.apply system).2
  Tick.InWindow base (next.queueNow queue) ∧ Tick.InWindow base reading ∧
    ∀ alarm ∈ next.alarms.members queue, Tick.InWindow base (next.alarms.alarms.get alarm).deadline

instance (queue : Nat) (base reading : Tick) (system : System) :
    DecidablePred (Admits queue base reading system) := fun _ =>
  inferInstanceAs (Decidable (_ ∧ _ ∧ _ ∧ _))

private theorem Admits.allowed {base : Tick} {system : System} {command : Command}
    (admits : Admits queue base reading system command) :
    anchored queue reading system command ∧ entersLater queue reading system command := by
  obtain ⟨entry, now, near, deadlines⟩ := admits
  have proper : system.ledger.Proper command := by
    cases command with
    | insertAlarm place alarm =>
        obtain ⟨exist, belongs, -⟩ := entry (place, alarm) rfl
        exact ⟨exist, belongs⟩
    | _ => trivial
  refine ⟨⟨proper, base, ⟨now, deadlines⟩, near⟩, proper, ?_⟩
  rintro alarm rfl
  exact (entry (queue, alarm) rfl).2.2

/-- The first alarm that is due has an observer. It takes off the second one, adds one that is due later,
moves the clock on, and checks again, which fires the third one. -/
theorem busy_observer_leaves_undue :
    let setup : Setup := { clocks := [5], signals := [.host, .host, .host, .host], queues := [{}] }
    let commands : List Command := [.attach 0 (.custom 0) 7, .createAlarm 0 (.shared 0) 1 true,
      .createAlarm 0 (.shared 1) 2 true, .createAlarm 0 (.shared 2) 3 true,
      .createAlarm 0 (.shared 3) 20 true, .insertAlarm 0 0, .insertAlarm 0 1, .insertAlarm 0 2]
    let system := setup.system.applyAll commands
    let environment : Environment Unit := fun request world => (.ok (), { world with
      system := (request.begin world.system).stridesWhile (Admits 0 0 5)
        [.withdrawAlarm 0 1, .insertAlarm 0 3, .advance 0 4, .fireFirst 0 9] })
    let world : World Unit := { system, outside := () }
    let call := check 4 0
    let checked := (call.run environment world).2
    Leads (windowed 0) setup.system system ∧ system.ledger.due 0 (system.queueNow 0) = [0, 1, 2] ∧
      call.run environment world = (.ok 15, checked) ∧ checked.system.alarms.members 0 = [3] ∧
      checked.system.queueNow 0 = 9 ∧
      Occurrence.firings (call.occurrences .call environment world) = [(0, 5)] ∧
      ∀ alarm ∈ [0, 1, 2], (checked.system.since system).countP (Occurrence.isPostBy alarm) +
        (call.occurrences .others environment world).countP (Occurrence.isRemovalOf alarm) = 1 := by
  intro setup commands system environment world call checked
  have leads : Leads (windowed 0) setup.system system := by
    refine Leads.applyAll ⟨⟨trivial, 0, ?_⟩, ⟨trivial, 0, ?_⟩, ⟨trivial, 0, ?_⟩, ⟨trivial, 0, ?_⟩,
      ⟨trivial, 0, ?_⟩, ⟨⟨?_, ?_⟩, 0, ?_⟩, ⟨⟨?_, ?_⟩, 0, ?_⟩, ⟨⟨?_, ?_⟩, 0, ?_⟩, trivial⟩
    all_goals first | decide | exact ⟨by decide, by decide⟩
  have run : Reaches proper setup.system system := by
    change Reaches proper setup.system (setup.system.strides commands)
    refine .strides
      ⟨trivial, trivial, trivial, trivial, trivial, ⟨?_, ?_⟩, ⟨?_, ?_⟩, ⟨?_, ?_⟩, trivial⟩
    all_goals decide
  have reading : system.queueNow 0 = 5 := by decide +kernel
  have due : system.ledger.due 0 5 = [0, 1, 2] := by decide +kernel
  have reported : (call.run environment world).1 = .ok 15 := by decide +kernel
  have left : checked.system.alarms.members 0 = [3] := by decide +kernel
  have late : checked.system.queueNow 0 = 9 := by decide +kernel
  have own : Occurrence.firings (call.occurrences .call environment world) = [(0, 5)] := by decide +kernel
  clear_value system
  have returned : call.run environment world = (.ok 15, checked) := Prod.ext reported rfl
  clear_value checked
  have meanwhile : call.Meanwhile (fun now command => anchored 0 5 now command ∧
      entersLater 0 5 now command) environment world :=
    .of_answers fun _ _ => .stridesWhile (fun _ _ => Admits.allowed) _ _
  have granted : call.Granted environment world := .of_answers fun _ _ => rfl
  have few : (world.system.ledger.due 0 (world.system.queueNow 0)).length < 4 := by
    change (system.ledger.due 0 (system.queueNow 0)).length < 4
    rw [reading, due]
    decide
  have later : call.Meanwhile (entersLater 0 (world.system.queueNow 0)) environment world := by
    change call.Meanwhile (entersLater 0 (system.queueNow 0)) environment world
    rw [reading]
    exact meanwhile.mono fun _ _ allowed => allowed.2
  have within : call.Meanwhile (anchored 0 (world.system.queueNow 0)) environment world := by
    change call.Meanwhile (anchored 0 (system.queueNow 0)) environment world
    rw [reading]
    exact meanwhile.mono fun _ _ allowed => allowed.1
  obtain ⟨delay, ended, fired, same, -, -, -, -, settles⟩ := reentrant_check_ends run few later granted
  cases same.symm.trans returned
  rw [← reading] at due
  obtain ⟨-, settled⟩ := settles leads within
  refine ⟨leads, due, returned, left, late, own, fun alarm member => ?_⟩
  exact (settled alarm (due.symm ▸ member)).2

end Alarms

end TimedWaits
