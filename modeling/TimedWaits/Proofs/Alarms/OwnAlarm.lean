import TimedWaits.Proofs.Alarms.Order
import TimedWaits.Proofs.Runs.Surroundings

/-! The alarm that a timed wait makes for itself. Nobody else can handle it, so it stays in its queue
until a check fires it, and it fires once. -/

set_option autoImplicit false

namespace TimedWaits

/-- Nothing but existing alarms enters a queue, and those only their own. -/
def proper : Conduct := fun system command => system.ledger.Proper command

theorem Reaches.sound {first last : System} (reaches : Reaches proper first last)
    (threaded : first.Threaded) (sound : first.ledger.Sound) :
    last.Threaded ∧ last.ledger.Sound := by
  have leads : Leads (fun ledger command _ => ledger.Proper command) first last :=
    reaches.leads (fun _ _ allowed => allowed) fun _ _ _ => trivial
  exact leads.preserves threaded sound fun sound step allowed => sound.step step allowed

/-- A command that puts an alarm into a queue, takes it off one or drops it. -/
def Command.Handles (alarm : Nat) : Command → Prop
  | .insertAlarm _ other | .withdrawAlarm _ other | .dropAlarm other => other = alarm
  | _ => False

def Occurrence.isPostBy (alarm : Nat) : Occurrence → Bool
  | .posted _ (some other) => other = alarm
  | _ => false

namespace System

/-- How many posts an alarm made. -/
def postsBy (system : System) (alarm : Nat) : Nat :=
  system.history.countP (Occurrence.isPostBy alarm)

theorem postsBy_eq (system : System) (alarm : Nat) :
    system.postsBy alarm = system.ledger.posts.countP fun post => post.1 = alarm := by
  change _ = (system.history.filterMap Occurrence.alarmPost?).countP _
  rw [List.countP_filterMap, postsBy]
  congr 1
  funext occurrence
  cases occurrence with
  | posted signal poster => cases poster <;> rfl
  | _ => rfl

/-- An alarm that is yet to be made has posted nothing. -/
theorem postsBy_count {system : System} (sound : system.ledger.Sound) :
    system.postsBy system.ledger.count = 0 := by
  rw [postsBy_eq, List.countP_eq_zero]
  intro post member
  simpa using Nat.ne_of_lt (sound.posted post member)

private theorem Threaded.fired_of_due {system : System} {queue alarm : Nat} {now : Tick} {rest : List Nat}
    (threaded : system.Threaded) (front : system.ledger.members queue = alarm :: rest)
    (due : system.ledger.isDue now alarm = true) :
    .fired alarm now ∈ (system.fireFirst queue now).2.since system := by
  obtain ⟨lists, popped, -⟩ := LinkedLists.Spells.popFront? threaded front
  have accepted := LinkedLists.Spells.popFrontIf?_eq threaded queue (system.ledger.isDue now)
  change system.alarms.lists.popFrontIf? queue
    (fun alarm => Tick.isDue (system.alarms.alarms.get alarm).deadline now) = _ at accepted
  change system.timing.alarms.members queue = _ at front
  rw [front, List.head?_cons, Option.any_some, if_pos due, popped] at accepted
  have continues := (Continues.refl system).apply (.fireFirst queue now)
  obtain ⟨notes, history⟩ : ∃ notes,
      (system.fireFirst queue now).2.history = (notes ++ [.fired alarm now]) ++ system.history := by
    simp only [fireFirst, accepted, beginPost]
    split
    · exact ⟨[_, _], rfl⟩
    · exact ⟨[_], rfl⟩
  have same : (system.fireFirst queue now).2.since system = notes ++ [.fired alarm now] :=
    List.append_cancel_right (continues.since_append.trans history)
  rw [same]
  exact List.mem_append_right notes List.mem_cons_self

end System

namespace Ledger

variable {ledger next : Ledger} {queue alarm : Nat} {command : Command}

theorem mem_withdraw {other removed : Nat} (queued : alarm ∈ ledger.members queue)
    (differ : alarm ≠ removed) : alarm ∈ (ledger.withdraw other removed).members queue := by
  by_cases same : queue = other
  · subst same
    rw [Ledger.withdraw, members_setMembers_self]
    exact (List.mem_erase_of_ne differ).mpr queued
  · rwa [Ledger.withdraw, members_setMembers_of_ne same]

private theorem Step.keeps_member (step : ledger.Step command next) (nodup : (ledger.members queue).Nodup)
    (queued : alarm ∈ ledger.members queue)
    (belongs : ∀ other, alarm ∈ ledger.members other → other = queue)
    (spared : ¬ command.Handles alarm) :
    (alarm ∈ next.members queue ∧ next.posts.countP (·.1 = alarm) = ledger.posts.countP (·.1 = alarm)) ∨
      ∃ now rest, command = .fireFirst queue now ∧ ledger.members queue = alarm :: rest ∧
        ledger.isDue now alarm = true ∧ next = ledger.fire queue alarm rest := by
  cases step with
  | @insert entered other loose =>
      refine .inl ⟨?_, rfl⟩
      by_cases same : queue = entered
      · subst same
        exact mem_insert.mpr (.inr queued)
      · change alarm ∈ (ledger.setMembers entered _).members queue
        rwa [members_setMembers_of_ne same]
  | @fire fired other now rest front due =>
      by_cases own : other = alarm
      · subst own
        have same : fired = queue := belongs fired (front ▸ List.mem_cons_self)
        subst same
        exact .inr ⟨now, rest, rfl, front, due, rfl⟩
      · refine .inl ⟨?_, List.countP_cons_of_neg (by simpa using own)⟩
        change alarm ∈ (ledger.setMembers fired rest).members queue
        by_cases same : queue = fired
        · subst same
          rw [members_setMembers_self]
          rw [front, List.mem_cons] at queued
          exact queued.resolve_left (Ne.symm own)
        · rwa [members_setMembers_of_ne same]
  | withdraw other removed => exact .inl ⟨mem_withdraw queued (Ne.symm spared), rfl⟩
  | drop removed => exact .inl ⟨mem_withdraw queued (Ne.symm spared), rfl⟩
  | _ => exact .inl ⟨queued, rfl⟩

private theorem not_mem_fire {rest : List Nat} (nodup : (ledger.members queue).Nodup)
    (belongs : ∀ other, alarm ∈ ledger.members other → other = queue)
    (front : ledger.members queue = alarm :: rest) (other : Nat) :
    alarm ∉ (ledger.fire queue alarm rest).members other := by
  change alarm ∉ (ledger.setMembers queue rest).members other
  by_cases same : other = queue
  · subst same
    rw [front, List.nodup_cons] at nodup
    rw [members_setMembers_self]
    exact nodup.1
  · rw [members_setMembers_of_ne same]
    exact fun member => same (belongs other member)

theorem Step.keeps_loose (step : ledger.Step command next)
    (loose : ∀ queue, alarm ∉ ledger.members queue) (spared : ¬ command.Handles alarm) :
    (∀ queue, alarm ∉ next.members queue) ∧
      next.posts.countP (·.1 = alarm) = ledger.posts.countP (·.1 = alarm) := by
  constructor
  · intro queue queued
    rcases step.members queue with fewer | ⟨entered, rfl, rfl, -⟩
    · exact loose queue (fewer.subset queued)
    · rcases mem_insert.mp queued with same | former
      · exact spared same.symm
      · exact loose queue former
  · rcases step.posts with same | ⟨queue, other, fired, added⟩
    · rw [same]
    · have differ : other ≠ alarm := fun same => loose queue (same ▸ fired)
      rw [added]
      exact List.countP_cons_of_neg (by simpa using differ)

end Ledger

namespace Alarms

/-- The alarm of a wait is in its queue and has posted nothing. -/
structure Stands (alarm queue : Nat) (system : System) : Prop where
  queued : alarm ∈ system.ledger.members queue
  silent : system.postsBy alarm = 0

/-- The alarm of a wait is in no queue any more: it posted once, when it was fired at a tick at which
its deadline was due. -/
structure Elapsed (alarm : Nat) (deadline : Tick) (start system : System) : Prop where
  loose : ∀ queue, alarm ∉ system.ledger.members queue
  posted : system.postsBy alarm = 1
  fired : ∃ tick, .fired alarm tick ∈ system.since start ∧ Tick.isDue deadline tick = true

/-- How things are with the alarm of a wait that began in a given system. -/
structure Tracked (alarm queue : Nat) (deadline : Tick) (start system : System) : Prop where
  threaded : system.Threaded
  sound : system.ledger.Sound
  continues : system.Continues start
  exist : alarm < system.ledger.count
  belongs : (system.ledger.alarm alarm).queue = queue
  ends : system.ledger.deadline alarm = deadline
  state : Stands alarm queue system ∨ Elapsed alarm deadline start system

variable {alarm queue : Nat} {deadline : Tick} {start system : System}

theorem Elapsed.of_continues {later : System} (elapsed : Elapsed alarm deadline start system)
    (before : system.Continues start) (after : later.Continues system)
    (loose : ∀ queue, alarm ∉ later.ledger.members queue)
    (posts : later.postsBy alarm = system.postsBy alarm) :
    Elapsed alarm deadline start later where
  loose := loose
  posted := posts.trans elapsed.posted
  fired := by
    obtain ⟨tick, fired, due⟩ := elapsed.fired
    refine ⟨tick, ?_, due⟩
    rw [before.since_trans after]
    exact List.mem_append_right _ fired

/-- A command that does not handle the alarm of a wait leaves it standing, or fires it. -/
theorem Tracked.apply (tracked : Tracked alarm queue deadline start system) (command : Command)
    (proper : system.ledger.Proper command) (spared : ¬ command.Handles alarm) :
    Tracked alarm queue deadline start (command.apply system).2 := by
  obtain ⟨step, kept⟩ := command.step_apply tracked.threaded
  have extend := step.extends
  have onward := (System.Continues.refl system).apply command
  refine ⟨kept, tracked.sound.step step proper, tracked.continues.trans onward,
    Nat.lt_of_lt_of_le tracked.exist extend.count,
    (extend.queue alarm tracked.exist).trans tracked.belongs,
    (extend.deadline alarm tracked.exist).trans tracked.ends, ?_⟩
  rcases tracked.state with stands | elapsed
  · have belongs : ∀ other, alarm ∈ system.ledger.members other → other = queue :=
      fun other member => tracked.threaded.disjoint member stands.queued
    rcases step.keeps_member (tracked.threaded.nodup queue) stands.queued belongs spared with
      ⟨queued, posts⟩ | ⟨now, rest, rfl, front, due, next⟩
    · refine .inl ⟨queued, ?_⟩
      rw [System.postsBy_eq, posts, ← System.postsBy_eq, stands.silent]
    · refine .inr ⟨?_, ?_, now, ?_, ?_⟩
      · intro other member
        rw [next] at member
        exact Ledger.not_mem_fire (tracked.threaded.nodup queue) belongs front other member
      · have silent := stands.silent
        rw [System.postsBy_eq] at silent
        rw [System.postsBy_eq, next]
        exact (List.countP_cons_of_pos (by simp)).trans (congrArg Nat.succ silent)
      · rw [tracked.continues.since_trans onward]
        exact List.mem_append_left _ (tracked.threaded.fired_of_due front due)
      · rw [← tracked.ends]
        exact due
  · obtain ⟨loose, posts⟩ := step.keeps_loose elapsed.loose spared
    refine .inr (elapsed.of_continues tracked.continues onward loose ?_)
    rw [System.postsBy_eq, posts, ← System.postsBy_eq]

theorem Tracked.note (tracked : Tracked alarm queue deadline start system) (occurrence : Occurrence)
    (aside : occurrence.IsAside) :
    Tracked alarm queue deadline start (system.record occurrence) := by
  have ledger := system.ledger_record aside
  have onward := (System.Continues.refl system).record occurrence
  have posts : (system.record occurrence).postsBy alarm = system.postsBy alarm := by
    rw [System.postsBy_eq, ledger, ← System.postsBy_eq]
  refine ⟨tracked.threaded.record aside, ledger ▸ tracked.sound, tracked.continues.trans onward,
    ledger ▸ tracked.exist, ledger ▸ tracked.belongs, ledger ▸ tracked.ends, ?_⟩
  rcases tracked.state with stands | elapsed
  · exact .inl ⟨ledger ▸ stands.queued, posts.trans stands.silent⟩
  · exact .inr (elapsed.of_continues tracked.continues onward (ledger ▸ elapsed.loose) posts)

theorem alarm_createAlarm (threaded : start.Threaded) (queue : Nat) (signal : SignalRef)
    (deadline : Tick) (owned : Bool) :
    (start.createAlarm queue signal deadline owned).2.ledger.alarm start.ledger.count =
      { queue, signal, deadline } := by
  rw [(threaded.createAlarm queue signal deadline owned).1]
  exact Function.update_self _ _ _

/-- The alarm that a wait has just made and inserted stands in its queue. -/
theorem tracked_of_entry (threaded : start.Threaded) (sound : start.ledger.Sound) (queue : Nat)
    (signal : SignalRef) (deadline : Tick) :
    let made := (start.createAlarm queue signal deadline false).2
    Tracked start.ledger.count queue deadline start (made.insertAlarm queue start.ledger.count).2 := by
  intro made
  let alarm := start.ledger.count
  obtain ⟨created, kept⟩ := threaded.createAlarm queue signal deadline false
  have own : made.ledger.alarm alarm = { queue, signal, deadline } :=
    alarm_createAlarm threaded queue signal deadline false
  have exist : alarm < made.ledger.count := created ▸ Nat.lt_succ_self _
  have loose : ∀ other, alarm ∉ made.ledger.members other := by
    intro other queued
    rw [created] at queued
    exact Nat.lt_irrefl _ (sound.stored other _ queued)
  obtain ⟨-, inserted, threadedLast⟩ := kept.insertAlarm_loose queue loose
  have soundMade : made.ledger.Sound := created ▸ sound.step (.create queue signal deadline false) trivial
  have proper : made.ledger.Proper (.insertAlarm queue alarm) := ⟨exist, by rw [own]⟩
  have continues := ((System.Continues.refl start).apply
    (.createAlarm queue signal deadline false)).apply (.insertAlarm queue alarm)
  have silent : ((made.insertAlarm queue alarm).2).postsBy alarm = 0 := by
    rw [System.postsBy_eq, inserted]
    change (made.ledger.posts.countP _) = 0
    rw [created]
    exact (System.postsBy_eq start alarm).symm.trans (System.postsBy_count sound)
  refine ⟨threadedLast, inserted ▸ soundMade.step (.insert queue loose) proper, continues,
    inserted ▸ exist, ?_, ?_, .inl ⟨?_, silent⟩⟩
  · rw [inserted]
    exact congrArg Alarm.queue own
  · rw [inserted]
    exact congrArg Alarm.deadline own
  · rw [inserted]
    exact Ledger.mem_insert.mpr (.inl rfl)

/-- What others may do while a call has alarms of its own: whatever puts alarms into their own queues
only and handles none of the call's. -/
def considerate (own : Nat → Prop) : Conduct := fun system command =>
  system.ledger.Proper command ∧ ∀ alarm, own alarm → ¬ command.Handles alarm

private theorem Tracked.reaches {own : Nat → Prop} {last : System}
    (tracked : Tracked alarm queue deadline start system) (mine : own alarm)
    (run : Reaches (considerate own) system last) : Tracked alarm queue deadline start last :=
  run.preserves_apply (motive := Tracked alarm queue deadline start) tracked
    (fun _ _ _ => ⟨trivial, fun _ _ => not_false⟩)
    (fun kept allowed => kept.apply _ allowed.1 (allowed.2 alarm mine)) fun kept aside => kept.note _ aside

private theorem Tracked.begin (tracked : Tracked alarm queue deadline start system) (request : Request) :
    Tracked alarm queue deadline start (request.begin system) := by
  cases request with
  | rearm log delay =>
      have noted := tracked.note (.rearmed log delay) trivial
      exact noted.apply (.addRearm log delay) trivial not_false
  | sleep clock delay =>
      have noted := tracked.note (.slept clock delay) trivial
      exact noted.apply (.advance clock delay) trivial not_false
  | observe | execute | idle => exact tracked.note _ trivial

section Calls

variable {σ α : Type} {environment : Environment σ} {world : World σ} {activity : Activity α}
  {commands : Command → Prop} {requests : Request → Prop} {own : Nat → Prop}

/-- An activity that handles no alarm leaves that of a wait to be fired. -/
theorem Tracked.uses (tracked : Tracked alarm queue deadline start world.system) (mine : own alarm)
    (uses : activity.Uses commands requests)
    (unconcerned : ∀ command, commands command → ¬ command.ConcernsAlarms)
    (meanwhile : activity.Meanwhile (considerate own) environment world) :
    Tracked alarm queue deadline start (activity.run environment world).2.system := by
  refine uses.preserves (motive := Tracked alarm queue deadline start) meanwhile tracked ?_
    (fun kept _ => kept.begin _) fun kept run => kept.reaches mine run
  intro system command kept allowed
  have none := unconcerned command allowed
  cases command with
  | insertAlarm | withdrawAlarm | dropAlarm => exact absurd trivial none
  | _ => exact kept.apply _ trivial not_false

end Calls

end Alarms

end TimedWaits
