import TimedWaits.Proofs.Alarms.OwnAlarm

/-! How alarms enter queues and leave them. Every command moves at most one alarm, notes which way it
went, and answers accordingly. An alarm that enters was in no queue, and one that leaves is in none
afterwards. -/

set_option autoImplicit false

namespace TimedWaits

namespace Occurrence

def isEntryOf (alarm : Nat) : Occurrence → Bool
  | .queued other _ => other = alarm
  | _ => false

def isFiringOf (alarm : Nat) : Occurrence → Bool
  | .fired other _ => other = alarm
  | _ => false

def isWithdrawalOf (alarm : Nat) : Occurrence → Bool
  | .withdrawn other => other = alarm
  | _ => false

/-- The drop of an alarm that is in its queue. -/
def isQueuedDropOf (alarm : Nat) : Occurrence → Bool
  | .dropped other true => other = alarm
  | _ => false

/-- An alarm leaves a queue because it is fired, withdrawn or dropped. -/
def isExitOf (alarm : Nat) : Occurrence → Bool
  | .fired other _ | .withdrawn other | .dropped other true => other = alarm
  | _ => false

/-- An alarm enters a queue, leaves one, or posts its signal. -/
def isPassage : Occurrence → Bool
  | .queued _ _ | .fired _ _ | .withdrawn _ | .dropped _ true | .posted _ (some _) => true
  | _ => false

theorem countP_isExitOf (alarm : Nat) (history : List Occurrence) :
    history.countP (isExitOf alarm) = history.countP (isFiringOf alarm) +
      history.countP (isWithdrawalOf alarm) + history.countP (isQueuedDropOf alarm) := by
  have parts : ∀ occurrence : Occurrence, (occurrence.isExitOf alarm).toNat =
      (occurrence.isFiringOf alarm).toNat + (occurrence.isWithdrawalOf alarm).toNat +
        (occurrence.isQueuedDropOf alarm).toNat := by
    intro occurrence
    cases occurrence with
    | dropped other wasQueued =>
        cases wasQueued with
        | false => rfl
        | true => exact (Nat.zero_add _).symm
    | withdrawn => exact (Nat.zero_add _).symm
    | _ => rfl
  induction history with
  | nil => rfl
  | cons occurrence rest ih =>
      have weight (counts : Bool) : counts.toNat = if counts then 1 else 0 := by cases counts <;> rfl
      have part := parts occurrence
      simp only [weight] at part
      simp only [List.countP_cons, ih]
      omega

theorem countP_filter_isPassage {counts : Occurrence → Bool} (history : List Occurrence)
    (passages : ∀ occurrence, counts occurrence = true → occurrence.isPassage = true) :
    (history.filter isPassage).countP counts = history.countP counts := by
  rw [List.countP_filter]
  refine List.countP_congr fun occurrence _ => ?_
  rw [Bool.and_eq_true]
  exact and_iff_left_of_imp (passages occurrence)

theorem any_filter_isPassage {counts : Occurrence → Bool} (history : List Occurrence)
    (passages : ∀ occurrence, counts occurrence = true → occurrence.isPassage = true) :
    (history.filter isPassage).any counts = history.any counts := by
  rw [List.any_filter]
  refine congrArg (List.any history) (funext fun occurrence => ?_)
  rw [Bool.eq_iff_iff, Bool.and_eq_true]
  exact and_iff_right_of_imp (passages occurrence)

theorem isPassage_of_isEntryOf {alarm : Nat} {occurrence : Occurrence}
    (entry : occurrence.isEntryOf alarm = true) : occurrence.isPassage = true := by
  cases occurrence <;> first | rfl | cases entry

theorem isPassage_of_isExitOf {alarm : Nat} {occurrence : Occurrence}
    (exit : occurrence.isExitOf alarm = true) : occurrence.isPassage = true := by
  cases occurrence with
  | dropped other wasQueued => cases wasQueued <;> first | rfl | cases exit
  | _ => first | rfl | cases exit

theorem isPassage_of_isFiringOf {alarm : Nat} {occurrence : Occurrence}
    (firing : occurrence.isFiringOf alarm = true) : occurrence.isPassage = true := by
  cases occurrence <;> first | rfl | cases firing

theorem isPassage_of_isPostBy {alarm : Nat} {occurrence : Occurrence}
    (post : occurrence.isPostBy alarm = true) : occurrence.isPassage = true := by
  cases occurrence with
  | posted signal poster => cases poster <;> first | rfl | cases post
  | _ => cases post

end Occurrence

/-- Whether the reply of a command says that an alarm entered or left a queue. A drop says nothing. -/
def Command.tellsPassage : (command : Command) → command.Reply → Bool
  | .insertAlarm _ _, position => position.isSome
  | .fireFirst _ _, fired => fired.isSome
  | .withdrawAlarm _ _, withdrawn => withdrawn
  | _, _ => false

namespace Ledger

/-- Whether an alarm is in a queue. -/
def Holds (ledger : Ledger) (alarm : Nat) : Prop := ∃ queue, alarm ∈ ledger.members queue

/-- How a command that gives a reply moves an alarm, and what it notes of that, the latest first. -/
inductive Passes (ledger next : Ledger) :
    (command : Command) → command.Reply → List Occurrence → Prop where
  | stays {command : Command} {reply : command.Reply} (members : next.members = ledger.members)
      (refused : command.tellsPassage reply = false) : Passes ledger next command reply []
  | enters {queue alarm position : Nat} (loose : ¬ ledger.Holds alarm)
      (members : next.members = (ledger.insert queue alarm).members) :
      Passes ledger next (.insertAlarm queue alarm) (some position) [.queued alarm position]
  | fires {queue alarm : Nat} {now : Tick} {fired : FiredAlarm}
      (first : (ledger.members queue).head? = some alarm) (due : ledger.isDue now alarm = true)
      (members : next.members = (ledger.withdraw queue alarm).members) :
      Passes ledger next (.fireFirst queue now) (some fired)
        [.posted (ledger.alarm alarm).signal (some alarm), .fired alarm now]
  | withdraws {queue alarm : Nat} (member : alarm ∈ ledger.members queue)
      (members : next.members = (ledger.withdraw queue alarm).members) :
      Passes ledger next (.withdrawAlarm queue alarm) true [.withdrawn alarm]
  | drops {alarm : Nat} (member : alarm ∈ ledger.members (ledger.alarm alarm).queue)
      (members : next.members = (ledger.withdraw (ledger.alarm alarm).queue alarm).members) :
      Passes ledger next (.dropAlarm alarm) () [.dropped alarm true]

end Ledger

/-! ### What commands note of alarms -/

/-- The firing of the first alarm of a queue: the alarm is taken off the queue, and when it is in no
queue any more its signal is posted. -/
structure System.Fires (system : System) (queue alarm : Nat) (now : Tick) (unqueued : System) :
    Prop where
  first : (system.alarms.members queue).head? = some alarm
  due : Tick.isDue (system.alarms.alarms.get alarm).deadline now = true
  members : unqueued.alarms.members =
    Function.update system.alarms.members queue (system.alarms.members queue).tail
  loose : ∀ other, alarm ∉ unqueued.alarms.members other
  alarms : unqueued.alarms.alarms = system.alarms.alarms
  signals : unqueued.signals = system.signals
  history : unqueued.history = .fired alarm now :: system.history
  posts : let record := system.alarms.alarms.get alarm
    let post := unqueued.beginPost record.signal (some alarm)
    system.fireFirst queue now = (some { deadline := record.deadline, attachment := post.1 }, post.2)

namespace System

variable {system : System} {queue alarm : Nat} {now : Tick}

theorem since_insertAlarm (system : System) (queue alarm : Nat) :
    (system.insertAlarm queue alarm).2.since system =
      [match (system.insertAlarm queue alarm).1 with
        | none => .logged .alarmAlreadyQueued
        | some position => .queued alarm position] := by
  refine since_eq ?_
  simp only [insertAlarm]
  split <;> rfl

private theorem history_beginPost (system : System) (signal : SignalRef) (alarm : Option Nat) :
    ∃ raises : List Occurrence, raises.filter Occurrence.isPassage = [] ∧
      (system.beginPost signal alarm).2.history = raises ++ .posted signal alarm :: system.history := by
  unfold beginPost
  split
  · exact ⟨[.raised signal], rfl, rfl⟩
  · exact ⟨[], rfl, rfl⟩

theorem Threaded.fires (threaded : system.Threaded) {rest : List Nat}
    (front : system.ledger.members queue = alarm :: rest)
    (due : system.ledger.isDue now alarm = true) :
    ∃ unqueued, system.Fires queue alarm now unqueued := by
  obtain ⟨lists, popped, spells⟩ := LinkedLists.Spells.popFront? threaded front
  have accepted := LinkedLists.Spells.popFrontIf?_eq threaded queue (system.ledger.isDue now)
  have whole : system.alarms.members queue = alarm :: rest := front
  change system.alarms.lists.popFrontIf? queue
    (fun alarm => Tick.isDue (system.alarms.alarms.get alarm).deadline now) =
      if (system.alarms.members queue).head?.any _ then _ else _ at accepted
  rw [whole, List.head?_cons, Option.any_some, if_pos due, popped] at accepted
  have members : ({ system.alarms with lists } : Alarms).members =
      Function.update system.alarms.members queue rest := funext spells.members_eq
  refine ⟨{ system with alarms := { system.alarms with lists } }.record (.fired alarm now), ?_⟩
  refine ⟨by rw [whole, List.head?_cons], due, ?_, ?_, rfl, rfl, rfl, ?_⟩
  · rw [whole, List.tail_cons]
    exact members
  · intro other member
    change alarm ∈ ({ system.alarms with lists } : Alarms).members other at member
    rw [members] at member
    exact LinkedLists.Spells.not_mem_of_front threaded front other member
  · simp only [fireFirst, accepted]

theorem Fires.filter_since {unqueued : System} (fires : system.Fires queue alarm now unqueued) :
    ((system.fireFirst queue now).2.since system).filter Occurrence.isPassage =
      [.posted (system.ledger.alarm alarm).signal (some alarm), .fired alarm now] := by
  obtain ⟨raises, unrelated, posted⟩ :=
    unqueued.history_beginPost (system.alarms.alarms.get alarm).signal (some alarm)
  have history : (system.fireFirst queue now).2.history = (raises ++
      [.posted (system.ledger.alarm alarm).signal (some alarm), .fired alarm now]) ++
        system.history := by
    rw [fires.posts, List.append_assoc]
    exact posted.trans (by rw [fires.history]; rfl)
  rw [since_eq history, List.filter_append, unrelated]
  rfl

private theorem Threaded.withdrawAlarm_absent (threaded : system.Threaded)
    (absent : alarm ∉ system.ledger.members queue) :
    system.withdrawAlarm queue alarm = (false, system) := by
  have refused := LinkedLists.Spells.remove?_eq_none threaded absent
  change system.alarms.lists.remove? queue alarm = none at refused
  rw [System.withdrawAlarm, refused]

private theorem Threaded.withdrawAlarm_member (threaded : system.Threaded)
    (member : alarm ∈ system.ledger.members queue) :
    (system.withdrawAlarm queue alarm).1 = true ∧
      (system.withdrawAlarm queue alarm).2.since system = [.withdrawn alarm] := by
  obtain ⟨lists, removed, -⟩ := LinkedLists.Spells.remove? threaded member
  change system.alarms.lists.remove? queue alarm = some lists at removed
  rw [System.withdrawAlarm, removed]
  exact ⟨rfl, since_eq rfl⟩

private theorem Threaded.since_dropAlarm (threaded : system.Threaded) (alarm : Nat) :
    (system.dropAlarm alarm).since system =
      [.dropped alarm (decide (alarm ∈ system.ledger.members (system.ledger.alarm alarm).queue))] := by
  by_cases member : alarm ∈ system.ledger.members (system.ledger.alarm alarm).queue
  · obtain ⟨lists, removed, -⟩ := LinkedLists.Spells.remove? threaded member
    change system.alarms.lists.remove? (system.alarms.alarms.get alarm).queue alarm = _ at removed
    rw [decide_eq_true member, System.dropAlarm, removed]
    exact since_eq rfl
  · have refused := LinkedLists.Spells.remove?_eq_none threaded member
    change system.alarms.lists.remove? (system.alarms.alarms.get alarm).queue alarm = _ at refused
    rw [decide_eq_false member, System.dropAlarm, refused]
    exact since_eq rfl

end System

/-! ### Passages -/

/-- Whether a command may put an alarm into a queue or take one off. -/
def Command.MovesAlarms : Command → Prop
  | .insertAlarm _ _ | .fireFirst _ _ | .withdrawAlarm _ _ | .dropAlarm _ => True
  | _ => False

namespace Ledger

variable {ledger next : Ledger} {queue alarm : Nat} {command : Command}

private theorem members_fire {rest : List Nat} (front : ledger.members queue = alarm :: rest) :
    (ledger.fire queue alarm rest).members = (ledger.withdraw queue alarm).members := by
  rw [withdraw, front, List.erase_cons_head]
  rfl

theorem Step.members_of_unmoving (step : ledger.Step command next)
    (unmoving : ¬ command.MovesAlarms) : next.members = ledger.members := by
  cases step with
  | insert | fire | withdraw | drop => exact absurd trivial unmoving
  | _ => rfl

end Ledger

/-! ### What a passage changes -/

namespace Ledger

variable {ledger next : Ledger} {queue alarm other : Nat} {command : Command} {reply : command.Reply}
  {notes : List Occurrence}

theorem holds_of_members (members : next.members = ledger.members) :
    next.Holds alarm ↔ ledger.Holds alarm := by rw [Holds, members, Holds]

private theorem holds_insert :
    (ledger.insert queue alarm).Holds other ↔ other = alarm ∨ ledger.Holds other := by
  constructor
  · rintro ⟨place, member⟩
    by_cases same : place = queue
    · subst same
      exact (mem_insert.mp member).imp_right fun former => ⟨place, former⟩
    · exact .inr ⟨place, by rwa [insert, members_setMembers_of_ne same] at member⟩
  · rintro (rfl | ⟨place, former⟩)
    · exact ⟨queue, mem_insert.mpr (.inl rfl)⟩
    · by_cases same : place = queue
      · subst same
        exact ⟨place, mem_insert.mpr (.inr former)⟩
      · exact ⟨place, by rwa [insert, members_setMembers_of_ne same]⟩

/-- The queues hold no alarm twice. -/
structure Single (ledger : Ledger) : Prop where
  nodup : ∀ queue, (ledger.members queue).Nodup
  disjoint : ∀ {queue other alarm}, alarm ∈ ledger.members queue → alarm ∈ ledger.members other →
    queue = other

theorem holds_withdraw (single : ledger.Single) (member : alarm ∈ ledger.members queue) :
    (ledger.withdraw queue alarm).Holds other ↔ other ≠ alarm ∧ ledger.Holds other := by
  constructor
  · rintro ⟨place, remains⟩
    refine ⟨?_, place, (members_withdraw_sublist place queue alarm).subset remains⟩
    rintro rfl
    by_cases same : place = queue
    · subst same
      rw [withdraw, members_setMembers_self, (single.nodup place).mem_erase_iff] at remains
      exact remains.1 rfl
    · rw [withdraw, members_setMembers_of_ne same] at remains
      exact same (single.disjoint remains member)
  · rintro ⟨differ, place, former⟩
    exact ⟨place, mem_withdraw former differ⟩

theorem filter_insert {keep : Nat → Bool} (left : keep alarm = false) :
    ((ledger.insert queue alarm).members other).filter keep = (ledger.members other).filter keep := by
  by_cases same : other = queue
  · subst same
    have omitted : (alarm :: ledger.behind other alarm).filter keep =
        (ledger.behind other alarm).filter keep :=
      List.filter_cons_of_neg (by rw [left]; exact Bool.false_ne_true)
    rw [members_insert, List.filter_append, omitted, ← List.filter_append, ahead_append_behind]
  · rw [insert, members_setMembers_of_ne same]

theorem filter_withdraw (single : ledger.Single) {keep : Nat → Bool} (left : keep alarm = false) :
    ((ledger.withdraw queue alarm).members other).filter keep = (ledger.members other).filter keep := by
  by_cases same : other = queue
  · subst same
    rw [withdraw, members_setMembers_self, (single.nodup other).erase_eq_filter, List.filter_filter]
    refine List.filter_congr fun member _ => ?_
    by_cases mover : member = alarm
    · simp [mover, left]
    · simp [mover]
  · rw [withdraw, members_setMembers_of_ne same]

/-- What some notes say of an alarm is what became of it. -/
inductive Balances (ledger next : Ledger) (notes : List Occurrence) (alarm : Nat) : Prop where
  | same (held : next.Holds alarm ↔ ledger.Holds alarm)
      (entries : notes.countP (Occurrence.isEntryOf alarm) = 0)
      (exits : notes.countP (Occurrence.isExitOf alarm) = 0)
  | entered (before : ¬ ledger.Holds alarm) (after : next.Holds alarm)
      (entries : notes.countP (Occurrence.isEntryOf alarm) = 1)
      (exits : notes.countP (Occurrence.isExitOf alarm) = 0)
  | left (before : ledger.Holds alarm) (after : ¬ next.Holds alarm)
      (entries : notes.countP (Occurrence.isEntryOf alarm) = 0)
      (exits : notes.countP (Occurrence.isExitOf alarm) = 1)

theorem Passes.balances (passes : ledger.Passes next command reply notes) (single : ledger.Single)
    (alarm : Nat) : Balances ledger next notes alarm := by
  -- The three ways to leave a queue differ in their notes only.
  have leaves : ∀ {queue mover : Nat}, mover ∈ ledger.members queue →
      next.members = (ledger.withdraw queue mover).members →
      notes.countP (Occurrence.isEntryOf alarm) = 0 →
      notes.countP (Occurrence.isExitOf alarm) = (if mover = alarm then 1 else 0) →
      Balances ledger next notes alarm := by
    intro queue mover member members entries exits
    have held : next.Holds alarm ↔ alarm ≠ mover ∧ ledger.Holds alarm :=
      (holds_of_members members).trans (holds_withdraw single member)
    by_cases same : mover = alarm
    · subst same
      exact .left ⟨queue, member⟩ (fun still => (held.mp still).1 rfl) entries
        (exits.trans (if_pos rfl))
    · exact .same (held.trans (and_iff_right (Ne.symm same))) entries (exits.trans (if_neg same))
  cases passes with
  | stays members => exact .same (holds_of_members members) rfl rfl
  | @enters queue mover position loose members =>
      have held : next.Holds alarm ↔ alarm = mover ∨ ledger.Holds alarm :=
        (holds_of_members members).trans holds_insert
      by_cases same : mover = alarm
      · subst same
        exact .entered loose (held.mpr (.inl rfl)) (by simp [Occurrence.isEntryOf]) rfl
      · refine .same (held.trans (or_iff_right (Ne.symm same))) ?_ rfl
        simp [Occurrence.isEntryOf, same]
  | fires first _ members =>
      exact leaves (List.mem_of_head? first) members rfl
        (by simp [Occurrence.isExitOf, List.countP_cons])
  | withdraws member members =>
      exact leaves member members rfl (by simp [Occurrence.isExitOf, List.countP_cons])
  | drops member members =>
      exact leaves member members rfl (by simp [Occurrence.isExitOf, List.countP_cons])

/-- An alarm posts as it is fired. -/
theorem Passes.posts (passes : ledger.Passes next command reply notes) (alarm : Nat) :
    notes.countP (Occurrence.isPostBy alarm) = notes.countP (Occurrence.isFiringOf alarm) := by
  cases passes with
  | fires => simp [Occurrence.isPostBy, Occurrence.isFiringOf, List.countP_cons]
  | _ => rfl

/-- But for the alarm that enters it or leaves it, a queue stays as it is. -/
theorem Passes.filter_members (passes : ledger.Passes next command reply notes) (single : ledger.Single)
    (queue : Nat) :
    ((next.members queue).filter fun alarm => !notes.any (Occurrence.isEntryOf alarm)) =
      (ledger.members queue).filter fun alarm => !notes.any (Occurrence.isExitOf alarm) := by
  have leaves : ∀ {place mover : Nat}, mover ∈ ledger.members place →
      next.members = (ledger.withdraw place mover).members →
      (∀ alarm, notes.any (Occurrence.isEntryOf alarm) = false) →
      (∀ alarm, notes.any (Occurrence.isExitOf alarm) = decide (mover = alarm)) →
      ((next.members queue).filter fun alarm => !notes.any (Occurrence.isEntryOf alarm)) =
        (ledger.members queue).filter fun alarm => !notes.any (Occurrence.isExitOf alarm) := by
    intro place mover member members entries exits
    simp only [entries, exits, Bool.not_false, List.filter_true]
    have out : ∀ alarm ∈ next.members queue, (!decide (mover = alarm)) = true := by
      intro alarm remains
      have differ := (holds_withdraw single member).mp ⟨queue, members ▸ remains⟩
      simpa using Ne.symm differ.1
    calc next.members queue
        = (next.members queue).filter fun alarm => !decide (mover = alarm) :=
          (List.filter_eq_self.mpr out).symm
      _ = (ledger.members queue).filter fun alarm => !decide (mover = alarm) := by
          rw [members, filter_withdraw single (by simp)]
  cases passes with
  | stays members => rw [members]; rfl
  | @enters place mover position loose members =>
      have absent : ∀ alarm ∈ ledger.members queue,
          (!([Occurrence.queued mover position].any (Occurrence.isEntryOf alarm))) = true := by
        intro alarm member
        have differ : mover ≠ alarm := by
          rintro rfl
          exact loose ⟨queue, member⟩
        simp [Occurrence.isEntryOf, differ]
      rw [members, filter_insert (by simp [Occurrence.isEntryOf]), List.filter_eq_self.mpr absent]
      exact (List.filter_eq_self.mpr fun _ _ => rfl).symm
  | fires first _ members =>
      exact leaves (List.mem_of_head? first) members (fun _ => rfl) fun _ => by
        simp [Occurrence.isExitOf]
  | withdraws member members =>
      exact leaves member members (fun _ => rfl) fun _ => by simp [Occurrence.isExitOf]
  | drops member members =>
      exact leaves member members (fun _ => rfl) fun _ => by simp [Occurrence.isExitOf]

/-- Only a check of the queue that an alarm is in fires it, at the tick of the check. -/
theorem Passes.of_fired {alarm : Nat} {tick : Tick} (passes : ledger.Passes next command reply notes)
    (fired : .fired alarm tick ∈ notes) :
    ∃ queue, command = .fireFirst queue tick ∧ alarm ∈ ledger.members queue := by
  cases passes with
  | fires first due members =>
      obtain ⟨rfl, rfl⟩ : alarm = _ ∧ tick = _ := by simpa using fired
      exact ⟨_, rfl, List.mem_of_head? first⟩
  | _ => simp at fired

/-- The alarms that do not leave a queue stay in their order. -/
theorem Passes.sublist (passes : ledger.Passes next command reply notes) (single : ledger.Single)
    (queue : Nat) :
    ((ledger.members queue).filter fun alarm => !notes.any (Occurrence.isExitOf alarm)).Sublist
      (next.members queue) := by
  rw [← passes.filter_members single queue]
  exact List.filter_sublist

end Ledger

namespace Command

variable {command : Command} {system : System}

private theorem filter_since_of_unmoving (unmoving : ¬ command.MovesAlarms) (system : System) :
    ((command.apply system).2.since system).filter Occurrence.isPassage = [] := by
  rw [← List.length_eq_zero_iff, ← List.countP_eq_length_filter]
  refine command.countP_since ?_ (fun _ => rfl) (fun _ _ => rfl) system
  intro occurrence notes
  rw [← Bool.not_eq_true]
  intro passage
  refine unmoving ?_
  cases occurrence with
  | queued | withdrawn | fired =>
      obtain ⟨queue, rfl⟩ := notes
      trivial
  | dropped =>
      cases notes
      trivial
  | posted signal poster =>
      cases poster with
      | none => cases passage
      | some alarm =>
          obtain ⟨queue, now, rfl⟩ := notes
          trivial
  | _ => cases passage

/-- What a command does to the queues of alarms, and what it notes and replies. -/
theorem passes (command : Command) (threaded : system.Threaded) :
    system.ledger.Passes (command.apply system).2.ledger command (command.apply system).1
      (((command.apply system).2.since system).filter Occurrence.isPassage) := by
  have unchanged : system.since system = [] := System.since_eq rfl
  obtain ⟨step, kept⟩ := command.step_apply threaded
  by_cases moving : command.MovesAlarms
  · cases command with
    | insertAlarm queue alarm =>
        rw [apply, System.since_insertAlarm]
        by_cases held : system.ledger.Holds alarm
        · obtain ⟨other, member⟩ := held
          rw [threaded.insertAlarm_queued queue member]
          exact .stays rfl rfl
        · obtain ⟨reply, ledger, -⟩ := threaded.insertAlarm_loose queue (not_exists.mp held)
          rw [reply]
          exact .enters held (congrArg Ledger.members ledger)
    | fireFirst queue now =>
        by_cases undue : ∀ alarm ∈ (system.ledger.members queue).head?,
            system.ledger.isDue now alarm = false
        · rw [apply, threaded.fireFirst_undue undue, unchanged]
          exact .stays rfl rfl
        · simp only [not_forall, Bool.not_eq_false] at undue
          obtain ⟨alarm, first, due⟩ := undue
          obtain ⟨rest, front⟩ := List.head?_eq_some_iff.mp first
          obtain ⟨⟨fired, reply⟩, ledger, -⟩ := threaded.fireFirst_due front due
          obtain ⟨unqueued, fires⟩ := threaded.fires front due
          rw [apply, fires.filter_since, reply]
          exact .fires first due ((congrArg Ledger.members ledger).trans (Ledger.members_fire front))
    | withdrawAlarm queue alarm =>
        have members := congrArg Ledger.members (threaded.withdrawAlarm queue alarm).1
        by_cases member : alarm ∈ system.ledger.members queue
        · obtain ⟨reply, since⟩ := threaded.withdrawAlarm_member member
          rw [apply, since, reply]
          exact .withdraws member members
        · rw [apply, threaded.withdrawAlarm_absent member, unchanged]
          exact .stays rfl rfl
    | dropAlarm alarm =>
        have members := congrArg Ledger.members (threaded.dropAlarm alarm).1
        rw [apply, threaded.since_dropAlarm]
        by_cases member : alarm ∈ system.ledger.members (system.ledger.alarm alarm).queue
        · rw [decide_eq_true member]
          exact .drops member members
        · rw [decide_eq_false member]
          rw [Ledger.withdraw_of_not_mem member] at members
          exact .stays members rfl
    | _ => exact moving.elim
  · rw [filter_since_of_unmoving moving]
    refine .stays (step.members_of_unmoving moving) ?_
    cases command <;> first | rfl | exact absurd trivial moving

end Command

end TimedWaits
