import Mathlib.Data.List.TakeWhile
import TimedWaits.Proofs.Alarms.Run
import TimedWaits.Proofs.Tick.Window

/-! The order of the alarms in a queue: by deadline, and by time of entry among equal deadlines.
Every step keeps it as long as the deadlines in the queue lie in one window. -/

set_option autoImplicit false

namespace TimedWaits

namespace Ledger

/-- Alarms in a queue exist and are meant for it, none is in it twice, and none posted a signal
before it was made. -/
structure Sound (ledger : Ledger) : Prop where
  stored : ∀ queue, ∀ alarm ∈ ledger.members queue, alarm < ledger.count
  belongs : ∀ queue, ∀ alarm ∈ ledger.members queue, (ledger.alarm alarm).queue = queue
  posted : ∀ post ∈ ledger.posts, post.1 < ledger.count

/-- A command that puts no alarm but an existing one into a queue, and that into its own. -/
def Proper (ledger : Ledger) : Command → Prop
  | .insertAlarm queue alarm => alarm < ledger.count ∧ (ledger.alarm alarm).queue = queue
  | _ => True

/-- The current tick of a queue's clock and all deadlines in the queue lie in one window. -/
structure Within (ledger : Ledger) (queue : Nat) (base : Tick) : Prop where
  now : Tick.InWindow base (ledger.now queue)
  deadlines : ∀ alarm ∈ ledger.members queue, Tick.InWindow base (ledger.deadline alarm)

/-- The first alarm entered a queue earlier than the second did, by their latest entries. -/
def Earlier (ledger : Ledger) (first second : Nat) : Prop :=
  ledger.queuings.idxOf second < ledger.queuings.idxOf first

/-- The first alarm comes before the second by deadline, or by time of entry if they are equal. -/
def Precedes (ledger : Ledger) (first second : Nat) : Prop :=
  Tick.distance (ledger.deadline first) (ledger.deadline second) < 0 ∨
    ledger.deadline first = ledger.deadline second ∧ ledger.Earlier first second

def Ordered (ledger : Ledger) (queue : Nat) : Prop :=
  (ledger.members queue).Pairwise ledger.Precedes

/-- Alarms that exist keep the queue, the signal and the deadline that they were made with. -/
structure Extends (ledger next : Ledger) : Prop where
  count : ledger.count ≤ next.count
  queue : ∀ alarm < ledger.count, (next.alarm alarm).queue = (ledger.alarm alarm).queue
  signal : ∀ alarm < ledger.count, (next.alarm alarm).signal = (ledger.alarm alarm).signal
  deadline : ∀ alarm < ledger.count, next.deadline alarm = ledger.deadline alarm

variable {ledger next middle : Ledger} {queue alarm : Nat} {base : Tick} {command : Command}

theorem Extends.of_eq (count : next.count = ledger.count) (alarm : next.alarm = ledger.alarm) :
    ledger.Extends next :=
  ⟨Nat.le_of_eq count.symm, by simp [alarm], by simp [alarm], by simp [Ledger.deadline, alarm]⟩

theorem Extends.trans (first : ledger.Extends middle) (second : middle.Extends next) :
    ledger.Extends next where
  count := Nat.le_trans first.count second.count
  queue alarm exist := (second.queue alarm (Nat.lt_of_lt_of_le exist first.count)).trans
    (first.queue alarm exist)
  signal alarm exist := (second.signal alarm (Nat.lt_of_lt_of_le exist first.count)).trans
    (first.signal alarm exist)
  deadline alarm exist := (second.deadline alarm (Nat.lt_of_lt_of_le exist first.count)).trans
    (first.deadline alarm exist)

private theorem extends_create (made : Alarm) : ledger.Extends (ledger.create made) := by
  have older : ∀ alarm < ledger.count, (ledger.create made).alarm alarm = ledger.alarm alarm :=
    fun alarm exist => Function.update_of_ne (Nat.ne_of_lt exist) _ _
  refine ⟨Nat.le_succ _, ?_, ?_, ?_⟩ <;> intro alarm exist <;> simp [deadline, older alarm exist]

private theorem extends_mark (alarm : Nat) : ledger.Extends (ledger.mark alarm) := by
  refine ⟨Nat.le_max_left _ _, ?_, ?_, ?_⟩ <;> intro other _ <;>
    by_cases same : other = alarm <;> simp [mark, deadline, same]

theorem Step.extends (step : ledger.Step command next) : ledger.Extends next := by
  cases step with
  | create queue signal deadline owned => exact extends_create _
  | drop alarm =>
      have withdrawn : ledger.Extends (ledger.withdraw (ledger.alarm alarm).queue alarm) :=
        .of_eq rfl rfl
      exact withdrawn.trans (extends_mark alarm)
  | _ => exact .of_eq rfl rfl

@[simp] theorem members_setMembers_self (queue : Nat) (members : List Nat) :
    (ledger.setMembers queue members).members queue = members := Function.update_self _ _ _

theorem members_setMembers_of_ne {other : Nat} (differ : other ≠ queue) (members : List Nat) :
    (ledger.setMembers queue members).members other = ledger.members other :=
  Function.update_of_ne differ _ _

theorem members_withdraw_sublist (queue other alarm : Nat) :
    ((ledger.withdraw other alarm).members queue).Sublist (ledger.members queue) := by
  by_cases same : queue = other
  · subst same
    rw [withdraw, members_setMembers_self]
    exact List.erase_sublist
  · rw [withdraw, members_setMembers_of_ne same]

theorem Step.members (step : ledger.Step command next) (queue : Nat) :
    (next.members queue).Sublist (ledger.members queue) ∨
      ∃ alarm, command = .insertAlarm queue alarm ∧ next = ledger.insert queue alarm ∧
        ∀ other, alarm ∉ ledger.members other := by
  cases step with
  | @insert entered alarm loose =>
      by_cases same : queue = entered
      · subst same
        exact .inr ⟨alarm, rfl, rfl, loose⟩
      · refine .inl ?_
        change ((ledger.setMembers entered _).members queue).Sublist _
        rw [members_setMembers_of_ne same]
  | @fire fired alarm now rest front due =>
      refine .inl ?_
      change ((ledger.setMembers fired rest).members queue).Sublist _
      by_cases same : queue = fired
      · subst same
        rw [members_setMembers_self, front]
        exact List.sublist_cons_self alarm rest
      · rw [members_setMembers_of_ne same]
  | withdraw other alarm => exact .inl (members_withdraw_sublist queue other alarm)
  | drop alarm => exact .inl (members_withdraw_sublist queue _ alarm)
  | _ => exact .inl (List.Sublist.refl _)

/-- Only a firing posts, and only for the first member of its queue. -/
theorem Step.posts (step : ledger.Step command next) :
    next.posts = ledger.posts ∨
      ∃ queue alarm, alarm ∈ ledger.members queue ∧
        next.posts = (alarm, (ledger.alarm alarm).signal) :: ledger.posts := by
  cases step with
  | @fire queue alarm now rest front due => exact .inr ⟨queue, alarm, by simp [front], rfl⟩
  | _ => exact .inl rfl

theorem members_insert (queue alarm : Nat) :
    (ledger.insert queue alarm).members queue =
      ledger.ahead queue alarm ++ alarm :: ledger.behind queue alarm :=
  members_setMembers_self queue _

theorem mem_insert {other : Nat} :
    other ∈ (ledger.insert queue alarm).members queue ↔
      other = alarm ∨ other ∈ ledger.members queue := by
  rw [members_insert, ← ledger.ahead_append_behind queue alarm, List.mem_append,
    List.mem_append, List.mem_cons]
  exact or_left_comm

theorem length_insert (queue alarm : Nat) :
    ((ledger.insert queue alarm).members queue).length = (ledger.members queue).length + 1 := by
  rw [members_insert, ← ledger.ahead_append_behind queue alarm, List.length_append,
    List.length_append, List.length_cons, Nat.add_assoc]

theorem Sound.step (sound : ledger.Sound) (step : ledger.Step command next)
    (proper : ledger.Proper command) : next.Sound := by
  have extend := step.extends
  have origin : ∀ queue, ∀ alarm ∈ next.members queue,
      alarm < ledger.count ∧ (ledger.alarm alarm).queue = queue := by
    intro queue alarm member
    rcases step.members queue with fewer | ⟨entered, rfl, rfl, -⟩
    · have former := fewer.subset member
      exact ⟨sound.stored queue alarm former, sound.belongs queue alarm former⟩
    · rcases mem_insert.mp member with rfl | former
      · exact proper
      · exact ⟨sound.stored queue alarm former, sound.belongs queue alarm former⟩
  refine ⟨?_, ?_, ?_⟩
  · intro queue alarm member
    exact Nat.lt_of_lt_of_le (origin queue alarm member).1 extend.count
  · intro queue alarm member
    obtain ⟨exist, belongs⟩ := origin queue alarm member
    rw [extend.queue alarm exist, belongs]
  · intro post member
    refine Nat.lt_of_lt_of_le ?_ extend.count
    rcases step.posts with same | ⟨queue, alarm, fired, added⟩
    · exact sound.posted post (same ▸ member)
    · rw [added, List.mem_cons] at member
      rcases member with rfl | former
      · exact sound.stored queue alarm fired
      · exact sound.posted post former

theorem precedes_iff {first second : Nat} (within : Tick.InWindow base (ledger.deadline first))
    (withinSecond : Tick.InWindow base (ledger.deadline second)) :
    ledger.Precedes first second ↔
      Tick.offset base (ledger.deadline first) < Tick.offset base (ledger.deadline second) ∨
        ledger.deadline first = ledger.deadline second ∧ ledger.Earlier first second := by
  rw [Precedes, within.distance_eq withinSecond]
  refine or_congr_left ?_
  omega

private theorem Precedes.of_offset_lt {first second : Nat}
    (within : Tick.InWindow base (ledger.deadline first))
    (withinSecond : Tick.InWindow base (ledger.deadline second))
    (less : Tick.offset base (ledger.deadline first) <
      Tick.offset base (ledger.deadline second)) :
    ledger.Precedes first second := (precedes_iff within withinSecond).mpr (.inl less)

theorem Precedes.offset_le {first second : Nat} (precedes : ledger.Precedes first second)
    (within : Tick.InWindow base (ledger.deadline first))
    (withinSecond : Tick.InWindow base (ledger.deadline second)) :
    Tick.offset base (ledger.deadline first) ≤ Tick.offset base (ledger.deadline second) := by
  rcases (precedes_iff within withinSecond).mp precedes with less | ⟨equal, -⟩
  · exact Nat.le_of_lt less
  · exact Nat.le_of_eq (congrArg _ equal)

theorem offset_le_of_mem_ahead {member : Nat} (ahead : member ∈ ledger.ahead queue alarm)
    (within : Tick.InWindow base (ledger.deadline alarm))
    (withinMember : Tick.InWindow base (ledger.deadline member)) :
    Tick.offset base (ledger.deadline member) ≤ Tick.offset base (ledger.deadline alarm) := by
  have passed : (ledger.order alarm member != .lt) = true :=
    @List.mem_takeWhile_imp _ (fun other => ledger.order alarm other != .lt) _ _ ahead
  exact (within.order_ne_lt_iff withinMember).mp passed

theorem offset_lt_of_behind {member : Nat} {rest : List Nat}
    (behind : ledger.behind queue alarm = member :: rest)
    (within : Tick.InWindow base (ledger.deadline alarm))
    (withinMember : Tick.InWindow base (ledger.deadline member)) :
    Tick.offset base (ledger.deadline alarm) < Tick.offset base (ledger.deadline member) := by
  have stopped := List.head?_dropWhile_not (fun member => ledger.order alarm member != .lt)
    (ledger.members queue)
  rw [Ledger.behind] at behind
  rw [behind, List.head?_cons] at stopped
  rw [← Nat.not_le, ← within.order_ne_lt_iff withinMember]
  exact Bool.eq_false_iff.mp stopped

theorem Precedes.insert {first second : Nat} (precedes : ledger.Precedes first second)
    (differ : first ≠ alarm) (differSecond : second ≠ alarm) (queue : Nat) :
    (ledger.insert queue alarm).Precedes first second := by
  refine precedes.imp_right fun ⟨equal, earlier⟩ => ⟨equal, ?_⟩
  change (alarm :: ledger.queuings).idxOf second < (alarm :: ledger.queuings).idxOf first
  rw [List.idxOf_cons_ne _ differ.symm, List.idxOf_cons_ne _ differSecond.symm]
  exact Nat.succ_lt_succ earlier

private theorem earlier_insert {member : Nat} (differ : member ≠ alarm) (queue : Nat) :
    (ledger.insert queue alarm).Earlier member alarm := by
  change (alarm :: ledger.queuings).idxOf alarm < (alarm :: ledger.queuings).idxOf member
  rw [List.idxOf_cons_self, List.idxOf_cons_ne _ differ.symm]
  exact Nat.succ_pos _

/-- An entry keeps a queue in order if all its deadlines lie in one window then. -/
private theorem Ordered.insert (ordered : ledger.Ordered queue) (loose : alarm ∉ ledger.members queue)
    (within : Tick.InWindow base (ledger.deadline alarm))
    (deadlines : ∀ member ∈ ledger.members queue, Tick.InWindow base (ledger.deadline member)) :
    (ledger.insert queue alarm).Ordered queue := by
  have differ : ∀ member ∈ ledger.members queue, member ≠ alarm :=
    fun member queued same => loose (same ▸ queued)
  have older : (ledger.members queue).Pairwise (ledger.insert queue alarm).Precedes :=
    ordered.imp_of_mem fun first second precedes =>
      precedes.insert (differ _ first) (differ _ second) queue
  have split := ledger.ahead_append_behind queue alarm
  have aheadMem : ∀ member ∈ ledger.ahead queue alarm, member ∈ ledger.members queue :=
    fun member ahead => split ▸ List.mem_append_left _ ahead
  have behindMem : ∀ member ∈ ledger.behind queue alarm, member ∈ ledger.members queue :=
    fun member behind => split ▸ List.mem_append_right _ behind
  have passed : ∀ member ∈ ledger.ahead queue alarm,
      (ledger.insert queue alarm).Precedes member alarm := by
    intro member ahead
    have queued := aheadMem member ahead
    have order := offset_le_of_mem_ahead ahead within (deadlines member queued)
    rcases Nat.lt_or_eq_of_le order with less | equal
    · exact .of_offset_lt (deadlines member queued) within less
    · exact .inr ⟨Tick.offset_inj equal, earlier_insert (differ member queued) queue⟩
  have stopped : ∀ member ∈ ledger.behind queue alarm,
      (ledger.insert queue alarm).Precedes alarm member := by
    intro member behind
    have queued := behindMem member behind
    refine .of_offset_lt within (deadlines member queued) ?_
    cases rest : ledger.behind queue alarm with
    | nil => simp [rest] at behind
    | cons first others =>
        have firstQueued : first ∈ ledger.members queue := behindMem first (by simp [rest])
        have order := offset_lt_of_behind rest within (deadlines first firstQueued)
        rw [rest, List.mem_cons] at behind
        rcases behind with rfl | later
        · exact order
        · rw [Ledger.Ordered, ← split, rest, List.pairwise_append] at ordered
          have precedes := (List.pairwise_cons.mp ordered.2.1).1 member later
          exact Nat.lt_of_lt_of_le order
            (precedes.offset_le (deadlines first firstQueued) (deadlines member queued))
  rw [← split, List.pairwise_append] at older
  rw [Ordered, members_insert, List.pairwise_append, List.pairwise_cons]
  refine ⟨older.1, ⟨stopped, older.2.1⟩, ?_⟩
  intro member ahead other behind
  rcases List.mem_cons.mp behind with rfl | behind
  · exact passed member ahead
  · exact older.2.2 member ahead other behind

private theorem Precedes.of_extends {first second : Nat} (precedes : ledger.Precedes first second)
    (extend : ledger.Extends next) (same : next.queuings = ledger.queuings)
    (exist : first < ledger.count) (existSecond : second < ledger.count) :
    next.Precedes first second := by
  rwa [Precedes, Earlier, same, extend.deadline first exist, extend.deadline second existSecond]

private theorem Precedes.step {first second : Nat} (precedes : ledger.Precedes first second)
    (step : ledger.Step command next) (sound : ledger.Sound)
    (queued : first ∈ ledger.members queue) (queuedSecond : second ∈ ledger.members queue) :
    next.Precedes first second := by
  have exist := sound.stored queue first queued
  have existSecond := sound.stored queue second queuedSecond
  have extend := step.extends
  cases step with
  | @insert entered alarm loose =>
      have differ : first ≠ alarm := fun same => loose queue (same ▸ queued)
      have differSecond : second ≠ alarm := fun same => loose queue (same ▸ queuedSecond)
      exact precedes.insert differ differSecond entered
  | create => exact precedes.of_extends extend rfl exist existSecond
  | drop => exact precedes.of_extends extend rfl exist existSecond
  | _ => exact precedes

theorem Ordered.step (ordered : ledger.Ordered queue) (step : ledger.Step command next)
    (sound : ledger.Sound) (within : next.Within queue base) : next.Ordered queue := by
  have transferred : (ledger.members queue).Pairwise next.Precedes :=
    ordered.imp_of_mem fun first second precedes => precedes.step step sound first second
  rcases step.members queue with fewer | ⟨alarm, rfl, rfl, loose⟩
  · exact transferred.sublist fewer
  · exact ordered.insert (loose queue) (within.deadlines alarm (mem_insert.mpr (.inl rfl)))
      fun member queued => within.deadlines member (mem_insert.mpr (.inr queued))

end Ledger

/-- Proper commands after each of which the current tick of a queue's clock and all deadlines in
the queue lie in one window. -/
def windowed (queue : Nat) : Permit := fun ledger command next =>
  ledger.Proper command ∧ ∃ base, next.Within queue base

theorem Leads.ordered {queue : Nat} {first last : System} (leads : Leads (windowed queue) first last)
    (threaded : first.Threaded) (sound : first.ledger.Sound) (ordered : first.ledger.Ordered queue)
    (within : ∃ base, first.ledger.Within queue base) :
    last.Threaded ∧ last.ledger.Sound ∧ last.ledger.Ordered queue ∧
      ∃ base, last.ledger.Within queue base := by
  refine leads.preserves
    (motive := fun ledger => ledger.Sound ∧ ledger.Ordered queue ∧ ∃ base, ledger.Within queue base)
    threaded ⟨sound, ordered, within⟩ ?_
  rintro ledger next command ⟨sound, ordered, -⟩ step ⟨proper, base, within⟩
  exact ⟨sound.step step proper, ordered.step step sound within, base, within⟩

end TimedWaits
