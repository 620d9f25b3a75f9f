import TimedWaits.Proofs.Alarms.Delays
import TimedWaits.Proofs.Alarms.Firing
import TimedWaits.Proofs.Alarms.OwnAlarm

/-! Loops on time. While a queue is in the order of its deadlines and none of them has passed, a round
sleeps no longer than to the nearest one. So no deadline passes before its alarm is fired, whatever
others put into the queue or take off it, as long as they leave its clock alone. -/

set_option autoImplicit false

namespace TimedWaits

namespace Ledger

/-- No deadline in a queue has passed. -/
def Ahead (ledger : Ledger) (queue : Nat) : Prop :=
  ∀ alarm ∈ ledger.members queue, 0 ≤ ledger.lead queue alarm

instance (ledger : Ledger) (queue : Nat) : Decidable (ledger.Ahead queue) :=
  inferInstanceAs (Decidable (∀ alarm ∈ _, _ ≤ _))

/-- A queue is in the order in which the clock comes to its deadlines. -/
def Sorted (ledger : Ledger) (queue : Nat) : Prop :=
  (ledger.members queue).Pairwise fun first second =>
    ledger.lead queue first ≤ ledger.lead queue second

instance (ledger : Ledger) (queue : Nat) : Decidable (ledger.Sorted queue) :=
  inferInstanceAs (Decidable (List.Pairwise _ _))

structure InTime (ledger : Ledger) (queue : Nat) : Prop where
  ahead : ledger.Ahead queue
  sorted : ledger.Sorted queue

variable {ledger next : Ledger} {queue alarm : Nat} {command : Command}

theorem offset_of_ahead (ahead : 0 ≤ ledger.lead queue alarm) :
    Tick.InWindow (ledger.now queue) (ledger.deadline alarm) ∧
      (Tick.offset (ledger.now queue) (ledger.deadline alarm) : Int) = ledger.lead queue alarm := by
  have bound := Tick.offset_lt (ledger.now queue) (ledger.deadline alarm)
  rw [lead, Tick.distance_eq] at ahead ⊢
  split at ahead
  · next within => exact ⟨within, (if_pos within).symm⟩
  · omega

private theorem InTime.insert (inTime : ledger.InTime queue) (ahead : 0 ≤ ledger.lead queue alarm) :
    (ledger.insert queue alarm).InTime queue := by
  have split := ledger.ahead_append_behind queue alarm
  have aheadMem : ∀ member ∈ ledger.ahead queue alarm, member ∈ ledger.members queue :=
    fun member ahead => split ▸ List.mem_append_left _ ahead
  have behindMem : ∀ member ∈ ledger.behind queue alarm, member ∈ ledger.members queue :=
    fun member behind => split ▸ List.mem_append_right _ behind
  obtain ⟨within, offset⟩ := offset_of_ahead ahead
  have passed : ∀ member ∈ ledger.ahead queue alarm,
      ledger.lead queue member ≤ ledger.lead queue alarm := by
    intro member before
    obtain ⟨withinMember, offsetMember⟩ := offset_of_ahead (inTime.ahead member (aheadMem member before))
    have order := offset_le_of_mem_ahead before within withinMember
    omega
  have sorted := inTime.sorted
  rw [Sorted, ← split, List.pairwise_append] at sorted
  obtain ⟨sortedAhead, sortedBehind, across⟩ := sorted
  -- The insertion stops before the first member that is later, and from there on the queue is in order.
  have stopped : ∀ member ∈ ledger.behind queue alarm,
      ledger.lead queue alarm ≤ ledger.lead queue member := by
    intro member behind
    cases rest : ledger.behind queue alarm with
    | nil => simp [rest] at behind
    | cons first others =>
        have queued : first ∈ ledger.members queue := behindMem first (by simp [rest])
        obtain ⟨withinFirst, offsetFirst⟩ := offset_of_ahead (inTime.ahead first queued)
        have order := offset_lt_of_behind rest within withinFirst
        rw [rest] at behind sortedBehind
        rcases List.mem_cons.mp behind with rfl | later
        · omega
        · have onward := (List.pairwise_cons.mp sortedBehind).1 member later
          omega
  constructor
  · intro member queued
    rcases mem_insert.mp queued with rfl | former
    · exact ahead
    · exact inTime.ahead member former
  · rw [Sorted, members_insert, List.pairwise_append]
    refine ⟨sortedAhead, List.pairwise_cons.mpr ⟨stopped, sortedBehind⟩, ?_⟩
    intro member before other after
    rcases List.mem_cons.mp after with rfl | behind
    · exact passed member before
    · exact across member before other behind

/-- Whatever happens while the clock stands keeps a queue in time, unless an alarm enters too late. -/
private theorem InTime.step (inTime : ledger.InTime queue) (sound : ledger.Sound)
    (step : ledger.Step command next) (still : next.now queue = ledger.now queue)
    (entering : ∀ alarm, command = .insertAlarm queue alarm → 0 ≤ ledger.lead queue alarm) :
    next.InTime queue := by
  have extend := step.extends
  rcases step.members queue with fewer | ⟨alarm, rfl, rfl, -⟩
  · have same : ∀ member ∈ ledger.members queue,
        next.lead queue member = ledger.lead queue member := by
      intro member queued
      rw [lead, still, extend.deadline member (sound.stored queue member queued), lead]
    constructor
    · intro member queued
      rw [same member (fewer.subset queued)]
      exact inTime.ahead member (fewer.subset queued)
    · refine (inTime.sorted.imp_of_mem ?_).sublist fewer
      intro first second queued queuedSecond order
      rwa [same first queued, same second queuedSecond]
  · exact inTime.insert (entering alarm rfl)

private theorem now_setClock (ledger : Ledger) (queue : Nat) (tick : Tick) :
    (ledger.setClock (ledger.clockOf queue) tick).now queue = tick := Function.update_self _ _ _

theorem lead_pass {delay : Tick} (near : -2147483648 ≤ ledger.lead queue alarm - delay.toNat) :
    (ledger.setClock (ledger.clockOf queue) (Tick.after (ledger.now queue) delay)).lead queue alarm =
      ledger.lead queue alarm - delay.toNat := by
  rw [lead, now_setClock]
  exact Tick.distance_after near

private theorem InTime.pass {delay : Tick} (inTime : ledger.InTime queue)
    (near : ∀ member ∈ ledger.members queue, delay.toNat ≤ ledger.lead queue member) :
    (ledger.setClock (ledger.clockOf queue) (Tick.after (ledger.now queue) delay)).InTime queue := by
  have shrinks : ∀ member ∈ ledger.members queue,
      (ledger.setClock (ledger.clockOf queue) (Tick.after (ledger.now queue) delay)).lead queue
        member = ledger.lead queue member - delay.toNat := by
    intro member queued
    have reached := near member queued
    exact lead_pass (by omega)
  constructor
  · intro member queued
    have reached := near member queued
    rw [shrinks member queued]
    omega
  · refine inTime.sorted.imp_of_mem ?_
    intro first second queued queuedSecond order
    rw [shrinks first queued, shrinks second queuedSecond]
    omega

/-- What a command does to a queue in time: it lets no deadline pass, neither of a member nor of an
alarm that enters, and fires an alarm only while the clock reads its deadline. -/
structure Punctual (ledger : Ledger) (queue : Nat) (command : Command) (next : Ledger) : Prop where
  proper : ledger.Proper command
  ahead : next.Ahead queue
  fires : ∀ {now alarm rest}, command = .fireFirst queue now →
    ledger.members queue = alarm :: rest → ledger.isDue now alarm = true →
    ledger.now queue = ledger.deadline alarm
  moves : next.now queue = ledger.now queue ∨ ∃ delay, delay ≠ 0 ∧
    next.now queue = Tick.after (ledger.now queue) delay ∧
    ∀ member ∈ ledger.members queue, delay.toNat ≤ ledger.lead queue member

end Ledger

def punctual (queue : Nat) : Permit := fun ledger command next => ledger.Punctual queue command next

/-- What others may do while a loop drives a queue: they leave its clock alone, put no alarm into the
queue whose deadline has passed, and fire alarms of the queue by the current tick only. -/
structure Tame (queue : Nat) (system : System) (command : Command) : Prop where
  proper : system.ledger.Proper command
  still : (command.apply system).2.ledger.now queue = system.ledger.now queue
  entering : ∀ alarm, command = .insertAlarm queue alarm → 0 ≤ system.ledger.lead queue alarm
  current : ∀ now, command = .fireFirst queue now → now = system.ledger.now queue

theorem Tame.of_unconcerned {command : Command} (unconcerned : ¬ command.ConcernsAlarms)
    (queue : Nat) (system : System) : Tame queue system command where
  proper := by cases command <;> first | exact trivial | exact absurd trivial unconcerned
  still := by
    have same := congrArg Timing.ledger (Command.timing_apply unconcerned system)
    exact congrArg (Ledger.now · queue) same
  entering := by
    rintro alarm rfl
    exact absurd trivial unconcerned
  current := by
    rintro now rfl
    exact absurd trivial unconcerned

theorem Tame.markReady (queue : Nat) (system : System) (index token : Nat) :
    Tame queue system (.markReady index token) := by
  have unconcerned : ¬ (Command.markReady index token).ConcernsAlarms := not_false
  exact .of_unconcerned unconcerned queue system

theorem Reaches.still {queue : Nat} {first last : System} (reaches : Reaches (Tame queue) first last) :
    last.ledger.now queue = first.ledger.now queue := by
  exact reaches.preserves_apply (motive := fun last => last.ledger.now queue = first.ledger.now queue)
    rfl (Tame.markReady queue) (fun same tame => tame.still.trans same) fun same _ => same

theorem System.Threaded.sleep {system : System} (threaded : system.Threaded) (queue : Nat)
    (delay : Tick) :
    let slept := (Request.sleep (system.alarms.queues.get queue).clock delay).begin system
    slept.ledger = system.ledger.setClock (system.ledger.clockOf queue)
        (Tick.after (system.ledger.now queue) delay) ∧ slept.Threaded :=
  threaded.setClock _ _

theorem System.now_sleep (system : System) (queue : Nat) (delay : Tick) :
    ((Request.sleep (system.alarms.queues.get queue).clock delay).begin system).ledger.now queue =
      Tick.after (system.ledger.now queue) delay := Table.get_set_same _ _ _

/-- A system whose queue was driven on time since a given moment, and is in time. -/
structure OnTime (queue : Nat) (start system : System) : Prop where
  leads : Leads (punctual queue) start system
  threaded : system.Threaded
  sound : system.ledger.Sound
  inTime : system.ledger.InTime queue

namespace OnTime

variable {queue : Nat} {start system last : System}

theorem apply (onTime : OnTime queue start system) {command : Command}
    (tame : Tame queue system command) : OnTime queue start (command.apply system).2 := by
  obtain ⟨step, kept⟩ := command.step_apply onTime.threaded
  have inTime := onTime.inTime.step onTime.sound step tame.still tame.entering
  refine ⟨onTime.leads.apply ⟨tame.proper, inTime.ahead, ?_, .inl tame.still⟩, kept,
    onTime.sound.step step tame.proper, inTime⟩
  intro now alarm rest fires front due
  -- Nothing in the queue is late, so what is due by the current tick is due at that tick.
  have ahead := onTime.inTime.ahead alarm (front ▸ List.mem_cons_self)
  obtain ⟨-, offset⟩ := Ledger.offset_of_ahead ahead
  rw [tame.current now fires, Ledger.isDue, Tick.isDue, decide_eq_true_iff] at due
  rw [Ledger.lead] at ahead offset
  have reached : Tick.offset (system.ledger.now queue) (system.ledger.now queue) =
      Tick.offset (system.ledger.now queue) (system.ledger.deadline alarm) := by
    rw [Tick.offset_self]
    omega
  exact Tick.offset_inj reached

theorem note (onTime : OnTime queue start system) {occurrence : Occurrence}
    (aside : occurrence.IsAside) : OnTime queue start (system.record occurrence) := by
  have ledger := system.ledger_record aside
  exact ⟨onTime.leads.note aside.isReport, onTime.threaded.record aside, ledger ▸ onTime.sound,
    ledger ▸ onTime.inTime⟩

theorem reaches (onTime : OnTime queue start system) (reaches : Reaches (Tame queue) system last) :
    OnTime queue start last := by
  exact reaches.preserves_apply (motive := OnTime queue start) onTime (Tame.markReady queue)
    (fun before tame => before.apply tame) fun before aside => before.note aside

theorem sleep (onTime : OnTime queue start system) {delay : Tick} (some : delay ≠ 0)
    (near : ∀ member ∈ system.ledger.members queue, delay.toNat ≤ system.ledger.lead queue member) :
    OnTime queue start
      ((Request.sleep (system.alarms.queues.get queue).clock delay).begin system) := by
  let clock := (system.alarms.queues.get queue).clock
  obtain ⟨ledger, kept⟩ := onTime.threaded.sleep queue delay
  have inTime := ledger ▸ onTime.inTime.pass near
  have sound := ledger ▸ onTime.sound.step (.setClock clock _) trivial
  have passing : (system.record (.slept clock delay)).ledger.Punctual queue (.advance clock delay)
      ((Request.sleep clock delay).begin system).ledger :=
    ⟨trivial, inTime.ahead, nofun, .inr ⟨delay, some, system.now_sleep queue delay, near⟩⟩
  have noted : OnTime queue start (system.record (.slept clock delay)) := onTime.note trivial
  exact ⟨noted.leads.apply passing, kept, sound, inTime⟩

end OnTime

end TimedWaits
