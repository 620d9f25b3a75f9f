import TimedWaits.Scenario.Action

/-! Moving all moments of a system by the same number of ticks. Clock readings, deadlines and what is
told about them move; delays, which are lengths of time, stay as they are. -/

set_option autoImplicit false

namespace TimedWaits

namespace Table

variable {α β : Type}

def map (change : α → β) (table : Table α) : Table β :=
  { fallback := change table.fallback, entries := table.entries.map change }

@[simp] theorem get_map (change : α → β) (table : Table α) (index : Nat) :
    (table.map change).get index = change (table.get index) := by
  simp only [map, get, Array.getElem?_map]
  cases table.entries[index]? <;> rfl

@[simp] theorem size_map (change : α → β) (table : Table α) :
    (table.map change).size = table.size := Array.size_map

theorem map_set (change : α → β) (table : Table α) (index : Nat) (value : α) :
    (table.set index value).map change = (table.map change).set index (change value) := by
  simp only [map, set, Array.size_map]
  split <;> simp

theorem map_modify (change modify : α → α)
    (commutes : ∀ value, change (modify value) = modify (change value)) (table : Table α)
    (index : Nat) : (table.modify index modify).map change = (table.map change).modify index modify := by
  rw [Table.modify, map_set, commutes, Table.modify, get_map]

end Table

namespace Tick

variable {k : Tick}

theorem distance_shift (tick reference : Tick) :
    distance (tick + k) (reference + k) = distance tick reference := by
  have same : tick + k - (reference + k) = tick - reference := by grind
  rw [distance, same, distance]

@[simp] theorem order_shift (first second : Tick) :
    order (first + k) (second + k) = order first second := by
  rw [order, distance_shift, order]

@[simp] theorem isDue_shift (deadline now : Tick) :
    isDue (deadline + k) (now + k) = isDue deadline now := by
  rw [isDue, distance_shift, isDue]

@[simp] theorem remaining_shift (deadline now : Tick) :
    remaining (deadline + k) (now + k) = remaining deadline now := by
  have same : deadline + k - (now + k) = deadline - now := by grind
  rw [remaining, isDue_shift, same, remaining]

@[simp] theorem after_shift (now delay : Tick) : after (now + k) delay = after now delay + k := by
  simp only [after]
  grind

@[simp] theorem deadlineAfter_shift (now delay : Tick) :
    deadlineAfter (now + k) delay = deadlineAfter now delay + k := after_shift now _

@[simp] theorem since_shift (now start : Tick) : since (now + k) (start + k) = since now start := by
  simp only [since]
  grind

end Tick

def Alarm.shift (k : Tick) (alarm : Alarm) : Alarm := { alarm with deadline := alarm.deadline + k }

def FiredAlarm.shift (k : Tick) (fired : FiredAlarm) : FiredAlarm :=
  { fired with deadline := fired.deadline + k }

def Notice.shift (k : Tick) : Notice → Notice
  | .alarmFired deadline now => .alarmFired (deadline + k) (now + k)
  | notice => notice

def Answer.shift (k : Tick) : Answer → Answer
  | .moment tick => .moment (tick + k)
  | .moments ticks => .moments (ticks.map (· + k))
  | answer => answer

def Outcome.shift (k : Tick) (outcome : Outcome) : Outcome := outcome.map (Answer.shift k)

def Occurrence.shift (k : Tick) : Occurrence → Occurrence
  | .fired alarm now => .fired alarm (now + k)
  | .logged notice => .logged (notice.shift k)
  | .ended label outcome => .ended label (Outcome.shift k outcome)
  | occurrence => occurrence

def Alarms.shift (k : Tick) (alarms : Alarms) : Alarms :=
  { alarms with alarms := alarms.alarms.map (Alarm.shift k) }

/-- The system with all moments moved: the readings of its clocks, the deadlines of its alarms and
what its history tells about them. -/
def System.shift (k : Tick) (system : System) : System :=
  { system with
    clocks := system.clocks.map (· + k)
    alarms := system.alarms.shift k
    history := system.history.map (Occurrence.shift k) }

/-- An operation with the moments that it names moved. -/
def Action.shift (k : Tick) : Action → Action
  | .setClock clock tick => .setClock clock (tick + k)
  | .elapsed clock start => .elapsed clock (start + k)
  | .createAlarm queue signal due => .createAlarm queue signal (due + k)
  | .waitUntil queue signal due => .waitUntil queue signal (due + k)
  | action => action

end TimedWaits
