import TimedWaits.Proofs.Alarms.Ownership
import TimedWaits.Proofs.Alarms.WaitBalance
import TimedWaits.Proofs.Selectors.Wakeups

/-! When a selector sleeps, and when a wait on it times out. It sleeps only while nothing is ready. A
wait with a timeout gives up only after its own alarm fired, however many posts of the selector's signal
were left over before. -/

set_option autoImplicit false

namespace TimedWaits

open Activity

variable {σ : Type} {environment : Environment σ} {world after : World σ}

/-! ### What a wait asks for -/

namespace Selector

variable {index : Nat} {slots : List Nat}

/-- What a wait on a selector asks for: to re-arm the timer of a queue, or to block while there is no
post of the selector's own signal. -/
def Wants (index : Nat) (request : Request) (now : System) : Prop :=
  match request with
  | .rearm _ _ => True
  | .idle signal => signal = .selector index ∧ (now.signal signal).pending = 0
  | _ => False

/-- The same, where a block comes only when nothing is ready. -/
def Sleeps (index : Nat) (request : Request) (now : System) : Prop :=
  match request with
  | .rearm _ _ => True
  | .idle signal => signal = .selector index ∧ (now.selectors.get index).readySlots = []
  | _ => False

private theorem Wants.sleeps {request : Request} {now : System} (wants : Wants index request now)
    (wakes : now.Wakes index slots) : Sleeps index request now := by
  cases request with
  | idle signal =>
      obtain ⟨rfl, none⟩ := wants
      exact ⟨rfl, wakes.readySlots_eq_nil none⟩
  | _ => exact wants

theorem awaitPost_asks (bound : Nat) :
    ((SignalRef.selector index).awaitPost bound).Asks (Wants index) environment world := by
  refine ((SignalRef.selector index).awaitPost_asks bound).mono fun request now idle => ?_
  obtain ⟨rfl, none⟩ := idle
  exact ⟨rfl, none⟩

private theorem awaitReady_asks (bound rounds : Nat) :
    (awaitReady bound index rounds).Asks (Wants index) environment world := by
  induction rounds generalizing world with
  | zero => trivial
  | succ rounds ih =>
      refine .bind (awaitPost_asks bound) fun _ ready _ => .bind trivial fun signal woken _ => ?_
      cases signal with
      | some => trivial
      | none => exact ih

private theorem wait_asks (bound : Nat) : (wait bound index).Asks (Wants index) environment world := by
  refine .bind trivial fun signal taken _ => ?_
  cases signal with
  | some => trivial
  | none => exact awaitReady_asks bound bound

private theorem awaitReadyOrAlarm_asks (bound alarm rounds : Nat) :
    (awaitReadyOrAlarm bound index alarm rounds).Asks (Wants index) environment world := by
  induction rounds generalizing world with
  | zero => trivial
  | succ rounds ih =>
      refine .bind (awaitPost_asks bound) fun _ ready _ => .bind trivial fun signal woken _ => ?_
      cases signal with
      | some => trivial
      | none =>
          refine .bind trivial fun queued looked _ => ?_
          cases queued with
          | true => exact ih
          | false => trivial

/-- The part of a wait that blocks until a signal is ready or an alarm of its own has fired. -/
def blockedFor (bound selector queue alarm : Nat) : Activity (Option Nat) := do
  discard <| Alarms.add queue alarm
  awaitReadyOrAlarm bound selector alarm bound

private theorem blockedFor_asks (bound queue alarm : Nat) :
    (blockedFor bound index queue alarm).Asks (Wants index) environment world := by
  have adds : (Functor.discard (Alarms.add queue alarm)).Uses (fun _ => True)
      fun request => ∃ target delay, request = .rearm target delay :=
    (Alarms.add_uses queue alarm trivial fun _ => trivial).discard
  refine .bind (adds.asks.mono fun request now rearms => ?_) fun _ added _ =>
    awaitReadyOrAlarm_asks bound alarm bound
  obtain ⟨target, delay, rfl⟩ := rearms
  exact trivial

private theorem waitFor_asks (bound queue : Nat) (timeout : Tick) :
    (waitFor bound index queue timeout).Asks (Wants index) environment world := by
  refine .bind trivial fun signal taken _ => ?_
  cases signal with
  | some => trivial
  | none =>
      change (if timeout = 0 then _ else _ : Activity (Option Nat)).Asks _ _ _
      split
      · trivial
      · exact .bind trivial fun now _ _ => .bind trivial fun alarm _ _ =>
          Asks.ensuring (blockedFor_asks bound queue alarm)

/-- A wait that goes on where a selector has a post for each ready slot sleeps only while nothing is
ready. -/
private theorem sleeps_of_ordinary {α : Type} {activity : Activity α} {first : System}
    (wakes : ∃ slots, first.Wakes index slots) (before : Reaches (attends index) first world.system)
    (ordinary : activity.Ordinary) (asks : activity.Asks (Wants index) environment world)
    (meanwhile : activity.Meanwhile (attends index) environment world) :
    activity.Asks (fun request now => Reaches (attends index) first now ∧ Sleeps index request now)
      environment world := by
  have strides : activity.Strides (·.Attends index) .nothing :=
    ordinary.mono fun _ plain => plain.attends
  have reached := strides.asks (fun request before => before.begin (fun _ plain => plain.attends) request)
    meanwhile before
  refine reached.both asks fun request now before wants => ⟨before, ?_⟩
  obtain ⟨slots, kept⟩ := System.Wakes.reaches wakes before
  exact wants.sleeps kept

/-! ### Timeouts -/

variable {alarm queue bound rounds : Nat} {deadline : Tick} {start : System} {noted : List Occurrence}
  {own : Nat → Prop}

open Alarms

private theorem elapsed_of_isQueued {system : System} (tracked : Tracked alarm queue deadline start system)
    (absent : system.alarms.isQueued alarm = false) : Elapsed alarm deadline start system := by
  cases tracked.state with
  | inr elapsed => exact elapsed
  | inl stands =>
      have queued : alarm ∈ system.ledger.members (system.ledger.alarm alarm).queue :=
        tracked.belongs.symm ▸ stands.queued
      have found : system.alarms.isQueued alarm = true := List.contains_iff_mem.mpr queued
      rw [found] at absent
      cases absent

/-- A wait for a ready signal or an alarm gives up only once the alarm has fired. -/
private theorem awaitReadyOrAlarm_times_out (tracked : Tracked alarm queue deadline start world.system)
    (mine : own alarm)
    (returns : Returns (considerate own) environment (awaitReadyOrAlarm bound index alarm rounds) world none
      after noted) :
    Tracked alarm queue deadline start after.system ∧
      TimedOut alarm queue deadline start after.system := by
  induction rounds generalizing world noted with
  | zero => cases returns.run
  | succ rounds ih =>
      -- A post may be left over from a slot that was taken before, or be that of the alarm.
      obtain ⟨_, ready, _, _, awaited, waking, rfl⟩ := returns.bind
      have uses : ((SignalRef.selector index).awaitPost bound).Uses (fun _ => False) fun _ => True :=
        .awaitPost _ bound trivial
      have posted := tracked.uses mine uses (fun _ impossible => impossible.elim) awaited.meanwhile
      rw [awaited.run] at posted
      obtain ⟨reply, woken, _, _, taken, onward, rfl⟩ := waking.bind
      obtain ⟨-, same, -⟩ := taken.perform
      have changed : woken.system = ((Command.takeWakeup index).apply ready.system).2 :=
        congrArg World.system same
      have woke := posted.apply (.takeWakeup index) trivial not_false
      rw [← changed] at woke
      cases reply with
      | some signal =>
          obtain ⟨impossible, -, -⟩ := onward.done
          cases impossible
      | none =>
          obtain ⟨queued, _, _, _, looked, deciding, rfl⟩ := onward.bind
          obtain ⟨found, rfl, rfl⟩ := looked.look.done
          cases queued with
          | true => exact ih woke deciding
          | false =>
              have elapsed := elapsed_of_isQueued woke found.symm
              obtain ⟨_, logged, _, _, logging, closing, rfl⟩ := deciding.bind
              obtain ⟨-, rfl, -⟩ := logging.perform
              obtain ⟨-, rfl, -⟩ := closing.done
              have timedOut := (woke.timedOut elapsed).apply woke.threaded woke.exist woke.continues
                (.log .selectionTimedOut)
              exact ⟨woke.apply (.log .selectionTimedOut) trivial not_false, timedOut⟩

private theorem blockedFor_times_out {made : World σ} (threaded : start.Threaded)
    (sound : start.ledger.Sound)
    (mine : own start.ledger.count)
    (created : made.system = (start.createAlarm queue (.selector index) deadline false).2)
    (returns : Returns (considerate own) environment (blockedFor bound index queue start.ledger.count)
      made none after noted) :
    Tracked start.ledger.count queue deadline start after.system ∧
      TimedOut start.ledger.count queue deadline start after.system := by
  obtain ⟨_, added, _, _, adding, awaiting, rfl⟩ := returns.bind
  obtain ⟨entered, adding⟩ := adding.discard
  have tracked := add_tracked threaded sound mine created adding.meanwhile
  rw [adding.run] at tracked
  exact awaitReadyOrAlarm_times_out tracked mine awaiting

private theorem waitFor_times_out {timeout : Tick} (some : timeout ≠ 0) (threaded : world.system.Threaded)
    (sound : world.system.ledger.Sound) (mine : own world.system.ledger.count)
    (returns : Returns (considerate own) environment (waitFor bound index queue timeout) world none after
      noted) :
    TimedOut world.system.ledger.count queue
      (Tick.deadlineAfter (world.system.queueNow queue) timeout) world.system after.system := by
  obtain ⟨reply, ready, _, _, taking, onward, rfl⟩ := returns.bind
  obtain ⟨-, taken, -⟩ := taking.perform
  have unconcerned : ¬ (Command.takeReady index).ConcernsAlarms := not_false
  have timing : ready.system.timing = world.system.timing :=
    taken ▸ Command.timing_apply unconcerned world.system
  have continues : ready.system.Continues world.system :=
    taken ▸ (System.Continues.refl world.system).apply (.takeReady index)
  have ledger : ready.system.ledger = world.system.ledger := congrArg Timing.ledger timing
  have kept : ready.system.Threaded := by
    rw [System.Threaded, timing]
    exact threaded
  rw [← ledger] at sound mine ⊢
  cases reply with
  | some signal =>
      obtain ⟨impossible, -, -⟩ := onward.done
      cases impossible
  | none =>
      change Returns _ _ (if timeout = 0 then _ else _ : Activity (Option Nat)) _ _ _ _ at onward
      rw [if_neg some] at onward
      obtain ⟨now, same, _, _, looked, creating, rfl⟩ := onward.bind
      obtain ⟨clock, unmoved, rfl⟩ := looked.look.done
      rw [unmoved] at creating
      obtain ⟨alarm, made, _, _, created, waiting, rfl⟩ := creating.bind
      obtain ⟨number, same, -⟩ := created.perform
      obtain ⟨last, _, blocked, dropped, -⟩ := waiting.ensuring
      have first : alarm = ready.system.ledger.count := number
      subst first
      obtain ⟨tracked, timedOut⟩ := blockedFor_times_out kept sound mine (congrArg World.system same) blocked
      have reading : now = world.system.queueNow queue := by
        have same : ready.system.ledger.now queue = world.system.ledger.now queue := by rw [ledger]
        exact clock.trans same
      rw [← reading, dropped]
      have ended := timedOut.apply tracked.threaded tracked.exist tracked.continues
        (.dropAlarm ready.system.ledger.count)
      have onward := tracked.continues.trans
        ((System.Continues.refl last.system).apply (.dropAlarm ready.system.ledger.count))
      exact ended.of_later continues onward

/-- The only alarm that a wait makes for itself is the next one. -/
private theorem waitFor_meanwhile {timeout : Tick}
    (spared : (waitFor bound index queue timeout).Spared environment [] world) :
    (waitFor bound index queue timeout).Meanwhile
      (considerate (· = world.system.ledger.count)) environment world := by
  obtain ⟨-, onward⟩ := spared_bind.mp spared
  refine meanwhile_bind.mpr ⟨trivial, fun signal ready taken => ?_⟩
  have later := onward signal ready taken
  have same : (world.apply (.takeReady index)).2 = ready := congrArg Prod.snd taken
  have unconcerned : ¬ (Command.takeReady index).ConcernsAlarms := not_false
  have timing := Command.timing_apply unconcerned world.system
  have count : ready.system.ledger.count = world.system.ledger.count := by
    rw [← same]
    exact congrArg (fun timing : Timing => timing.ledger.count) timing
  rw [← count]
  cases signal with
  | some signal => trivial
  | none =>
      change Activity.Spared _ _ (if timeout = 0 then _ else _ : Activity (Option Nat)) _ at later
      change Activity.Meanwhile _ _ (if timeout = 0 then _ else _ : Activity (Option Nat)) _
      by_cases none : timeout = 0
      · rw [if_pos none]
        trivial
      · rw [if_neg none] at later ⊢
        have blocked : (blockedFor bound index queue ready.system.ledger.count).Spared environment
            [ready.system.ledger.count] _ := spared_ensuring.mp later
        have uses : (blockedFor bound index queue ready.system.ledger.count).Uses
            (fun command => ∀ reply, command.makes reply = []) fun _ => True :=
          .bind (.discard (.weaken (Alarms.add_uses queue _ (fun _ => rfl) fun _ _ => rfl)
            fun _ _ => trivial)) fun _ => awaitReadyOrAlarm_uses (fun _ => rfl) (fun _ _ => rfl) bound _ bound
        have meanwhile := blocked.meanwhile uses fun _ makes => makes
        have single : (fun alarm => alarm ∈ [ready.system.ledger.count]) =
            fun alarm => alarm = ready.system.ledger.count := by
          funext alarm
          simp
        rw [single] at meanwhile
        exact meanwhile_ensuring.mpr meanwhile

/-- Without a timeout a wait only takes what is ready. -/
theorem waitFor_zero (bound index queue : Nat) (world : World σ) :
    (waitFor bound index queue 0).run environment world =
      (.ok (world.system.takeReady index).1,
        { world with system := (world.system.takeReady index).2 }) := by
  have same : waitFor bound index queue 0 = .perform (.takeReady index) := by
    refine congrArg (Activity.act (.takeReady index)) (funext fun signal => ?_)
    cases signal <;> rfl
  rw [same]
  rfl

end Selector

namespace System

private theorem takeReady_leaves (system : System) (index : Nat) :
    (system.takeReady index).2.signals = system.signals ∧
      (system.takeReady index).2.alarms = system.alarms := by
  simp only [takeReady]
  split <;> exact ⟨rfl, rfl⟩

end System

/-- An operation that makes no selector with more slots than its signal can count. -/
def Action.Attends (index : Nat) : Action → Prop
  | .createSelector selector capacity _ => selector = index → capacity ≤ Signal.ceiling
  | _ => True

private theorem Action.Attends.obeys {index : Nat} {action : Action} (attends : action.Attends index) :
    action.Obeys (·.Attends index) := by
  refine Action.obeys_attends fun command own => ?_
  cases action <;> cases own <;> trivial

namespace Selector

/-- A wait on a selector sleeps on nothing that is ready, and does not time out early. In any run that
leaves the posts of the selector's signal to its waits, the signal has a post for each ready slot. So a
wait blocks only while nothing is ready, at whatever point of whichever calls it does, and after a post of
a signal that calls the selector there is a post to wake up to. A wait with a timeout gives up only after
its own alarm was fired at a tick at which the deadline was due, with the deadline as of the call; others
may do anything meanwhile but handle that alarm. Without a timeout a wait takes the first ready slot or
none, and changes neither the queues nor the signals. -/
theorem waits_wake_in_time {setup : Setup} {index : Nat} {system : System}
    (few : (setup.system.selectors.get index).capacity ≤ Signal.ceiling)
    (run : Reaches (attends index) setup.system system) :
    let selector := system.selectors.get index
    (selector.readySlots.length ≤ (system.signal (.selector index)).pending ∧
      (system.signal (.selector index)).attachment = none) ∧
    (∀ reference slot alarm, system.Calls index reference slot → slot < selector.capacity →
      ((system.post reference alarm).signal (.selector index)).pending ≠ 0) ∧
    (Reaches civil setup.system system → ∀ signal alarm, (selector.slotOf? signal).isSome →
      ((system.post (.shared signal) alarm).signal (.selector index)).pending ≠ 0) ∧
    (∀ {σ : Type} (environment : Environment σ) (outside : σ) (bound : Nat),
      let world : World σ := { system, outside }
      let sleeps := fun request now => Reaches (attends index) system now ∧ Sleeps index request now
      ((wait bound index).Meanwhile (attends index) environment world →
        (wait bound index).Asks sleeps environment world) ∧
      ∀ queue timeout, (waitFor bound index queue timeout).Meanwhile (attends index) environment world →
        (waitFor bound index queue timeout).Asks sleeps environment world) ∧
    (Reaches proper setup.system system → ∀ (queue : Nat) (timeout : Tick), timeout ≠ 0 →
      ∀ {σ : Type} (environment : Environment σ) (outside : σ) (bound : Nat) (after : World σ),
        let call := waitFor bound index queue timeout
        let world : World σ := { system, outside }
        call.Spared environment [] world → call.run environment world = (.ok none, after) →
        Alarms.TimedOut system.ledger.count queue (Tick.deadlineAfter (system.queueNow queue) timeout)
          system after.system) ∧
    (∀ {σ : Type} (environment : Environment σ) (outside : σ) (bound queue : Nat),
      (waitFor bound index queue 0).run environment { system, outside } =
          (.ok (system.takeReady index).1, { system := (system.takeReady index).2, outside }) ∧
        (system.takeReady index).2.signals = system.signals ∧
        (system.takeReady index).2.alarms = system.alarms) ∧
    (∀ (bound : Nat) (script : Script), script.All (Action.Attends index) →
      Reaches (attends index) system (script.run bound system).2) ∧
    ∀ (bound : Nat) (inside : Interludes),
      let world : World Prompter := { system, outside := { cues := inside.cues bound } }
      (inside.All (Action.Attends index) → ∀ {α : Type} (activity : Activity α),
        activity.Meanwhile (attends index) Prompter.environment world) ∧
      ∀ named : Nat → Prop, system.Owns (· ∈ []) named → inside.All (Action.Names named) →
        ∀ {α : Type} (activity : Activity α), activity.Spared Prompter.environment [] world := by
  intro selector
  have start : ∃ slots, setup.system.Wakes index slots := ⟨[], Setup.wakes few⟩
  obtain ⟨slots, wakes⟩ := System.Wakes.reaches start run
  have hidden : ∀ shared, SignalRef.selector index ≠ .shared shared := fun _ same => nomatch same
  have free := run.unobserved hidden (setup.attachment_eq_none _)
  refine ⟨⟨?_, free⟩, ?_, ?_, ?_, ?_, ?_, ?_, ?_⟩
  · have enough := wakes.enough
    rwa [← wakes.lines.queues.readySlots_eq] at enough
  · exact fun reference slot alarm calls within => System.pending_post calls within alarm
  · intro proper signal alarm watched
    obtain ⟨⟨model, tracks⟩, -⟩ := (setup.matches_signals index).reaches proper
    obtain ⟨slot, filled⟩ := slotOf?_isSome.mp watched
    exact System.pending_post (tracks.filled_iff.mp filled) (lt_capacity_of_signalAt? filled) alarm
  · intro σ environment outside bound world sleeps
    have here : Reaches (attends index) system world.system := .refl system
    constructor
    · exact sleeps_of_ordinary ⟨slots, wakes⟩ here (wait_plain bound index).ordinary (wait_asks bound)
    · intro queue timeout
      exact sleeps_of_ordinary ⟨slots, wakes⟩ here (waitFor_ordinary bound index queue timeout)
        (waitFor_asks bound queue timeout)
  · intro proper queue timeout some σ environment outside bound after call world spared returned
    obtain ⟨threaded, sound⟩ := proper.sound setup.threaded setup.sound
    refine waitFor_times_out some threaded sound ?_ ⟨waitFor_meanwhile spared, returned, rfl⟩
    exact rfl
  · intro σ environment outside bound queue
    exact ⟨waitFor_zero bound index queue _, system.takeReady_leaves index⟩
  · intro bound script all
    exact all.runs (fun _ attends => attends.obeys) bound system
  · intro bound inside world
    constructor
    · exact fun all _ _ => .of_cues (all.cues (fun _ attends => attends.obeys) bound)
    · exact fun named owns all _ _ => all.spares owns fun _ member => member

/-- Two posts of the selector's signal are left over for one slot that was taken. A wait takes both, and
times out only after that, when its own alarm has fired. -/
theorem stale_posts_delay_timeout :
    let setup : Setup :=
      { clocks := [0], signals := [.host], queues := [{}], selectors := [{ capacity := 2 }] }
    let system := setup.system.strides
      [.watch 0 0, .beginPost (.shared 0), .beginPost (.shared 0), .takeReady 0]
    let inside : Interludes :=
      .next (.call (.advance 0 5) .none (.call (.check 0) .none .done)) (.ok ()) .none
    let world : World Prompter := { system, outside := { cues := inside.cues 9 } }
    let call := waitFor 9 0 0 5
    let after := (call.run Prompter.environment world).2
    Reaches (attends 0) setup.system system ∧ Reaches proper setup.system system ∧
      (system.signal (.selector 0)).pending = 2 ∧ (system.selectors.get 0).readySlots = [] ∧
      call.Spared Prompter.environment [] world ∧
      call.run Prompter.environment world = (.ok none, after) ∧
      Alarms.TimedOut system.ledger.count 0 (Tick.deadlineAfter (system.queueNow 0) 5) system after.system := by
  intro setup system inside world call after
  have attended : Reaches (attends 0) setup.system system :=
    .strides ⟨trivial, trivial, trivial, trivial, trivial⟩
  have run : Reaches proper setup.system system :=
    .strides ⟨trivial, trivial, trivial, trivial, trivial⟩
  have unowned : system.alarms.owned = [] := by decide +kernel
  have stale : (system.signal (.selector 0)).pending = 2 := by decide +kernel
  have unready : (system.selectors.get 0).readySlots = [] := by decide +kernel
  have timeout : (call.run Prompter.environment world).1 = .ok none := by decide +kernel
  clear_value system
  have returned : call.run Prompter.environment world = (.ok none, after) := Prod.ext timeout rfl
  have owns : system.Owns (· ∈ []) fun _ => False := by
    obtain ⟨threaded, -⟩ := run.sound setup.threaded setup.sound
    constructor
    case threaded => exact threaded
    case exist => simp [unowned]
    case apart => simp
    case named => simp
  obtain ⟨-, -, -, -, timesOut, -, -, inner⟩ := waits_wake_in_time (by decide) attended
  obtain ⟨-, spares⟩ := inner 9 inside
  have named : inside.All (Action.Names fun _ => False) :=
    ⟨⟨trivial, trivial, trivial, trivial, trivial⟩, trivial⟩
  have spared : call.Spared Prompter.environment [] world := spares _ owns named call
  exact ⟨attended, run, stale, unready, spared, returned,
    timesOut run 0 5 (by decide) Prompter.environment _ 9 after spared returned⟩

end Selector

end TimedWaits
