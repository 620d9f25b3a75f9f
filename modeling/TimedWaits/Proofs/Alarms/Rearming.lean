import TimedWaits.Proofs.Alarms.Announcements

/-! Sleeping between checks. A check reports how long no deadline is reached. Only an alarm that enters
its queue at the front can bring a deadline closer than that, and such an entry is announced. So whoever
sleeps as long as a check reports, until the next announcement, passes no deadline. -/

set_option autoImplicit false

namespace TimedWaits

open Activity

/-- Proper commands after each of which one window holds the current tick of a queue's clock, the
deadlines in the queue and a further tick. -/
def anchored (queue : Nat) (anchor : Tick) : Conduct := fun system command =>
  system.ledger.Proper command ∧ ∃ base, (command.apply system).2.ledger.Within queue base ∧
    Tick.InWindow base anchor

namespace System

variable {system first last : System} {queue alarm target : Nat} {anchor delay base : Tick}
  {command : Command}

/-- A queue in order, with a window that holds its current tick, its deadlines and a further tick. -/
structure Anchored (queue : Nat) (anchor : Tick) (system : System) : Prop where
  threaded : system.Threaded
  sound : system.ledger.Sound
  ordered : system.ledger.Ordered queue
  window : ∃ base, system.ledger.Within queue base ∧ Tick.InWindow base anchor

/-- No deadline in a queue comes sooner after a tick than by a delay, which is not zero unless the queue
is empty. -/
def Rests (queue : Nat) (anchor delay : Tick) (system : System) : Prop :=
  ∀ alarm ∈ system.ledger.members queue,
    delay ≠ 0 ∧ (delay.toNat : Int) ≤ Tick.distance (system.ledger.deadline alarm) anchor

namespace Anchored

theorem apply (holds : system.Anchored queue anchor) (allowed : anchored queue anchor system command) :
    (command.apply system).2.Anchored queue anchor := by
  obtain ⟨step, kept⟩ := command.step_apply holds.threaded
  obtain ⟨proper, base, within, near⟩ := allowed
  exact ⟨kept, holds.sound.step step proper, holds.ordered.step step holds.sound within,
    base, within, near⟩

/-- A command that leaves the clock of the queue alone and puts no alarm into a queue stays in the
window. -/
theorem allows (holds : system.Anchored queue anchor) (quiet : ¬ command.Enqueues)
    (still : (command.apply system).2.ledger.now queue = system.ledger.now queue) :
    anchored queue anchor system command := by
  obtain ⟨step, -⟩ := command.step_apply holds.threaded
  obtain ⟨base, within, near⟩ := holds.window
  refine ⟨?_, base, ⟨?_, fun alarm member => ?_⟩, near⟩
  · cases command with
    | insertAlarm => exact absurd trivial quiet
    | _ => trivial
  · rw [still]
    exact within.now
  · rcases step.members queue with fewer | ⟨entered, rfl, -⟩
    · have former := fewer.subset member
      rw [step.extends.deadline alarm (holds.sound.stored queue alarm former)]
      exact within.deadlines alarm former
    · exact absurd trivial quiet

theorem note (holds : system.Anchored queue anchor) {occurrence : Occurrence}
    (aside : occurrence.IsAside) : (system.record occurrence).Anchored queue anchor := by
  have same := system.ledger_record aside
  exact ⟨holds.threaded.record aside, same ▸ holds.sound, same ▸ holds.ordered, same ▸ holds.window⟩

private theorem mark (holds : system.Anchored queue anchor) (index token : Nat) :
    ((Command.markReady index token).apply system).2.Anchored queue anchor :=
  holds.apply (holds.allows not_false
    (congrArg (fun timing : Timing => timing.ledger.now queue) (timing_markReady index token)))

private theorem stride (holds : system.Anchored queue anchor)
    (allowed : anchored queue anchor system command) :
    (system.stride command).Anchored queue anchor :=
  stride_preserves (motive := fun next => next.Anchored queue anchor) (holds.apply allowed)
    fun index token kept => kept.mark index token

private theorem reaches (holds : first.Anchored queue anchor)
    (run : Reaches (anchored queue anchor) first last) :
    last.Anchored queue anchor :=
  run.preserves (motive := fun system => system.Anchored queue anchor) holds
    (fun kept allowed => kept.stride allowed) fun kept aside => kept.note aside

/-- A queue rests if it does up to the deadline of its first alarm. -/
private theorem rests (holds : system.Anchored queue anchor)
    (undue : ∀ alarm ∈ (system.ledger.members queue).head?, system.ledger.isDue anchor alarm = false) :
    system.Rests queue anchor (Alarms.reported anchor (system.alarms.nextDeadline? queue)) := by
  intro alarm member
  obtain ⟨base, within, near⟩ := holds.window
  have nearest : system.alarms.nextDeadline? queue =
      (system.ledger.members queue).head?.map system.ledger.deadline :=
    congrArg (Option.map system.ledger.deadline) (LinkedLists.Spells.front?_eq holds.threaded queue)
  have ordered := holds.ordered
  rw [nearest]
  have own := within.deadlines alarm member
  cases members : system.ledger.members queue with
  | nil => simp [members] at member
  | cons front rest =>
      rw [members] at undue member
      rw [Ledger.Ordered, members, List.pairwise_cons] at ordered
      have deadline := within.deadlines front (members ▸ List.mem_cons_self)
      obtain ⟨leads, positive⟩ := deadline.offset_remaining near (undue front rfl)
      have least : Tick.offset base (system.ledger.deadline front) ≤
          Tick.offset base (system.ledger.deadline alarm) := by
        rcases List.mem_cons.mp member with rfl | later
        · exact Nat.le_refl _
        · exact (ordered.1 alarm later).offset_le deadline own
      simp only [List.head?_cons, Option.map_some, Alarms.reported, Tick.max_one positive]
      rw [own.distance_eq near]
      refine ⟨fun zero => ?_, by omega⟩
      rw [zero] at positive
      exact Nat.lt_irrefl 0 positive

end Anchored

/-- A queue goes on resting through any step but an entry at its front. -/
private theorem Rests.apply (rests : system.Rests queue anchor delay) (holds : system.Anchored queue anchor)
    (allowed : anchored queue anchor system command) :
    (command.apply system).2.Rests queue anchor delay ∨
      ∃ alarm, command = .insertAlarm queue alarm ∧ (system.insertAlarm queue alarm).1 = some 0 := by
  obtain ⟨step, -⟩ := command.step_apply holds.threaded
  have kept : ∀ alarm ∈ system.ledger.members queue,
      delay ≠ 0 ∧ (delay.toNat : Int) ≤ Tick.distance ((command.apply system).2.ledger.deadline alarm)
        anchor := by
    intro alarm member
    rw [step.extends.deadline alarm (holds.sound.stored queue alarm member)]
    exact rests alarm member
  rcases step.members queue with fewer | ⟨alarm, rfl, same, loose⟩
  · exact .inl fun alarm member => kept alarm (fewer.subset member)
  · by_cases front : (system.insertAlarm queue alarm).1 = some 0
    · exact .inr ⟨alarm, rfl, front⟩
    · refine .inl fun other member => ?_
      obtain ⟨-, base, within, near⟩ := allowed
      rw [same] at within member
      rcases Ledger.mem_insert.mp member with rfl | former
      · obtain ⟨reply, -, -⟩ := holds.threaded.insertAlarm_loose queue loose
        cases ahead : system.ledger.ahead queue other with
        | nil =>
            rw [reply, ahead] at front
            exact absurd rfl front
        -- The new alarm is behind one whose deadline is no later, and that one is far enough.
        | cons earlier others =>
            have before : earlier ∈ system.ledger.ahead queue other := ahead ▸ List.mem_cons_self
            have queued : earlier ∈ system.ledger.members queue :=
              system.ledger.ahead_append_behind queue other ▸ List.mem_append_left _ before
            have deadline : Tick.InWindow base (system.ledger.deadline other) :=
              within.deadlines other member
            have deadlineEarlier : Tick.InWindow base (system.ledger.deadline earlier) :=
              within.deadlines earlier (Ledger.mem_insert.mpr (.inr queued))
            have order := Ledger.offset_le_of_mem_ahead before deadline deadlineEarlier
            obtain ⟨some, least⟩ := rests earlier queued
            refine ⟨some, least.trans ?_⟩
            rw [same]
            change _ ≤ Tick.distance (system.ledger.deadline other) anchor
            rw [deadlineEarlier.distance_eq near, deadline.distance_eq near]
            exact Int.sub_le_sub_right (Int.ofNat_le.mpr order) _
      · exact kept other former

/-- Since an earlier moment a queue rests, or an alarm has entered it at the front. -/
structure RestsUnlessLed (queue : Nat) (anchor delay : Tick) (first last : System) : Prop
    extends Grows first last where
  holds : last.Anchored queue anchor
  rests : last.Rests queue anchor delay ∨ ∃ alarm < last.ledger.count,
    (last.alarms.alarms.get alarm).queue = queue ∧ .queued alarm 0 ∈ last.since first

namespace RestsUnlessLed

private theorem apply (led : RestsUnlessLed queue anchor delay first last)
    (allowed : anchored queue anchor last command) :
    RestsUnlessLed queue anchor delay first (command.apply last).2 := by
  have grows := led.toGrows.apply command
  have after := (Grows.refl led.threaded).apply command
  have whole := led.continues.since_trans after.continues
  refine ⟨grows, led.holds.apply allowed, ?_⟩
  rcases led.rests with rests | ⟨alarm, exist, belongs, noted⟩
  · refine (rests.apply led.holds allowed).imp_right ?_
    rintro ⟨alarm, rfl, front⟩
    obtain ⟨exist, belongs⟩ := allowed.1
    have since := last.since_insertAlarm queue alarm
    rw [front] at since
    refine ⟨alarm, Nat.lt_of_lt_of_le exist after.extend.count,
      (after.extend.queue alarm exist).trans belongs, ?_⟩
    rw [whole]
    refine List.mem_append_left _ ?_
    change _ ∈ (last.insertAlarm queue alarm).2.since last
    rw [since]
    exact List.mem_singleton_self _
  · refine .inr ⟨alarm, Nat.lt_of_lt_of_le exist after.extend.count,
      (after.extend.queue alarm exist).trans belongs, ?_⟩
    rw [whole]
    exact List.mem_append_right _ noted

private theorem note (led : RestsUnlessLed queue anchor delay first last) {occurrence : Occurrence}
    (aside : occurrence.IsAside) : RestsUnlessLed queue anchor delay first (last.record occurrence) := by
  have same := last.ledger_record aside
  have whole := led.continues.since_trans ((Continues.refl last).record occurrence)
  refine ⟨led.toGrows.note aside, led.holds.note aside, ?_⟩
  rcases led.rests with rests | ⟨alarm, exist, belongs, noted⟩
  · left
    rw [Rests, same]
    exact rests
  · refine .inr ⟨alarm, same ▸ exist, belongs, ?_⟩
    rw [whole]
    exact List.mem_append_right _ noted

private theorem reaches (rests : first.Rests queue anchor delay) (holds : first.Anchored queue anchor)
    (run : Reaches (anchored queue anchor) first last) :
    RestsUnlessLed queue anchor delay first last := by
  refine run.preserves (motive := RestsUnlessLed queue anchor delay first)
    ⟨.refl holds.threaded, holds, .inl rests⟩ ?_ fun led aside => led.note aside
  intro system command led allowed
  refine stride_preserves (led.apply allowed) fun {next} index token led => ?_
  have still : ((Command.markReady index token).apply next).2.ledger.now queue = next.ledger.now queue :=
    congrArg (fun timing : Timing => timing.ledger.now queue) (timing_markReady index token)
  exact led.apply (led.holds.allows not_false still)

/-- Where every entry at the front is announced and nothing was announced, the queue rests. -/
private theorem rests_of_untold (led : RestsUnlessLed queue anchor delay first last)
    (announces : Announces target first last)
    (told : (first.alarms.queues.get queue).rearm = some target)
    (untold : ∀ delay, .rearmed target delay ∉ last.since first) : last.Rests queue anchor delay := by
  rcases led.rests with rests | ⟨alarm, -, belongs, noted⟩
  · exact rests
  · have none : (last.since first).countP (Occurrence.isRearming target) = 0 := by
      rw [List.countP_eq_zero]
      intro occurrence member rearming
      cases occurrence with
      | rearmed log delay =>
          obtain rfl : log = target := of_decide_eq_true rearming
          exact untold delay member
      | _ => cases rearming
    have lead : last.isLead target (.queued alarm 0) = true := by
      refine decide_eq_true ?_
      rw [rearmOf, led.queues, belongs]
      exact told
    have some : 0 < (last.since first).countP (last.isLead target) :=
      List.countP_pos_iff.mpr ⟨_, noted, lead⟩
    rw [← announces.balance, none] at some
    exact absurd some (Nat.lt_irrefl 0)

end RestsUnlessLed

end System

private theorem Reaches.queues {conduct : Conduct} {first last : System}
    (run : Reaches conduct first last) :
    last.alarms.queues = first.alarms.queues :=
  run.preserves (motive := fun system => system.alarms.queues = first.alarms.queues) rfl
    (fun same _ => System.stride_preserves
      (motive := fun system => system.alarms.queues = first.alarms.queues)
      ((System.queues_apply _ _).trans same) fun _ _ called => (System.queues_apply _ _).trans called)
    fun same _ => same

private theorem Leads.queues {permits : Permit} {first last : System} (leads : Leads permits first last) :
    last.alarms.queues = first.alarms.queues := by
  induction leads with
  | refl => rfl
  | apply _ _ ih => exact (System.queues_apply _ _).trans ih
  | note _ _ ih => exact ih

namespace Alarms

variable {σ : Type} {environment : Environment σ} {world checked : World σ} {queue bound : Nat}
  {delay : Tick}

theorem check_anchored {anchor : Tick}
    (meanwhile : (check bound queue).Meanwhile (anchored queue anchor) environment world)
    (holds : world.system.Anchored queue anchor) :
    ((check bound queue).run environment world).2.system.Anchored queue anchor := by
  refine (check_uses bound queue).preserves (motive := fun system => system.Anchored queue anchor)
    meanwhile holds ?_ ?_ fun holds run => holds.reaches run
  · rintro system command holds (⟨now, rfl⟩ | ⟨unconcerned, -⟩)
    · exact holds.apply (holds.allows not_false (system.now_fireFirst queue queue now))
    · have same := Command.timing_apply unconcerned system
      refine holds.apply (holds.allows (fun entering => ?_)
        (congrArg (fun timing : Timing => timing.ledger.now queue) same))
      cases command with
      | insertAlarm => exact unconcerned trivial
      | _ => exact entering
  · rintro system request holds ⟨observer, token, rfl⟩
    exact holds.note trivial

/-- When a check returns, the queue rests for as long as it reports. -/
theorem check_rests
    (meanwhile : (check bound queue).Meanwhile (anchored queue (world.system.queueNow queue)) environment
      world)
    (holds : world.system.Anchored queue (world.system.queueNow queue))
    (returned : (check bound queue).run environment world = (.ok delay, checked)) :
    checked.system.Anchored queue (world.system.queueNow queue) ∧
      checked.system.Rests queue (world.system.queueNow queue) delay := by
  have after := check_anchored meanwhile holds
  rw [returned] at after
  obtain ⟨drained, rfl⟩ := check_reports returned
  exact ⟨after, after.rests (drain_undue drained after.threaded)⟩

private theorem check_queues {conduct : Conduct}
    (meanwhile : (check bound queue).Meanwhile conduct environment world) :
    ((check bound queue).run environment world).2.system.alarms.queues = world.system.alarms.queues := by
  refine (check_uses bound queue).preserves
    (motive := fun system => system.alarms.queues = world.system.alarms.queues) meanwhile rfl ?_ ?_ ?_
  · intro system command same _
    exact (System.queues_apply command system).trans same
  · rintro system request same ⟨observer, token, rfl⟩
    exact same
  · intro first last same run
    exact run.queues.trans same

/-- A timer that follows what a check reports, and what it is told by re-arming, passes no deadline. An
addition re-arms the timer of its queue exactly if it returns that the alarm is the first one, once and
with the ticks left until its deadline, when the alarm is at the front. No other operation on alarms or
clocks asks for that. So whatever operations run, inside one another as well, the timer was told of every
entry at the front and of nothing else, when they end and whenever one of them lets others act. Now let a
check have reported a delay, and let alarms and clocks move on such that their ticks stay in one window
with the tick of the check. As long as the timer was told of nothing, either no alarm is in the queue, or
the delay is not zero and no deadline is earlier than the tick of the check and the delay. -/
theorem timer_never_oversleeps {setup : Setup} {queue target : Nat}
    (rearm : (setup.system.alarms.queues.get queue).rearm = some target) :
    (∀ {σ : Type} (environment : Environment σ) (world : World σ) (alarm : Nat),
      Reaches anything setup.system world.system →
      (world.system.alarms.alarms.get alarm).queue = queue →
      let entry := world.system.insertAlarm queue alarm
      let entered := world.system.enter queue alarm
      let answer := environment (.rearm target (world.system.leadOf queue alarm))
        { world with system := entered }
      if entry.1 = some 0 then
        (entered.alarms.members queue).head? = some alarm ∧
          (add queue alarm).run environment world = (answer.1.map fun _ => true, answer.2)
      else (add queue alarm).run environment world = (.ok false, { world with system := entry.2 })) ∧
    (∀ action : Action, action.IsTiming → ¬ action.Adds →
      ∀ {σ : Type} (environment : Environment σ) (world : World σ) (bound : Nat),
        (action.activity bound).Asks (fun request _ => ∀ delay, request ≠ .rearm target delay)
          environment world) ∧
    (∀ (script : Script) (bound : Nat) (system : System), Reaches anything setup.system system →
      script.All Action.IsTiming → script.InScope system.alarms.owned.length →
      system.Announces target (script.run bound system).2 ∧
      ∀ action inside rest, script = .call action inside rest →
        (action.activity bound).Asks (fun request now => system.Announces target (request.begin now))
          Prompter.environment { system, outside := { cues := inside.cues bound } }) ∧
    ∀ {σ : Type} (environment : Environment σ) (world checked : World σ) (bound : Nat) (delay : Tick),
      Leads (windowed queue) setup.system world.system →
      let tick := world.system.queueNow queue
      (check bound queue).Meanwhile (anchored queue tick) environment world →
      (check bound queue).run environment world = (.ok delay, checked) →
      ∀ last, Reaches (anchored queue tick) checked.system last →
        checked.system.Announces target last →
        (∀ delay, .rearmed target delay ∉ last.since checked.system) →
        ∀ alarm ∈ last.alarms.members queue, delay ≠ 0 ∧
          ∀ base, last.ledger.Within queue base → Tick.InWindow base tick →
            Tick.offset base tick + delay.toNat ≤
              Tick.offset base (last.alarms.alarms.get alarm).deadline := by
  refine ⟨?_, ?_, ?_, ?_⟩
  · intro σ environment world alarm run belongs entry entered answer
    have grows := (System.Grows.refl setup.threaded).reaches run
    rw [add_run belongs, grows.queues, rearm]
    split
    · next front => exact ⟨head_enter grows.threaded front, rfl⟩
    · rfl
  · intro action timing adds σ environment world bound
    refine (Action.timing_uses timing adds bound).asks.mono ?_
    rintro request system ⟨observer, token, rfl⟩ delay same
    cases same
  · intro script bound system run all scope
    refine ⟨(all.announces target bound scope (.of_run run)).1, ?_⟩
    rintro action inside rest rfl
    obtain ⟨timing, within, -⟩ := all
    obtain ⟨names, scopeWithin, -⟩ := scope
    have heralded := within.heralded target bound scopeWithin (.of_run run)
    exact heralded.asks timing names bound
  · intro σ environment world checked bound delay leads tick meanwhile returned last run announces untold
      alarm member
    obtain ⟨threaded, sound, ordered, base, within⟩ := leads.ordered setup.threaded setup.sound
      (setup.ordered queue) ⟨_, setup.within queue⟩
    have holds : world.system.Anchored queue tick := ⟨threaded, sound, ordered, base, within, within.now⟩
    obtain ⟨after, rests⟩ := check_rests meanwhile holds returned
    have queues := check_queues meanwhile
    rw [returned, leads.queues] at queues
    have told : (checked.system.alarms.queues.get queue).rearm = some target := by rw [queues, rearm]
    have led := System.RestsUnlessLed.reaches rests after run
    obtain ⟨some, least⟩ := led.rests_of_untold announces told untold alarm member
    refine ⟨some, fun base within near => ?_⟩
    have deadline := within.deadlines alarm member
    rw [deadline.distance_eq near] at least
    change _ ≤ Tick.offset base (last.ledger.deadline alarm)
    omega

/-- The check is made before the ticks wrap. The timer is told of nothing while a second alarm enters behind
the first one and that one leaves, and the clock may then go on to the tick that the check reported. -/
theorem later_head_waits_past_wrap :
    let setup : Setup :=
      { clocks := [4294967290], signals := [.host], rearms := [{}], queues := [{ rearm := some 0 }] }
    let system := setup.system.applyAll [.createAlarm 0 (.shared 0) 4 true,
      .createAlarm 0 (.shared 0) 20 true, .insertAlarm 0 0]
    let world : World Prompter := { system, outside := { cues := [] } }
    let checked := ((check 3 0).run Prompter.environment world).2
    let last := checked.system.strides [.insertAlarm 0 1, .withdrawAlarm 0 0, .advance 0 10]
    (setup.system.alarms.queues.get 0).rearm = some 0 ∧ Leads (windowed 0) setup.system system ∧
      (check 3 0).run Prompter.environment world = (.ok 10, checked) ∧
      Reaches (anchored 0 4294967290) checked.system last ∧ checked.system.Announces 0 last ∧
      last.alarms.members 0 = [1] ∧ last.queueNow 0 = 4 ∧
      ∀ alarm ∈ last.alarms.members 0, (10 : Tick) ≠ 0 ∧ ∀ base, last.ledger.Within 0 base →
        Tick.InWindow base 4294967290 → Tick.offset base 4294967290 + (10 : Tick).toNat ≤
          Tick.offset base (last.alarms.alarms.get alarm).deadline := by
  have announced : ∀ system : System, system.Threaded → 1 < system.ledger.count →
      (system.insertAlarm 0 1).1 ≠ some 0 →
      system.Announces 0 (system.strides [.insertAlarm 0 1, .withdrawAlarm 0 0, .advance 0 10]) := by
    intro system threaded exist behind
    have entered : system.Announces 0 (system.stride (.insertAlarm 0 1)) :=
      (System.Announces.refl threaded).insertAlarm exist behind
    have withdrawn : system.Announces 0 (system.strides [.insertAlarm 0 1, .withdrawAlarm 0 0]) :=
      entered.apply not_false
    exact withdrawn.apply not_false
  intro setup system world checked last
  have rearm : (setup.system.alarms.queues.get 0).rearm = some 0 := by decide
  have tick : system.queueNow 0 = 4294967290 := by decide +kernel
  have reported : ((check 3 0).run Prompter.environment world).1 = .ok 10 := by decide +kernel
  have behind : (checked.system.insertAlarm 0 1).1 ≠ some 0 := by decide +kernel
  have exist : 1 < checked.system.ledger.count := by decide +kernel
  have left : last.alarms.members 0 = [1] := by decide +kernel
  have current : last.queueNow 0 = 4 := by decide +kernel
  have untold : (last.since checked.system).countP (Occurrence.isRearming 0) = 0 := by decide +kernel
  have leads : Leads (windowed 0) setup.system system := by
    refine Leads.applyAll ⟨?_, ?_, ?_, trivial⟩
    · exact ⟨trivial, 4294967290, by decide, by decide⟩
    · exact ⟨trivial, 4294967290, by decide, by decide⟩
    · exact ⟨⟨by decide, by decide⟩, 4294967290, by decide, by decide⟩
  have run : Reaches (anchored 0 4294967290) checked.system last := by
    refine .strides ⟨?_, ?_, ?_, trivial⟩
    · refine ⟨⟨exist, ?_⟩, 4294967290, ⟨?_, ?_⟩, ?_⟩ <;> decide +kernel
    · refine ⟨trivial, 4294967290, ⟨?_, ?_⟩, ?_⟩ <;> decide +kernel
    · refine ⟨trivial, 4294967290, ⟨?_, ?_⟩, ?_⟩ <;> decide +kernel
  clear_value system
  have returned : (check 3 0).run Prompter.environment world = (.ok 10, checked) := Prod.ext reported rfl
  have meanwhile : (check 3 0).Meanwhile (anchored 0 (world.system.queueNow 0)) Prompter.environment
      world := .of_cues nofun
  obtain ⟨threaded, sound, ordered, base, within⟩ := leads.ordered setup.threaded setup.sound
    (setup.ordered 0) ⟨_, setup.within 0⟩
  have holds : world.system.Anchored 0 (world.system.queueNow 0) :=
    ⟨threaded, sound, ordered, base, within, within.now⟩
  have after := check_anchored meanwhile holds
  have announces : checked.system.Announces 0 last := announced checked.system after.threaded exist behind
  clear_value last checked
  obtain ⟨-, -, -, sleeps⟩ := timer_never_oversleeps rearm
  have quiet : ∀ delay, .rearmed 0 delay ∉ last.since checked.system :=
    fun delay noted => List.countP_eq_zero.mp untold _ noted rfl
  have rests := sleeps Prompter.environment world checked 3 10 leads meanwhile returned last
  change Reaches (anchored 0 (system.queueNow 0)) _ _ → _ at rests
  rw [tick] at rests
  exact ⟨rearm, leads, returned, run, announces, left, current, rests run announces quiet⟩

end Alarms

end TimedWaits
