import TimedWaits.Proofs.Runs.Script
import TimedWaits.Proofs.Runs.Strides

/-! Every operation goes in strides, and so does every run of operations inside one another. The
commands are those that any call may apply, and those that only certain operations are for. -/

set_option autoImplicit false

namespace TimedWaits

/-- A command that any call may apply. It makes and drops no selector and no worker, attaches and
detaches nothing by itself, calls no selector without a post, takes no post of a private signal and
gives no worker a job. -/
def Command.IsOrdinary : Command → Prop
  | .attach _ _ _ | .detach _ _ | .markReady _ _ | .createSelector _ _ _ | .dropSelector _
  | .createWorker _ _ | .dropWorker _ | .putJob _ _ => False
  | .take signal => ∃ index, signal = .shared index
  | _ => True

/-- An ordinary command that puts no alarm into a queue, takes none off one by name and drops none. -/
def Command.IsPlain : Command → Prop
  | .insertAlarm _ _ | .withdrawAlarm _ _ | .dropAlarm _ => False
  | command => command.IsOrdinary

theorem Command.IsPlain.ordinary {command : Command} (plain : command.IsPlain) :
    command.IsOrdinary := by
  cases command with
  | insertAlarm | withdrawAlarm | dropAlarm => exact plain.elim
  | _ => exact plain

namespace Action

/-- The command that an operation is for, unless any call may apply it. -/
def own? : Action → Option Command
  | .attach signal observer token => some (.attach signal observer token)
  | .detach signal observer => some (.detach signal observer)
  | .callSelector selector token => some (.markReady selector token)
  | .createSelector selector capacity backend => some (.createSelector selector capacity backend)
  | .dropSelector selector => some (.dropSelector selector)
  | .createWorker worker backend => some (.createWorker worker backend)
  | .dropWorker worker => some (.dropWorker worker)
  | .putJob worker job => some (.putJob worker job)
  | _ => none

/-- Whether an operation calls the observer of a signal without a post. -/
def Forwards : Action → Prop
  | .forward _ => True
  | _ => False

/-- Whether an operation puts alarms into queues, takes them off by name or drops them. -/
def Schedules : Action → Prop
  | .addAlarm _ _ | .scheduleAlarm _ | .withdrawAlarm _ _ | .cancelAlarm _ | .dropAlarm _
  | .waitFor _ _ _ | .waitUntil _ _ _ | .selectFor _ _ _ | .waitForElements _ _ _ => True
  | _ => False

/-- What an operation may apply. -/
inductive Applies (action : Action) : Command → Prop where
  | ordinary {command : Command} (ordinary : command.IsOrdinary) : Applies action command
  | own {command : Command} (own : action.own? = some command) : Applies action command
  | forward (forwards : action.Forwards) (selector token : Nat) :
      Applies action (.markReady selector token)

end Action

/-- An activity that goes in strides of ordinary commands. -/
abbrev Activity.Ordinary {α : Type} (activity : Activity α) : Prop :=
  activity.Strides Command.IsOrdinary .nothing

/-- An activity that goes in strides of plain commands. -/
abbrev Activity.Plain {α : Type} (activity : Activity α) : Prop :=
  activity.Strides Command.IsPlain .nothing

open Activity

theorem Activity.Plain.ordinary {α : Type} {activity : Activity α} (plain : activity.Plain) :
    activity.Ordinary := plain.mono fun _ own => own.ordinary

namespace SignalRef

private theorem post_plain (signal : SignalRef) : Plain signal.post := .andThen trivial Strides.callAny

theorem wait_plain (bound signal : Nat) : Plain ((SignalRef.shared signal).wait bound) := by
  refine .bind (.awaitPost _ bound) fun _ => .discard ?_
  exact .perform ⟨signal, rfl⟩ fun _ => rfl

end SignalRef

namespace Alarms

private theorem create_plain (queue : Nat) (signal : SignalRef) (deadline : Tick) :
    Plain (create queue signal deadline) := by
  refine .bind (.read _) fun place => .bind (.discard ?_) fun _ => .done place
  exact .perform trivial fun _ => rfl

theorem add_uses {commands : Command → Prop} (queue alarm : Nat)
    (inserts : commands (.insertAlarm queue alarm)) (logs : ∀ notice, commands (.log notice)) :
    (add queue alarm).Uses commands fun request => ∃ target delay, request = .rearm target delay := by
  refine .bind (.read _) fun record => ?_
  split
  · exact .halt _ (logs _)
  · refine .bind (.perform inserts) fun position => ?_
    split
    · refine .bind (.read _) fun delay => .bind (.perform (logs _)) fun _ => ?_
      refine .bind (.read _) fun rearm => ?_
      cases rearm with
      | none => exact .done true
      | some target => exact .bind (.request ⟨target, delay, rfl⟩) fun _ => .done true
    · exact .done false
    · exact .done false

theorem add_ordinary (queue alarm : Nat) : Ordinary (add queue alarm) := by
  have uses : (add queue alarm).Uses
      (fun command => command.IsOrdinary ∧ ∀ reply, command.due reply = .nothing) _ :=
    add_uses queue alarm ⟨trivial, fun _ => rfl⟩ fun _ => ⟨trivial, fun _ => rfl⟩
  refine .mono (.of_uses uses (fun _ quiet => quiet.2) ?_) fun _ quiet => quiet.1
  rintro request ⟨target, delay, rfl⟩
  trivial

private theorem drain_plain (queue : Nat) (now : Tick) (bound : Nat) :
    Plain (drain queue now bound) := by
  induction bound with
  | zero => exact .fail _
  | succ bound ih =>
      refine .andThen trivial fun fired => ?_
      cases fired with
      | none => exact .done ()
      | some fired =>
          refine .bind (.callAny fired.attachment) fun _ => ?_
          exact .andThen trivial fun _ => ih

theorem check_plain (bound queue : Nat) : Plain (check bound queue) := by
  refine .bind (.read _) fun now => .bind (drain_plain queue now bound) fun _ => ?_
  refine .bind (.read _) fun deadline => ?_
  cases deadline with
  | none => exact .done 0
  | some deadline => exact .done _

theorem check_ordinary (bound queue : Nat) : Ordinary (check bound queue) :=
  (check_plain bound queue).ordinary

theorem waitUntil_ordinary (bound queue signal : Nat) (deadline : Tick) :
    Ordinary (waitUntil bound queue (.shared signal) deadline) := by
  refine .bind (.read _) fun now => ?_
  split
  · exact .done false
  · refine .andThen trivial fun alarm => ?_
    refine .ensuring ?_ trivial fun _ => rfl
    refine .bind (.discard (add_ordinary queue alarm)) fun _ => ?_
    refine .bind (SignalRef.wait_plain bound signal).ordinary fun _ => ?_
    exact .perform trivial fun _ => rfl

private theorem waitFor_ordinary (bound queue signal : Nat) (delay : Tick) :
    Ordinary (waitFor bound queue (.shared signal) delay) := by
  rw [waitFor]
  split
  · exact .done false
  · exact .bind (.read _) fun now => waitUntil_ordinary bound queue signal _

theorem round_plain (bound queue : Nat) (pace : LoopPace) : Plain (round bound queue pace) :=
  .bind (check_plain bound queue) fun _ => .bind (.read _) fun _ => .request trivial

private theorem runUntilStopped_plain (bound queue : Nat) (pace : LoopPace) (rounds : Nat) :
    Plain (runUntilStopped bound queue pace rounds) := by
  induction rounds with
  | zero => exact .fail _
  | succ rounds ih =>
      refine .bind (.read _) fun stopped => ?_
      split
      · exact .perform trivial fun _ => rfl
      · exact .bind (round_plain bound queue pace) fun _ => ih

private theorem runForever_plain (bound queue rounds : Nat) : Plain (runForever bound queue rounds) := by
  induction rounds with
  | zero => exact .fail _
  | succ rounds ih => exact .bind (round_plain bound queue {}) fun _ => ih

end Alarms

namespace Selector

private theorem watchOrHalt_plain (selector signal : Nat) : Plain (watchOrHalt selector signal) := by
  refine .andThen trivial fun accepted => ?_
  cases accepted with
  | error refusal => exact .halt trivial
  | ok => exact .done ()

private theorem awaitReady_plain (bound selector rounds : Nat) :
    Plain (awaitReady bound selector rounds) := by
  induction rounds with
  | zero => exact .fail _
  | succ rounds ih =>
      refine .bind (.awaitPost _ bound) fun _ => .andThen trivial fun signal => ?_
      cases signal with
      | none => exact ih
      | some signal => exact .done signal

theorem wait_plain (bound selector : Nat) : Plain (wait bound selector) := by
  refine .andThen trivial fun signal => ?_
  cases signal with
  | none => exact awaitReady_plain bound selector bound
  | some signal => exact .done signal

theorem awaitReadyOrAlarm_plain (bound selector alarm rounds : Nat) :
    Plain (awaitReadyOrAlarm bound selector alarm rounds) := by
  induction rounds with
  | zero => exact .fail _
  | succ rounds ih =>
      refine .bind (.awaitPost _ bound) fun _ => .andThen trivial fun signal => ?_
      cases signal with
      | some signal => exact .done _
      | none =>
          refine .bind (.read _) fun queued => ?_
          split
          · exact ih
          · exact .andThen trivial fun _ => .done none

theorem awaitReadyOrAlarm_uses {commands : Command → Prop} {selector : Nat}
    (takes : commands (.takeWakeup selector)) (logs : ∀ notice, commands (.log notice))
    (bound alarm rounds : Nat) :
    (awaitReadyOrAlarm bound selector alarm rounds).Uses commands fun _ => True := by
  induction rounds with
  | zero => exact .fail _
  | succ rounds ih =>
      refine .bind (.awaitPost _ bound trivial) fun _ => .bind (.perform takes) fun signal => ?_
      cases signal with
      | some signal => exact .done _
      | none =>
          refine .bind (.read _) fun queued => ?_
          cases queued with
          | true => exact ih
          | false => exact .bind (.perform (logs _)) fun _ => .done none

theorem waitFor_ordinary (bound selector queue : Nat) (timeout : Tick) :
    Ordinary (waitFor bound selector queue timeout) := by
  refine .andThen trivial fun signal => ?_
  cases signal with
  | some signal => exact .done _
  | none =>
      change Ordinary (if timeout = 0 then _ else _)
      split
      · exact .done none
      · refine .bind (.read _) fun now => .andThen trivial fun alarm => ?_
        refine .ensuring ?_ trivial fun _ => rfl
        exact .bind (.discard (Alarms.add_ordinary queue alarm))
          fun _ => (awaitReadyOrAlarm_plain bound selector alarm bound).ordinary

end Selector

namespace Workers

private theorem runOnce_plain (worker : Nat) : Plain (runOnce worker) := by
  refine .andThen trivial fun job => ?_
  cases job with
  | none => exact .done false
  | some job => exact .bind (.execute job) fun _ => .done true

theorem run_plain (bound worker rounds : Nat) : Plain (run bound worker rounds) := by
  induction rounds with
  | zero => exact .fail _
  | succ rounds ih =>
      refine .bind (.awaitPost _ bound) fun _ => .andThen trivial fun turn => ?_
      cases turn with
      | stop => exact .done ()
      | idle => exact ih
      | run job => exact .bind (.execute job) fun _ => ih

end Workers

namespace Rings

private theorem store_plain (ring : Nat) (elements : List Int) : Plain (store ring elements) :=
  .andThen trivial fun stored => .bind (.callAny stored.attachment) fun _ => .done stored.count

private theorem waitUntil_ordinary (bound ring queue signal : Nat) (deadline : Tick) (rounds : Nat) :
    Ordinary (waitUntil bound ring queue signal deadline rounds) := by
  induction rounds with
  | zero => exact .fail _
  | succ rounds ih =>
      refine .bind (.read _) fun filled => ?_
      split
      · exact .done true
      · refine .bind (Alarms.waitUntil_ordinary bound queue signal deadline) fun posted => ?_
        split
        · exact ih
        · exact .read _

private theorem waitFor_ordinary (bound ring queue : Nat) (timeout : Tick) :
    Ordinary (waitFor bound ring queue timeout) := by
  refine .bind (.read _) fun filled => ?_
  split
  · exact .done true
  · refine .bind (.read _) fun signal => ?_
    cases signal with
    | none => exact .halt trivial
    | some signal =>
        exact .bind (.read _) fun now => waitUntil_ordinary bound ring queue signal _ bound

end Rings

private theorem Action.own?_eq_some {action : Action} {command : Command}
    (own : action.own? = some command) :
    ¬ command.IsOrdinary := by
  cases action <;> cases own <;> exact not_false

/-- An operation that does not schedule alarms goes in strides of what it may apply, and of the ordinary
commands it applies plain ones only. -/
theorem Action.activity_plain {action : Action} (idle : ¬ action.Schedules) (bound : Nat) :
    (action.activity bound).Strides
      (fun command => action.Applies command ∧ (command.IsOrdinary → command.IsPlain)) .nothing := by
  have plain : ∀ {command : Command}, command.IsPlain →
      action.Applies command ∧ (command.IsOrdinary → command.IsPlain) :=
    fun plain => ⟨.ordinary plain.ordinary, fun _ => plain⟩
  have own : ∀ {command : Command}, action.own? = some command →
      action.Applies command ∧ (command.IsOrdinary → command.IsPlain) :=
    fun own => ⟨.own own, fun ordinary => absurd ordinary (own?_eq_some own)⟩
  have answering : ∀ {α : Type} {activity : Activity α} (answer : α → Answer), activity.Plain →
      (activity >>= fun value => .done (answer value)).Strides
        (fun command => action.Applies command ∧ (command.IsOrdinary → command.IsPlain)) .nothing :=
    fun _ strides => (strides.mono fun _ => plain).bind fun _ => .done _
  cases action with
  | nothing | inInterrupt => exact .done _
  | throw message => exact .fail _
  | halt reason => exact .halt (plain trivial)
  | require holds reason =>
      cases holds with
      | true => exact .done _
      | false => exact .halt (plain trivial)
  | forward signal =>
      have forwards : (Action.forward signal).Forwards := trivial
      refine .bind ?_ fun _ => .done _
      refine .bind (.read _) fun attachment => ?_
      cases attachment with
      | none => exact .done false
      | some attachment =>
          obtain ⟨observer, token⟩ := attachment
          cases observer with
          | custom index => exact .bind (.request trivial) fun _ => .done true
          | selector index =>
              exact .act ⟨.forward forwards index token, fun ordinary => ordinary⟩ fun _ => .done true
  | requestStop | addRearm | clearRearms | kick | sleepUntilKick | sleepDuringKick | raise | unwatch
  | selectReady | watch | killWorker | pushFront | pushBack | removeItem | visit | dropList
  | createList | fetch | fetchOne | insertSorted | resetRing | dissociate | associate =>
      exact .act (plain trivial) fun _ => .done _
  | detach | attach | callSelector | dropSelector | createSelector | putJob | dropWorker
  | createWorker =>
      exact .act (own rfl) fun _ => .done _
  | take signal | waitBriefly signal => exact .act (plain ⟨signal, rfl⟩) fun _ => .done _
  | waitDuringRaise signal =>
      exact .act (plain trivial) fun _ => .act (plain ⟨signal, rfl⟩) fun _ => .read _
  | advance | setClock | popFront | popFrontIf | find =>
      exact .act (plain trivial) fun _ => .read _
  | now | elapsed | rearmDelays | lastRearm | rearmRequests | isShiftedBy | pending | hasObserver
  | queueLength | queueIsEmpty | nextDeadline | queueNow | watchedCount | watchesNothing
  | selectorCapacity | isWatched | isKilled | jobCount | hasNoJobs | isJobQueued | containsItem
  | listLength | listIsEmpty | isLinked | ringIsEmpty | ringIsFull | ringLength | ringCapacity =>
      exact .read _
  | front | deadline => exact .bind (.read _) fun _ => .read _
  | isQueued place => exact .look fun _ => .look fun _ => .done _
  | createAlarm queue signal due =>
      exact answering _ (Alarms.create_plain queue (.shared signal) due)
  | createAlarmAfter queue signal delay =>
      refine answering _ ?_
      exact .bind (.read _) fun now => Alarms.create_plain queue (.shared signal) _
  | check queue => exact answering _ (Alarms.check_plain bound queue)
  | runForever queue => exact answering _ (Alarms.runForever_plain bound queue bound)
  | runUntilStopped queue pace =>
      exact answering _ (Alarms.runUntilStopped_plain bound queue pace bound)
  | post signal => exact answering _ (SignalRef.post_plain (.shared signal))
  | wait signal => exact answering _ (SignalRef.wait_plain bound signal)
  | watchOrHalt selector signal => exact answering _ (Selector.watchOrHalt_plain selector signal)
  | select selector => exact answering _ (Selector.wait_plain bound selector)
  | runWorker worker => exact answering _ (Workers.run_plain bound worker bound)
  | runOneJob worker => exact answering _ (Workers.runOnce_plain worker)
  | store ring elements => exact answering _ (Rings.store_plain ring elements)
  | withdrawAlarm | dropAlarm | cancelAlarm | addAlarm | scheduleAlarm | waitFor | waitUntil | selectFor
  | waitForElements => exact absurd trivial idle

/-- An operation goes in strides of what it may apply. -/
theorem Action.activity_strides (action : Action) (bound : Nat) :
    (action.activity bound).Strides action.Applies .nothing := by
  have answering : ∀ {α : Type} {activity : Activity α} (answer : α → Answer), activity.Ordinary →
      (activity >>= fun value => .done (answer value)).Strides action.Applies .nothing :=
    fun _ strides => (strides.mono fun _ => .ordinary).bind fun _ => .done _
  by_cases schedules : action.Schedules
  · cases action with
    | withdrawAlarm | dropAlarm => exact .look fun _ => .act (.ordinary trivial) fun _ => .done _
    | cancelAlarm =>
        exact .look fun _ => .look fun _ => .act (.ordinary trivial) fun _ => .done _
    | addAlarm queue place =>
        refine answering _ ?_
        exact .bind (.read _) fun alarm => Alarms.add_ordinary queue alarm
    | scheduleAlarm place =>
        refine answering _ ?_
        exact .bind (.read _) fun alarm => .bind (.read _) fun queue => Alarms.add_ordinary queue alarm
    | waitFor queue signal delay =>
        exact answering _ (Alarms.waitFor_ordinary bound queue signal delay)
    | waitUntil queue signal due => exact answering _ (Alarms.waitUntil_ordinary bound queue signal due)
    | selectFor selector queue timeout =>
        exact answering _ (Selector.waitFor_ordinary bound selector queue timeout)
    | waitForElements ring queue timeout =>
        exact answering _ (Rings.waitFor_ordinary bound ring queue timeout)
    | _ => exact schedules.elim
  · exact (Action.activity_plain schedules bound).mono fun _ own => own.1

/-! ### Runs of operations -/

section Runs

variable {commands : Command → Prop} {holds : Action → Prop}

/-- Whether an operation applies commands of a kind only. -/
def Action.Obeys (commands : Command → Prop) (action : Action) : Prop :=
  ∀ command, action.Applies command → commands command

theorem Action.obeys_of_own {action : Action} (ordinary : ∀ command, command.IsOrdinary → commands command)
    (marks : action.Forwards → ∀ selector token, commands (.markReady selector token))
    (own : ∀ command, action.own? = some command → commands command) : action.Obeys commands := by
  intro command applies
  cases applies with
  | ordinary plain => exact ordinary command plain
  | own same => exact own command same
  | forward forwards selector token => exact marks forwards selector token

theorem Reaches.begin (ordinary : ∀ command, command.IsOrdinary → commands command)
    {first last : System} (request : Request) (before : Reaches (fun _ => commands) first last) :
    Reaches (fun _ => commands) first (request.begin last) := by
  cases request with
  | rearm log delay =>
      have rearmed := before.note (.rearmed log delay) trivial
      exact rearmed.stride (.addRearm log delay) (ordinary _ trivial)
  | sleep clock delay =>
      have slept := before.note (.slept clock delay) trivial
      exact slept.stride (.advance clock delay) (ordinary _ trivial)
  | observe | execute | idle => exact before.note _ trivial

theorem Activity.Returns.reaches_of {σ α : Type} {environment : Environment σ} {world after : World σ}
    {activity : Activity α} {value : α} {noted : List Occurrence}
    (ordinary : ∀ command, command.IsOrdinary → commands command)
    (strides : activity.Strides commands .nothing)
    (returns : Returns (fun _ => commands) environment activity world value after noted) :
    Reaches (fun _ => commands) world.system after.system := by
  obtain ⟨meanwhile, run, -⟩ := returns
  have reached := strides.reaches (fun request before => before.begin ordinary request) meanwhile
    (.refl _)
  rwa [run] at reached

/-- A call comes to its end by a run of what it may apply and of what others do meanwhile. -/
theorem Action.Obeys.runs {σ : Type} {environment : Environment σ} {world : World σ} {action : Action}
    {bound : Nat} (obeys : action.Obeys commands)
    (meanwhile : (action.activity bound).Meanwhile (fun _ => commands) environment world) :
    Reaches (fun _ => commands) world.system
      ((action.activity bound).run environment world).2.system :=
  ((action.activity_strides bound).mono obeys).reaches
    (fun request before => before.begin (fun _ plain => obeys _ (.ordinary plain)) request)
    meanwhile (.refl _)

/-- A call comes by such a run to each moment at which it lets others act. -/
theorem Action.Obeys.asks {σ : Type} {environment : Environment σ} {world : World σ} {action : Action}
    {bound : Nat} (obeys : action.Obeys commands)
    (meanwhile : (action.activity bound).Meanwhile (fun _ => commands) environment world) :
    (action.activity bound).Asks (fun _ now => Reaches (fun _ => commands) world.system now)
      environment world :=
  ((action.activity_strides bound).mono obeys).asks
    (fun request before => before.begin (fun _ plain => obeys _ (.ordinary plain)) request)
    meanwhile (.refl _)

mutual

/-- Whether all operations of a script are of a kind, also those that run inside others. -/
def Script.All (holds : Action → Prop) : Script → Prop
  | .done => True
  | .call action inside rest => holds action ∧ inside.All holds ∧ rest.All holds

def Interludes.All (holds : Action → Prop) : Interludes → Prop
  | .none => True
  | .next script _ rest => script.All holds ∧ rest.All holds

end

mutual

theorem Script.all_of_forall (always : ∀ action, holds action) (script : Script) :
    script.All holds := by
  cases script with
  | done => trivial
  | call action inside rest =>
      exact ⟨always action, inside.all_of_forall always, rest.all_of_forall always⟩

theorem Interludes.all_of_forall (always : ∀ action, holds action) (interludes : Interludes) :
    interludes.All holds := by
  cases interludes with
  | none => trivial
  | next script answer rest => exact ⟨script.all_of_forall always, rest.all_of_forall always⟩

end

mutual

/-- Operations of which each may apply some commands only make a run of such commands, whatever goes on
inside each of them. -/
theorem Script.All.runs
    (allowed : ∀ action, holds action → ∀ command, action.Applies command → commands command)
    (bound : Nat) {script : Script} (all : script.All holds) (system : System) :
    Reaches (fun _ => commands) system (script.run bound system).2 := by
  cases script with
  | done => exact .refl system
  | call action inside rest =>
      obtain ⟨own, within, later⟩ := all
      let world : World Prompter := { system, outside := { cues := inside.cues bound } }
      have meanwhile :
          (action.activity bound).Meanwhile (fun _ => commands) Prompter.environment world :=
        .of_cues (Interludes.All.cues allowed bound within)
      have obeys : action.Obeys commands := allowed action own
      exact (obeys.runs meanwhile).trans (later.runs allowed bound _)

theorem Interludes.All.cues
    (allowed : ∀ action, holds action → ∀ command, action.Applies command → commands command)
    (bound : Nat) {interludes : Interludes} (all : interludes.All holds) (cue : Cue)
    (member : cue ∈ interludes.cues bound) (system : System) :
    Reaches (fun _ => commands) system (cue.play system).2 := by
  cases interludes with
  | none => cases member
  | next script answer rest =>
      rcases List.mem_cons.mp member with rfl | member
      · exact all.1.runs allowed bound system
      · exact Interludes.All.cues allowed bound all.2 cue member system

end

end Runs

/-- Whatever can be done. -/
def anything : Conduct := fun _ _ => True

theorem Script.reaches_anything (bound : Nat) (script : Script) (system : System) :
    Reaches anything system (script.run bound system).2 :=
  (script.all_of_forall fun _ => trivial).runs (fun _ _ _ _ => trivial) bound system

end TimedWaits
