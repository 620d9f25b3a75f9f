import TimedWaits.Calls.Rings
import TimedWaits.Calls.Selectors
import TimedWaits.Calls.Workers
import TimedWaits.Proofs.Shift.Activities

/-! Every call goes the same way in a system and in one with all moments moved. -/

set_option autoImplicit false

namespace TimedWaits

open Activity

variable {k : Tick}

theorem Attachment.call_steady (attachment : Attachment) : Steady k attachment.call := by
  rw [call]
  cases attachment.observer with
  | custom => exact .request _
  | selector => exact .perform trivial

theorem Attachment.callAny_steady (attachment : Option Attachment) :
    Steady k (callAny attachment) := by
  cases attachment with
  | none => exact .done rfl
  | some attachment => exact attachment.call_steady

namespace SignalRef

variable (signal : SignalRef)

theorem post_steady : Steady k signal.post :=
  .andThen (.perform trivial) Attachment.callAny_steady

theorem forward_steady : Steady k signal.forward := by
  refine .observing (fun _ => rfl) fun attachment => ?_
  cases attachment with
  | none => exact .done rfl
  | some attachment => exact .andThen attachment.call_steady fun _ => .done rfl

theorem awaitPost_steady (bound : Nat) : Steady k (signal.awaitPost bound) := by
  induction bound with
  | zero => exact .fail _
  | succ bound ih =>
      refine .observing (fun _ => rfl) fun pending => ?_
      split
      · exact .andThen (.request _) fun _ => ih
      · exact .done rfl

theorem wait_steady (bound : Nat) : Steady k (signal.wait bound) :=
  .andThen (signal.awaitPost_steady bound) fun _ => .discarded (.perform trivial)

end SignalRef

namespace Alarms

theorem createAlarm_alike (queue : Nat) (signal : SignalRef) (deadline : Tick) (owned : Bool) :
    Alike k Eq (.perform (.createAlarm queue signal deadline owned))
      (.perform (.createAlarm queue signal (deadline + k) owned)) := by
  have moves (system : System) := @System.createAlarm_shift k system queue signal deadline owned
  exact .act (fun system => congrArg Prod.snd (moves system))
    fun system => .done (congrArg Prod.fst (moves system)).symm

theorem create_alike (queue : Nat) (signal : SignalRef) (deadline : Tick) :
    Alike k Eq (create queue signal deadline) (create queue signal (deadline + k)) :=
  .observing (fun _ => rfl) fun _ =>
    .bind (.discarded (createAlarm_alike queue signal deadline true)) fun _ _ _ => .done rfl

theorem createAfter_steady (queue : Nat) (signal : SignalRef) (delay : Tick) :
    Steady k (createAfter queue signal delay) := by
  refine .reading (· + k) (fun _ => System.queueNow_shift queue) fun now => ?_
  rw [Tick.deadlineAfter_shift]
  exact create_alike queue signal _

theorem add_steady (queue alarm : Nat) : Steady k (add queue alarm) := by
  refine .reading (Alarm.shift k) (fun _ => System.alarm_shift alarm) fun record => ?_
  have meant : (record.shift k).queue = record.queue := rfl
  rw [meant]
  split
  · exact .halt _
  · refine .andThen (.perform trivial) fun position => ?_
    split
    · have left (system : System) :
          Tick.remaining (record.shift k).deadline ((system.shift k).queueNow queue) =
            Tick.remaining record.deadline (system.queueNow queue) := by
        rw [System.queueNow_shift]
        exact Tick.remaining_shift _ _
      refine .observing left fun delay => .andThen (.perform trivial) fun _ => ?_
      refine .observing (fun _ => rfl) fun rearm => ?_
      cases rearm with
      | none => exact .done rfl
      | some target => exact .andThen (.request _) fun _ => .done rfl
    · exact .done rfl
    · exact .done rfl

private theorem drain_alike (queue : Nat) (now : Tick) (bound : Nat) :
    Alike k Eq (drain queue now bound) (drain queue (now + k) bound) := by
  induction bound with
  | zero => exact .fail _
  | succ bound ih =>
      have moves (system : System) := @System.fireFirst_shift k system queue now
      refine .act (fun system => congrArg Prod.snd (moves system)) fun system => ?_
      have first : ((Command.fireFirst queue (now + k)).apply (system.shift k)).1 =
          ((Command.fireFirst queue now).apply system).1.map (FiredAlarm.shift k) :=
        congrArg Prod.fst (moves system)
      rw [first]
      cases ((Command.fireFirst queue now).apply system).1 with
      | none => exact .done rfl
      | some fired =>
          refine .andThen (Attachment.callAny_steady fired.attachment) fun _ => ?_
          exact .act (fun _ => rfl) fun _ => ih

theorem check_steady (bound queue : Nat) : Steady k (check bound queue) := by
  refine .reading (· + k) (fun _ => System.queueNow_shift queue) fun now => ?_
  refine .bind (drain_alike queue now bound) fun _ _ _ => ?_
  refine .reading (Option.map (· + k)) (fun _ => System.nextDeadline?_shift queue) fun deadline => ?_
  cases deadline with
  | none => exact .done rfl
  | some deadline =>
      refine .done ?_
      change max (Tick.remaining deadline now) 1 = max (Tick.remaining (deadline + k) (now + k)) 1
      rw [Tick.remaining_shift]

theorem waitUntil_alike (bound queue : Nat) (signal : SignalRef) (deadline : Tick) :
    Alike k Eq (waitUntil bound queue signal deadline)
      (waitUntil bound queue signal (deadline + k)) := by
  refine .reading (· + k) (fun _ => System.queueNow_shift queue) fun now => ?_
  rw [Tick.isDue_shift]
  split
  · exact .done rfl
  · refine .bind (createAlarm_alike queue signal deadline false) fun alarm _ same => ?_
    subst same
    refine .ensuring ?_ trivial
    refine .andThen (.discarded (add_steady queue alarm)) fun _ => ?_
    refine .andThen (signal.wait_steady bound) fun _ => ?_
    exact .perform (show (Command.withdrawAlarm queue alarm).IsTimeless from trivial)

theorem waitFor_steady (bound queue : Nat) (signal : SignalRef) (delay : Tick) :
    Steady k (waitFor bound queue signal delay) := by
  rw [waitFor]
  split
  · exact .done rfl
  · refine .reading (· + k) (fun _ => System.queueNow_shift queue) fun now => ?_
    rw [Tick.deadlineAfter_shift]
    exact waitUntil_alike bound queue signal _

theorem round_steady (bound queue : Nat) (pace : LoopPace) : Steady k (round bound queue pace) :=
  .andThen (check_steady bound queue) fun _ => .observing (fun _ => rfl) fun _ => .request _

theorem runUntilStopped_steady (bound queue : Nat) (pace : LoopPace) (rounds : Nat) :
    Steady k (runUntilStopped bound queue pace rounds) := by
  induction rounds with
  | zero => exact .fail _
  | succ rounds ih =>
      refine .observing (fun _ => rfl) fun stopped => ?_
      split
      · exact .perform (show (Command.log .loopStopped).IsTimeless from trivial)
      · exact .andThen (round_steady bound queue pace) fun _ => ih

theorem runForever_steady (bound queue rounds : Nat) : Steady k (runForever bound queue rounds) := by
  induction rounds with
  | zero => exact .fail _
  | succ rounds ih => exact .andThen (round_steady bound queue {}) fun _ => ih

end Alarms

namespace Selector

theorem watchOrHalt_steady (selector signal : Nat) : Steady k (watchOrHalt selector signal) := by
  refine .andThen (.perform trivial) fun accepted => ?_
  cases accepted with
  | error refusal => exact .halt _
  | ok => exact .done rfl

private theorem awaitReady_steady (bound selector rounds : Nat) :
    Steady k (awaitReady bound selector rounds) := by
  induction rounds with
  | zero => exact .fail _
  | succ rounds ih =>
      refine .andThen (SignalRef.awaitPost_steady _ bound) fun _ => ?_
      refine .andThen (.perform trivial) fun signal => ?_
      cases signal with
      | none => exact ih
      | some signal => exact .done rfl

theorem wait_steady (bound selector : Nat) : Steady k (wait bound selector) := by
  refine .andThen (.perform trivial) fun signal => ?_
  cases signal with
  | none => exact awaitReady_steady bound selector bound
  | some signal => exact .done rfl

private theorem awaitReadyOrAlarm_steady (bound selector alarm rounds : Nat) :
    Steady k (awaitReadyOrAlarm bound selector alarm rounds) := by
  induction rounds with
  | zero => exact .fail _
  | succ rounds ih =>
      refine .andThen (SignalRef.awaitPost_steady _ bound) fun _ => ?_
      refine .andThen (.perform trivial) fun signal => ?_
      cases signal with
      | some signal => exact .done rfl
      | none =>
          refine .observing (fun _ => System.isQueued_shift alarm) fun queued => ?_
          split
          · exact ih
          · exact .andThen (.perform trivial) fun _ => .done rfl

theorem waitFor_steady (bound selector queue : Nat) (timeout : Tick) :
    Steady k (waitFor bound selector queue timeout) := by
  refine .andThen (.perform trivial) fun signal => ?_
  cases signal with
  | some signal => exact .done rfl
  | none =>
      change Alike k Eq (if timeout = 0 then _ else _) (if timeout = 0 then _ else _)
      split
      · exact .done rfl
      · refine .reading (· + k) (fun _ => System.queueNow_shift queue) fun now => ?_
        rw [Tick.deadlineAfter_shift]
        refine .bind (Alarms.createAlarm_alike queue (.selector selector) _ false)
          fun alarm _ same => ?_
        subst same
        refine .ensuring ?_ trivial
        exact .andThen (.discarded (Alarms.add_steady queue alarm))
          fun _ => awaitReadyOrAlarm_steady bound selector alarm bound

end Selector

namespace Workers

theorem runOnce_steady (worker : Nat) : Steady k (runOnce worker) := by
  refine .andThen (.perform trivial) fun job => ?_
  cases job with
  | none => exact .done rfl
  | some job => exact .andThen (.request _) fun _ => .done rfl

theorem run_steady (bound worker rounds : Nat) : Steady k (run bound worker rounds) := by
  induction rounds with
  | zero => exact .fail _
  | succ rounds ih =>
      refine .andThen (SignalRef.awaitPost_steady _ bound) fun _ => ?_
      refine .andThen (.perform trivial) fun turn => ?_
      cases turn with
      | stop => exact .done rfl
      | idle => exact ih
      | run job => exact .andThen (.request _) fun _ => ih

end Workers

namespace Rings

theorem store_steady (ring : Nat) (elements : List Int) : Steady k (store ring elements) :=
  .andThen (.perform trivial) fun stored =>
    .andThen (Attachment.callAny_steady stored.attachment) fun _ => .done rfl

theorem hasElements_steady (ring : Nat) : Steady k (hasElements ring) := .read fun _ => rfl

private theorem waitUntil_alike (bound ring queue signal : Nat) (deadline : Tick) (rounds : Nat) :
    Alike k Eq (waitUntil bound ring queue signal deadline rounds)
      (waitUntil bound ring queue signal (deadline + k) rounds) := by
  induction rounds with
  | zero => exact .fail _
  | succ rounds ih =>
      refine .andThen (hasElements_steady ring) fun filled => ?_
      split
      · exact .done rfl
      · refine .bind (Alarms.waitUntil_alike bound queue (.shared signal) deadline)
          fun posted _ same => ?_
        subst same
        split
        · exact ih
        · exact hasElements_steady ring

theorem waitFor_steady (bound ring queue : Nat) (timeout : Tick) :
    Steady k (waitFor bound ring queue timeout) := by
  refine .andThen (hasElements_steady ring) fun filled => ?_
  split
  · exact .done rfl
  · refine .observing (fun _ => rfl) fun signal => ?_
    cases signal with
    | none => exact .halt _
    | some signal =>
        refine .reading (· + k) (fun _ => System.queueNow_shift queue) fun now => ?_
        rw [Tick.deadlineAfter_shift]
        exact waitUntil_alike bound ring queue signal _ bound

end Rings

end TimedWaits
