import TimedWaits.Proofs.Shift.Calls

/-! Every operation goes the same way in a system and in one with all moments moved, when the moments
that the operation names are moved too. -/

set_option autoImplicit false

namespace TimedWaits

namespace Activity

variable {k : Tick} {α : Type}

/-- Two activities that go the same way, the second to the answer of the first with its moments
moved. -/
abbrev Answers (k : Tick) (activity moved : Activity Answer) : Prop :=
  Alike k (fun answer answerMoved => answerMoved = answer.shift k) activity moved

namespace Answers

private theorem telling {answer : α → Answer} (timeless : ∀ value, (answer value).shift k = answer value)
    {activity moved : Activity α} (alike : Alike k Eq activity moved) :
    Answers k (activity >>= fun value => pure (answer value))
      (moved >>= fun value => pure (answer value)) :=
  alike.bind fun value _ same => .done (same ▸ (timeless value).symm)

end Answers

end Activity

open Activity

variable {k : Tick}

private theorem Answer.ofOption_shift {α : Type} {answer : α → Answer}
    (timeless : ∀ value, (answer value).shift k = answer value) (found : Option α) :
    (ofOption answer found).shift k = ofOption answer found := by
  cases found with
  | none => rfl
  | some value => exact timeless value

private theorem Answer.ofExcept_shift (result : Except Refusal Unit) :
    (ofExcept result).shift k = ofExcept result := by
  cases result <;> rfl

namespace Action

private theorem queueOf_shift (alarm : Nat) (system : System) :
    ((system.shift k).alarms.alarms.get alarm).queue = (system.alarms.alarms.get alarm).queue := by
  rw [System.alarm_shift]
  rfl

theorem activity_answers (bound : Nat) (action : Action) :
    Answers k (action.activity bound) ((action.shift k).activity bound) := by
  cases action with
  | nothing | inInterrupt => exact .done rfl
  | throw message => exact .fail _
  | halt reason => exact .halt reason
  | requestStop | addRearm | clearRearms | kick | sleepUntilKick | sleepDuringKick | raise | take
  | waitBriefly | detach | unwatch | callSelector | dropSelector | createSelector | putJob
  | killWorker | dropWorker | createWorker | pushFront | pushBack | removeItem | visit | dropList
  | createList | fetch | resetRing | dissociate =>
      exact .performing trivial fun _ => .done rfl
  | attach | watch | associate =>
      exact .performing trivial fun result => .done (Answer.ofExcept_shift result).symm
  | selectReady | insertSorted | fetchOne =>
      exact .performing trivial fun found => .done (Answer.ofOption_shift (fun _ => rfl) _).symm
  | popFront | popFrontIf | find =>
      exact .performing trivial fun found => .read fun _ =>
        (Answer.ofOption_shift (fun _ => rfl) _).symm
  | isShiftedBy | hasObserver | watchesNothing | isWatched | queueIsEmpty | isKilled | hasNoJobs
  | isJobQueued | containsItem | listIsEmpty | isLinked | ringIsEmpty | ringIsFull
  | rearmDelays | rearmRequests | pending | queueLength | watchedCount | selectorCapacity
  | jobCount | listLength | ringLength | ringCapacity =>
      exact .read fun _ => rfl
  | lastRearm => exact .read fun _ => (Answer.ofOption_shift (fun _ => rfl) _).symm
  | require holds reason =>
      cases holds with
      | true => exact .done rfl
      | false => exact .halt reason
  | now clock => exact .read fun _ => congrArg Answer.moment (System.now_shift clock)
  | advance clock delay =>
      exact .performing trivial fun _ => .read fun _ =>
        congrArg Answer.moment (System.now_shift clock)
  | setClock clock tick =>
      exact .act (fun _ => System.setClock_shift clock tick) fun _ => .read fun _ =>
        congrArg Answer.moment (System.now_shift clock)
  | elapsed clock start =>
      refine .read fun system => congrArg Answer.delay ?_
      rw [System.now_shift, Tick.since_shift]
  | queueNow queue =>
      refine .read fun system => congrArg Answer.moments ?_
      rw [System.queueNow_shift, System.now_shift]
      rfl
  | nextDeadline queue =>
      refine .read fun system => ?_
      rw [System.nextDeadline?_shift]
      cases system.alarms.nextDeadline? queue <;> rfl
  | deadline place =>
      refine .observing (fun _ => rfl) fun alarm => .read fun system => ?_
      rw [System.alarm_shift]
      rfl
  | front list => exact .observing (fun _ => rfl) fun found => .read fun _ =>
      (Answer.ofOption_shift (fun _ => rfl) _).symm
  | waitDuringRaise signal timed =>
      refine .performing trivial fun _ => .performing trivial fun _ => .read fun system => ?_
      rw [System.signal_shift]
      split <;> rfl
  | isQueued place =>
      exact .telling (fun _ => rfl) <| .observing (fun _ => rfl) fun alarm =>
        .read fun _ => (System.isQueued_shift alarm).symm
  | withdrawAlarm queue place =>
      refine .telling (fun _ => rfl) <| .observing (fun _ => rfl) fun alarm => ?_
      exact .performing trivial fun _ => .done rfl
  | dropAlarm place =>
      refine .telling (fun _ => rfl) <| .observing (fun _ => rfl) fun alarm => ?_
      exact .performing trivial fun _ => .done rfl
  | cancelAlarm place =>
      refine .telling (fun _ => rfl) <| .observing (fun _ => rfl) fun alarm => ?_
      refine .observing (queueOf_shift alarm) fun queue => ?_
      exact .performing trivial fun _ => .done rfl
  | addAlarm queue place =>
      exact .telling (fun _ => rfl) <| .observing (fun _ => rfl) fun alarm =>
        Alarms.add_steady queue alarm
  | scheduleAlarm place =>
      exact .telling (fun _ => rfl) <| .observing (fun _ => rfl) fun alarm =>
        .observing (queueOf_shift alarm) fun queue => Alarms.add_steady queue alarm
  | createAlarm queue signal due =>
      exact .telling (fun _ => rfl) (Alarms.create_alike queue (.shared signal) due)
  | createAlarmAfter queue signal delay =>
      exact .telling (fun _ => rfl) (Alarms.createAfter_steady queue (.shared signal) delay)
  | check queue => exact .telling (fun _ => rfl) (Alarms.check_steady bound queue)
  | waitFor queue signal delay =>
      exact .telling (fun _ => rfl) (Alarms.waitFor_steady bound queue (.shared signal) delay)
  | waitUntil queue signal due =>
      exact .telling (fun _ => rfl) (Alarms.waitUntil_alike bound queue (.shared signal) due)
  | runForever queue =>
      exact .telling (fun _ => rfl) (Alarms.runForever_steady bound queue bound)
  | runUntilStopped queue pace =>
      exact .telling (fun _ => rfl) (Alarms.runUntilStopped_steady bound queue pace bound)
  | post signal => exact .telling (fun _ => rfl) (SignalRef.post_steady (.shared signal))
  | wait signal => exact .telling (fun _ => rfl) (SignalRef.wait_steady (.shared signal) bound)
  | forward signal => exact .telling (fun _ => rfl) (SignalRef.forward_steady (.shared signal))
  | watchOrHalt selector signal =>
      exact .telling (fun _ => rfl) (Selector.watchOrHalt_steady selector signal)
  | select selector => exact .telling (fun _ => rfl) (Selector.wait_steady bound selector)
  | selectFor selector queue timeout =>
      exact .telling (Answer.ofOption_shift fun _ => rfl)
        (Selector.waitFor_steady bound selector queue timeout)
  | runWorker worker => exact .telling (fun _ => rfl) (Workers.run_steady bound worker bound)
  | runOneJob worker => exact .telling (fun _ => rfl) (Workers.runOnce_steady worker)
  | store ring elements => exact .telling (fun _ => rfl) (Rings.store_steady ring elements)
  | waitForElements ring queue timeout =>
      exact .telling (fun _ => rfl) (Rings.waitFor_steady bound ring queue timeout)

end Action

end TimedWaits
