import TimedWaits.Proofs.Alarms.Loops
import TimedWaits.Proofs.Alarms.Passages
import TimedWaits.Proofs.Runs.Operations

/-! Every scheduling ends once. Through any run at all, an alarm that entered a queue leaves it by one
firing, one withdrawal or one drop, or is still there. -/

set_option autoImplicit false

namespace TimedWaits

namespace System

variable {first last next : System} {alarm queue : Nat}

theorem Threaded.single (threaded : first.Threaded) : first.ledger.Single where
  nodup := threaded.nodup
  disjoint := threaded.disjoint

/-- How often an alarm is in a queue: once or not at all. -/
def presence (system : System) (alarm : Nat) : Nat := (system.alarms.lists.isLinked alarm).toNat

theorem Threaded.presence_eq_one (threaded : first.Threaded) (held : first.ledger.Holds alarm) :
    first.presence alarm = 1 := by
  have linked := (LinkedLists.Spells.linked threaded alarm).mpr held
  change first.alarms.lists.isLinked alarm = true at linked
  rw [presence, linked]
  rfl

theorem Threaded.presence_eq_zero (threaded : first.Threaded) (loose : ¬ first.ledger.Holds alarm) :
    first.presence alarm = 0 := by
  have unlinked := (LinkedLists.Spells.isLinked_eq_false threaded).mpr (not_exists.mp loose)
  change first.alarms.lists.isLinked alarm = false at unlinked
  rw [presence, unlinked]
  rfl

/-- What happened since an earlier moment accounts for the alarms that are in a queue. -/
structure Accounts (first last : System) : Prop where
  threaded : last.Threaded
  continues : last.Continues first
  balance : ∀ alarm, first.presence alarm + (last.since first).countP (Occurrence.isEntryOf alarm) =
    (last.since first).countP (Occurrence.isExitOf alarm) + last.presence alarm
  alternate : ∀ alarm earlier, earlier <:+ last.since first →
    earlier.countP (Occurrence.isExitOf alarm) ≤
        first.presence alarm + earlier.countP (Occurrence.isEntryOf alarm) ∧
      first.presence alarm + earlier.countP (Occurrence.isEntryOf alarm) ≤
        earlier.countP (Occurrence.isExitOf alarm) + 1
  posts : ∀ alarm, (last.since first).countP (Occurrence.isPostBy alarm) =
    (last.since first).countP (Occurrence.isFiringOf alarm)
  order : ∀ queue, ((first.alarms.members queue).filter fun alarm =>
    !(last.since first).any (Occurrence.isExitOf alarm)).Sublist (last.alarms.members queue)

private theorem Accounts.refl (threaded : first.Threaded) : first.Accounts first := by
  have none : first.since first = [] := since_eq rfl
  refine ⟨threaded, .refl first, ?_, ?_, ?_, ?_⟩
  · intro alarm
    rw [none]
    exact (Nat.zero_add _).symm
  · intro alarm earlier suffix
    rw [none, List.suffix_nil] at suffix
    subst suffix
    refine ⟨Nat.zero_le _, ?_⟩
    simpa [presence] using Bool.toNat_le _
  · intro alarm
    rw [none]
    rfl
  · intro queue
    exact List.filter_sublist

private theorem tally {notes : List Occurrence} (before : last.Threaded) (after : next.Threaded)
    (balances : Ledger.Balances last.ledger next.ledger notes alarm) :
    last.presence alarm + notes.countP (Occurrence.isEntryOf alarm) =
        notes.countP (Occurrence.isExitOf alarm) + next.presence alarm ∧
      notes.countP (Occurrence.isEntryOf alarm) + last.presence alarm ≤ 1 ∧
      notes.countP (Occurrence.isExitOf alarm) ≤ last.presence alarm := by
  cases balances with
  | same held entries exits =>
      rw [entries, exits]
      by_cases still : last.ledger.Holds alarm
      · rw [before.presence_eq_one still, after.presence_eq_one (held.mpr still)]
        omega
      · rw [before.presence_eq_zero still, after.presence_eq_zero (mt held.mp still)]
        omega
  | entered loose held entries exits =>
      rw [entries, exits, before.presence_eq_zero loose, after.presence_eq_one held]
      omega
  | left held loose entries exits =>
      rw [entries, exits, before.presence_eq_one held, after.presence_eq_zero loose]
      omega

private theorem Accounts.step {command : Command} {reply : command.Reply} (accounts : first.Accounts last)
    (threaded : next.Threaded) (onward : next.Continues last)
    (passes : last.ledger.Passes next.ledger command reply
      ((next.since last).filter Occurrence.isPassage)) : first.Accounts next := by
  have single := accounts.threaded.single
  have whole := accounts.continues.since_trans onward
  have counted : ∀ alarm,
      last.presence alarm + (next.since last).countP (Occurrence.isEntryOf alarm) =
          (next.since last).countP (Occurrence.isExitOf alarm) + next.presence alarm ∧
        (next.since last).countP (Occurrence.isEntryOf alarm) + last.presence alarm ≤ 1 ∧
        (next.since last).countP (Occurrence.isExitOf alarm) ≤ last.presence alarm := by
    intro alarm
    have counts := tally accounts.threaded threaded (passes.balances single alarm)
    rwa [Occurrence.countP_filter_isPassage _ fun _ => Occurrence.isPassage_of_isEntryOf,
      Occurrence.countP_filter_isPassage _ fun _ => Occurrence.isPassage_of_isExitOf] at counts
  refine ⟨threaded, accounts.continues.trans onward, ?_, ?_, ?_, ?_⟩
  · intro alarm
    have before := accounts.balance alarm
    have after := (counted alarm).1
    rw [whole, List.countP_append, List.countP_append]
    omega
  · intro alarm earlier suffix
    obtain ⟨recent, same⟩ := suffix
    rw [whole] at same
    rcases List.append_eq_append_iff.mp same with ⟨part, split, rfl⟩ | ⟨rest, -, split⟩
    · have within : part <:+ next.since last := ⟨recent, split.symm⟩
      have entries := within.sublist.countP_le (p := Occurrence.isEntryOf alarm)
      have exits := within.sublist.countP_le (p := Occurrence.isExitOf alarm)
      have before := accounts.balance alarm
      obtain ⟨-, enters, leaves⟩ := counted alarm
      rw [List.countP_append, List.countP_append]
      omega
    · exact accounts.alternate alarm earlier ⟨rest, split.symm⟩
  · intro alarm
    have posts := passes.posts alarm
    rw [Occurrence.countP_filter_isPassage _ fun _ => Occurrence.isPassage_of_isPostBy,
      Occurrence.countP_filter_isPassage _ fun _ => Occurrence.isPassage_of_isFiringOf] at posts
    rw [whole, List.countP_append, List.countP_append, posts, accounts.posts]
  · intro queue
    have onward := passes.sublist single queue
    have before := (accounts.order queue).filter fun alarm =>
      !((next.since last).filter Occurrence.isPassage).any (Occurrence.isExitOf alarm)
    refine List.Sublist.trans ?_ (before.trans onward)
    simp only [List.filter_filter, whole, List.any_append, Bool.not_or,
      Occurrence.any_filter_isPassage _ fun _ => Occurrence.isPassage_of_isExitOf]
    exact List.Sublist.refl _

/-- Whatever is done, what happened accounts for the alarms that are in a queue. -/
theorem Accounts.reaches (threaded : first.Threaded) (run : Reaches anything first last) :
    first.Accounts last := by
  refine run.preserves_apply (motive := fun system => first.Accounts system) (.refl threaded)
    (fun _ _ _ => trivial) ?_ ?_
  · intro system command accounts _
    exact accounts.step (command.step_apply accounts.threaded).2
      ((Continues.refl system).apply command) (command.passes accounts.threaded)
  · intro system occurrence accounts aside
    -- A note beside the commands is like a command that moves no alarm.
    have none : ((system.record occurrence).since system).filter Occurrence.isPassage = [] := by
      rw [system.since_record]
      cases occurrence <;> first | rfl | exact aside.elim
    have passes : system.ledger.Passes (system.record occurrence).ledger (.requestStop true) ()
        (((system.record occurrence).since system).filter Occurrence.isPassage) := by
      rw [none, system.ledger_record aside]
      exact .stays rfl rfl
    exact accounts.step (accounts.threaded.record aside) ((Continues.refl system).record occurrence)
      passes

/-- Once an alarm left its queue it does not leave one again before it enters one. -/
private theorem Accounts.exits_once (accounts : first.Accounts last) {later earlier : List Occurrence}
    {exit : Occurrence} (since : last.since first = later ++ exit :: earlier)
    (leaves : exit.isExitOf alarm = true) (out : later.countP (Occurrence.isEntryOf alarm) = 0) :
    later.countP (Occurrence.isExitOf alarm) = 0 := by
  have whole := (accounts.alternate alarm _ List.suffix_rfl).1
  have before := (accounts.alternate alarm earlier (since ▸ ⟨later ++ [exit], by simp⟩)).2
  have notEntry : exit.isEntryOf alarm = false := by
    cases exit <;> first | rfl | cases leaves
  rw [since, List.countP_append, List.countP_append, List.countP_cons_of_pos leaves,
    List.countP_cons_of_neg (by rw [notEntry]; exact Bool.false_ne_true)] at whole
  omega

end System

private theorem Setup.presence_eq_zero (setup : Setup) (alarm : Nat) : setup.system.presence alarm = 0 := by
  refine setup.threaded.presence_eq_zero ?_
  rintro ⟨queue, member⟩
  rw [setup.members_eq_nil] at member
  cases member

namespace Alarms

theorem check_uses (bound queue : Nat) :
    (check bound queue).Uses
      (fun command => (∃ now, command = .fireFirst queue now) ∨
        ¬ command.ConcernsAlarms ∧ ¬ command.IsPost)
      fun request => ∃ observer token, request = .observe observer token := by
  rw [check_eq]
  refine .look fun system => .bind ?_ fun _ => .read _
  exact (drain_uses queue _ bound).mono fun _ => Or.imp_left fun fires => ⟨_, fires⟩

/-- Every scheduling ends once, in any run at all, of operations inside one another as well: an alarm
entered queues as often as it was fired, withdrawn or dropped from one, and once more if it is in one. It
leaves no queue again before it enters one. A firing takes the first alarm off a queue, if it is due, and
posts its signal with the alarm in no queue any more; nothing else posts for an alarm. A check does
nothing but that, and calls each observer that a post finds at once. Whatever happens later, and however
it is cut short, the alarms that do not leave stay in their order. Whenever a call lets others act, and
however it ends, the system has come about by such a run. -/
theorem schedulings_end_once {setup : Setup} {system : System}
    (run : Reaches anything setup.system system) :
    (∀ alarm,
      system.history.countP (Occurrence.isEntryOf alarm) =
        system.history.countP (Occurrence.isFiringOf alarm) +
          system.history.countP (Occurrence.isWithdrawalOf alarm) +
          system.history.countP (Occurrence.isQueuedDropOf alarm) +
          (system.alarms.lists.isLinked alarm).toNat ∧
      (system.alarms.lists.isLinked alarm = true ↔ ∃ queue, alarm ∈ system.alarms.members queue)) ∧
    (∀ alarm later exit earlier, system.history = later ++ exit :: earlier →
      exit.isExitOf alarm = true → later.countP (Occurrence.isEntryOf alarm) = 0 →
      later.countP (Occurrence.isExitOf alarm) = 0) ∧
    (∀ command : Command, system.ledger.Passes (command.apply system).2.ledger command
      (command.apply system).1
      (((command.apply system).2.since system).filter Occurrence.isPassage)) ∧
    (∀ queue now, (system.fireFirst queue now = (none, system) ∧
        ∀ alarm ∈ (system.alarms.members queue).head?, system.ledger.isDue now alarm = false) ∨
      ∃ alarm unqueued, system.Fires queue alarm now unqueued) ∧
    (∀ alarm, system.postsBy alarm = system.history.countP (Occurrence.isFiringOf alarm)) ∧
    (∀ bound queue, (check bound queue).Ordinary ∧ (check bound queue).Uses
      (fun command => (∃ now, command = .fireFirst queue now) ∨
        ¬ command.ConcernsAlarms ∧ ¬ command.IsPost)
      fun request => ∃ observer token, request = .observe observer token) ∧
    (∀ last, Reaches anything system last → ∀ queue,
      ((system.alarms.members queue).filter fun alarm =>
        !(last.since system).any (Occurrence.isExitOf alarm)).Sublist (last.alarms.members queue)) ∧
    (∀ (action : Action) {σ : Type} (environment : Environment σ) (outside : σ) (bound : Nat),
      let call := action.activity bound
      let world : World σ := { system, outside }
      call.Meanwhile anything environment world →
        call.Asks (fun _ now => Reaches anything system now) environment world ∧
          Reaches anything system (call.run environment world).2.system) ∧
    ∀ (bound : Nat) (script : Script), Reaches anything system (script.run bound system).2 := by
  have accounts : setup.system.Accounts system := .reaches setup.threaded run
  have threaded := accounts.threaded
  have since : system.since setup.system = system.history := System.since_eq (List.append_nil _).symm
  refine ⟨fun alarm => ⟨?_, threaded.linked alarm⟩, ?_, fun command => command.passes threaded, ?_, ?_,
    fun bound queue => ⟨check_ordinary bound queue, check_uses bound queue⟩,
    fun last later => (System.Accounts.reaches threaded later).order, ?_,
    fun bound script => script.reaches_anything bound system⟩
  · have balance := accounts.balance alarm
    rwa [setup.presence_eq_zero, Nat.zero_add, since, Occurrence.countP_isExitOf] at balance
  · intro alarm later exit earlier history leaves out
    exact accounts.exits_once (since.trans history) leaves out
  · intro queue now
    by_cases undue : ∀ alarm ∈ (system.alarms.members queue).head?,
        system.ledger.isDue now alarm = false
    · exact .inl ⟨threaded.fireFirst_undue undue, undue⟩
    · simp only [not_forall, Bool.not_eq_false] at undue
      obtain ⟨alarm, first, due⟩ := undue
      obtain ⟨rest, front⟩ := List.head?_eq_some_iff.mp first
      exact .inr ⟨alarm, threaded.fires front due⟩
  · intro alarm
    have posts := accounts.posts alarm
    rwa [since] at posts
  · intro action σ environment outside bound call world meanwhile
    have obeys : action.Obeys fun _ => True := fun _ _ => trivial
    exact ⟨obeys.asks meanwhile, obeys.runs meanwhile⟩

/-- A check whose first post finds an observer. The observer puts the fired alarm back into the queue and
gives up, which ends the check: the other alarm, though due, is still in the queue, and comes first. -/
theorem given_up_check_keeps_rest :
    let setup : Setup := { clocks := [5], signals := [.host, .host], observers := [{}], queues := [{}] }
    let start : Script := .call (.createAlarm 0 0 0) .none <| .call (.createAlarm 0 1 0) .none <|
      .call (.attach 0 (.custom 0) 7) .none <| .call (.addAlarm 0 0) .none <|
      .call (.addAlarm 0 1) .none .done
    let check : Script := .call (.check 0)
      (.next (.call (.addAlarm 0 0) .none .done) (.error (.thrown "observer")) .none) .done
    let system := (start.run 9 setup.system).2
    let last := (check.run 9 system).2
    Reaches anything setup.system system ∧
      system.alarms.members 0 = [0, 1] ∧ last.alarms.members 0 = [1, 0] ∧
      last.postsBy 0 = 1 ∧ last.postsBy 1 = 0 ∧
      last.history.countP (Occurrence.isEntryOf 0) = 2 := by
  intro setup start check system last
  have run : Reaches anything setup.system system := start.reaches_anything 9 setup.system
  obtain ⟨-, -, -, -, -, -, -, -, later⟩ := schedulings_end_once run
  obtain ⟨accounts, -, -, -, posts, -⟩ := schedulings_end_once (run.trans (later 9 check))
  refine ⟨run, ?_, ?_, ?_, ?_, ?_⟩
  · decide +kernel
  · decide +kernel
  · rw [posts]; decide +kernel
  · rw [posts]; decide +kernel
  · rw [(accounts 0).1]; decide +kernel

end Alarms

end TimedWaits
