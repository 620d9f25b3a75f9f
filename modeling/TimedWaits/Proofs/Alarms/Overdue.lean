import TimedWaits.Proofs.Alarms.Firing
import TimedWaits.Proofs.Alarms.Waits

/-! What a check leaves behind. In runs with relative delays it leaves nothing that is due, unless an
alarm entered that cannot be compared with an overdue one: that one is left then. -/

set_option autoImplicit false

namespace TimedWaits

namespace Alarms

variable {σ : Type} {environment : Environment σ} {quiet : σ → Prop} {queue alarm bound : Nat}

/-- A check returns and leaves no alarm in the queue that is due at the tick that it read. -/
def Clears (environment : Environment σ) (bound queue : Nat) (world : World σ) : Prop :=
  let checked := (check bound queue).run environment world
  (∃ delay, checked.1 = .ok delay) ∧
    ∀ alarm ∈ checked.2.system.ledger.members queue,
      checked.2.system.ledger.isDue (world.system.ledger.now queue) alarm = false

theorem check_leaves (spares : environment.Spares queue quiet) {system : System} {outside : σ}
    (start : quiet outside) (threaded : system.Threaded) (sound : system.ledger.Sound)
    (enough : (system.ledger.members queue).length < bound) :
    let checked := (check bound queue).run environment { system, outside }
    let due := system.ledger.isDue (system.ledger.now queue)
    (∃ delay, checked.1 = .ok delay) ∧
      checked.2.system.ledger.members queue = (system.ledger.members queue).dropWhile due ∧
      ∀ alarm ∈ system.ledger.members queue,
        checked.2.system.ledger.isDue (system.ledger.now queue) alarm = due alarm := by
  intro checked due
  let members := system.ledger.members queue
  let world : World σ := { system, outside }
  have split : members = members.takeWhile due ++ members.dropWhile due :=
    List.takeWhile_append_dropWhile.symm
  have undue : ∀ alarm ∈ (members.dropWhile due).head?, due alarm = false := by
    intro alarm head
    have stopped := List.head?_dropWhile_not due members
    rw [Option.mem_def.mp head] at stopped
    exact stopped
  have shorter : (members.takeWhile due).length < bound :=
    Nat.lt_of_le_of_lt (List.takeWhile_sublist due).length_le enough
  have fires : Fires queue (members.takeWhile due) world checked _ :=
    check_fires spares start threaded sound split
      (fun alarm fired => List.mem_takeWhile_imp fired) undue shorter
  refine ⟨⟨_, fires.answered⟩, ?_, ?_⟩
  · exact (List.append_cancel_left (split.symm.trans fires.fired.members)).symm
  · intro alarm queued
    rw [Ledger.isDue, fires.fired.extend.deadline alarm (sound.stored queue alarm queued)]
    rfl

private theorem mem_dropWhile_of_behind {accepts : Nat → Bool} {before after : List Nat} {member : Nat}
    (refused : accepts alarm = false) (behind : member ∈ after) :
    member ∈ (before ++ alarm :: after).dropWhile accepts := by
  rw [List.dropWhile_append, List.dropWhile_cons, refused]
  split <;> simp [behind]

private theorem refused_of_mem_dropWhile {accepts : Nat → Bool} {alarms : List Nat} {member : Nat}
    (sorted : alarms.Pairwise fun first second => accepts second = true → accepts first = true)
    (remains : member ∈ alarms.dropWhile accepts) : accepts member = false := by
  have stopped := List.head?_dropWhile_not accepts alarms
  have sortedRest := sorted.sublist (List.dropWhile_sublist accepts)
  cases rest : alarms.dropWhile accepts with
  | nil => simp [rest] at remains
  | cons first others =>
      rw [rest, List.head?_cons] at stopped
      rw [rest] at sortedRest remains
      rcases List.mem_cons.mp remains with rfl | later
      · exact stopped
      · rw [← Bool.not_eq_true]
        intro accepted
        exact Bool.eq_false_iff.mp stopped
          ((List.pairwise_cons.mp sortedRest).1 member later accepted)

theorem careful_kept {setup : Setup} {system : System}
    (run : Leads (careful queue) setup.system system) :
    system.Threaded ∧ system.ledger.Sound ∧ system.ledger.Close queue ∧
      system.ledger.Ordered queue := by
  have close : setup.system.ledger.Close queue :=
    ⟨by simp [setup.members_eq_nil], by simp [setup.members_eq_nil]⟩
  obtain ⟨windowed, threaded, sound, close⟩ :=
    run.windowed_of_careful setup.threaded setup.sound close
  obtain ⟨-, -, ordered, -⟩ := windowed.ordered setup.threaded setup.sound
    (setup.ordered queue) ⟨_, setup.within queue⟩
  exact ⟨threaded, sound, close, ordered⟩

private theorem clears_of_careful {setup : Setup} {system : System} {outside : σ}
    (run : Leads (careful queue) setup.system system) (spares : environment.Spares queue quiet)
    (start : quiet outside) (enough : (system.ledger.members queue).length < bound) :
    Clears environment bound queue { system, outside } := by
  obtain ⟨threaded, sound, close, ordered⟩ := careful_kept run
  obtain ⟨base, within⟩ := close.within
  obtain ⟨returns, left, same⟩ := check_leaves spares start threaded sound enough
  refine ⟨returns, fun alarm remains => ?_⟩
  rw [left] at remains
  rw [same alarm ((List.dropWhile_sublist _).subset remains)]
  exact refused_of_mem_dropWhile (ordered.pairwise_due within) remains

/-- An alarm that cannot be compared with a member of its queue enters before that member, which is
overdue, and is not due itself. -/
private theorem far_behind {ledger : Ledger} {member : Nat} {delay : Tick} (close : ledger.Close queue)
    (deadline : ledger.deadline alarm = Tick.deadlineAfter (ledger.now queue) delay)
    (queued : member ∈ ledger.members queue)
    (far : 2147483648 ≤ ledger.lead queue alarm - ledger.lead queue member) :
    member ∈ ledger.behind queue alarm ∧
      ledger.isDue (ledger.now queue) member = true ∧
      ledger.isDue (ledger.now queue) alarm = false := by
  have ahead := Ledger.lead_deadlineAfter deadline
  have recent := close.recent member queued
  have less : Tick.distance (ledger.deadline alarm) (ledger.deadline member) < 0 :=
    Tick.distance_neg_of_far far
  refine ⟨?_, ?_, ?_⟩
  · rw [← ledger.ahead_append_behind queue alarm, List.mem_append] at queued
    refine queued.resolve_left fun passed => ?_
    have refused : (ledger.order alarm member != .lt) = true :=
      @List.mem_takeWhile_imp _ (fun other => ledger.order alarm other != .lt) _ _ passed
    rw [bne_iff_ne, Ledger.order, Tick.order, Int.compare_ne_lt] at refused
    omega
  · rw [Ledger.isDue, Tick.isDue, decide_eq_true_iff]
    rw [Ledger.lead, Ledger.lead] at far
    rw [Ledger.lead] at ahead
    omega
  · rw [Ledger.isDue, Tick.isDue, decide_eq_false_iff_not]
    rw [Ledger.lead] at far recent
    rw [Ledger.lead] at far
    omega

/-- An alarm that cannot be compared with the members hides one of them from the next check. -/
private theorem comparable_of_clears {system : System} {outside : σ} {delay : Tick}
    (threaded : system.Threaded) (sound : system.ledger.Sound) (close : system.ledger.Close queue)
    (own : system.ledger.Proper (.insertAlarm queue alarm))
    (loose : ∀ other, alarm ∉ system.ledger.members other)
    (deadline : system.ledger.deadline alarm =
      Tick.deadlineAfter (system.ledger.now queue) delay)
    (spares : environment.Spares queue quiet) (start : quiet outside)
    (enough : (system.ledger.members queue).length + 1 < bound)
    (clears : Clears environment bound queue
      { system := (system.insertAlarm queue alarm).2, outside }) :
    system.ledger.Comparable queue alarm := by
  intro member queued
  rw [← Int.not_le]
  intro far
  obtain ⟨behind, due, refused⟩ := far_behind close deadline queued far
  obtain ⟨-, ledger, kept⟩ := threaded.insertAlarm_loose queue loose
  have soundEntered : (system.insertAlarm queue alarm).2.ledger.Sound :=
    ledger ▸ sound.step (.insert queue loose) own
  have length : ((system.insertAlarm queue alarm).2.ledger.members queue).length < bound := by
    rwa [ledger, Ledger.length_insert]
  obtain ⟨-, left, unchanged⟩ := check_leaves spares start kept soundEntered length
  have undue := clears.2 member
  rw [left, unchanged member (ledger ▸ Ledger.mem_insert.mpr (.inr queued)), ledger,
    Ledger.members_insert] at undue
  have hidden := undue (mem_dropWhile_of_behind refused behind)
  exact Bool.eq_false_iff.mp hidden due

/-- After a careful run a check leaves nothing due behind. Timed waits, and additions of alarms with
relative delays, go on with such a run as long as what enters can be compared with all members; and
this is exactly what it takes, for the check after an alarm entered that cannot be compared leaves
an overdue one behind. -/
theorem check_clears_iff_comparable {setup : Setup} {system : System}
    (run : Leads (careful queue) setup.system system) {outside : σ}
    (spares : environment.Spares queue quiet) (start : quiet outside)
    (enough : (system.ledger.members queue).length + 1 < bound) :
    Clears environment bound queue { system, outside } ∧ EntersTimely queue system ∧
      ∀ alarm delay, alarm < system.ledger.count → (system.ledger.alarm alarm).queue = queue →
        alarm ∉ system.ledger.members queue →
        system.ledger.deadline alarm = Tick.deadlineAfter (system.ledger.now queue) delay →
        (Clears environment bound queue
            { system := (system.insertAlarm queue alarm).2, outside } ↔
          system.ledger.Comparable queue alarm) := by
  obtain ⟨threaded, sound, close, -⟩ := careful_kept run
  refine ⟨clears_of_careful run spares start (Nat.lt_of_succ_lt enough),
    threaded.entersTimely queue, ?_⟩
  intro alarm delay exist own absent deadline
  have loose : ∀ other, alarm ∉ system.ledger.members other := by
    intro other queued
    rw [← sound.belongs other alarm queued, own] at queued
    exact absent queued
  constructor
  · exact comparable_of_clears threaded sound close ⟨exist, own⟩ loose deadline spares start enough
  · intro comparable
    let entering : Command := .insertAlarm queue alarm
    have permitted : careful queue system.ledger entering (entering.apply system).2.ledger :=
      ⟨⟨⟨exist, own⟩, fun _ _ => ⟨delay, deadline⟩⟩, fun _ _ => comparable⟩
    have length : ((entering.apply system).2.ledger.members queue).length < bound := by
      rw [show (entering.apply system).2.ledger = _ from
        (threaded.insertAlarm_loose queue loose).2.1, Ledger.length_insert]
      exact enough
    exact clears_of_careful (run.apply permitted) spares start length

/-- Behind an alarm that is overdue by one tick, a delay of 2147483646 is the longest that may enter:
the check after it clears the queue of what is due. -/
theorem check_clears_longest_comparable :
    let setup : Setup := { clocks := [0], signals := [.host], queues := [{}] }
    let system := setup.system.applyAll [.createAlarm 0 (.shared 0) 1 true, .insertAlarm 0 0,
      .advance 0 2, .createAlarm 0 (.shared 0) 2147483648 true]
    Leads (careful 0) setup.system system ∧
      Clears (Stage.environment fun _ stage => (.ok .nothing, stage)) 3 0
        { system := (system.insertAlarm 0 1).2, outside := {} } := by
  intro setup system
  have run : Leads (careful 0) setup.system system := by
    refine Leads.applyAll ⟨?_, ?_, ?_, ?_, trivial⟩
    · exact ⟨⟨trivial, trivial⟩, trivial⟩
    · exact ⟨⟨⟨by decide, by decide⟩, fun _ _ => ⟨1, by decide⟩⟩, fun _ _ => by decide⟩
    · exact ⟨⟨trivial, fun _ => by decide⟩, trivial⟩
    · exact ⟨⟨trivial, trivial⟩, trivial⟩
  have quiet : Cast.IsQuiet {} := fun _ => rfl
  have enough : (system.ledger.members 0).length + 1 < 3 := by decide
  have spares := Stage.environment_spares (fun _ stage => (.ok .nothing, stage)) 0
  have comparable : system.ledger.Comparable 0 1 := by decide
  refine ⟨run, ?_⟩
  exact ((check_clears_iff_comparable run spares quiet enough).2.2 1 2147483646 (by decide)
    (by decide) (by decide) (by decide)).mpr comparable

/-- Behind an alarm that is overdue by one tick, one with the longest delay enters first, and the
check after it leaves the overdue one in the queue. -/
theorem longest_delay_hides_overdue :
    let setup : Setup := { clocks := [0], signals := [.host], queues := [{}] }
    let system := setup.system.applyAll [.createAlarm 0 (.shared 0) 1 true, .insertAlarm 0 0,
      .advance 0 2, .createAlarm 0 (.shared 0) 2147483649 true, .insertAlarm 0 1]
    let checked := (check 3 0).run (Stage.environment fun _ stage => (.ok .nothing, stage))
      { system, outside := {} }
    Leads (timely 0) setup.system system ∧ (∃ delay, checked.1 = .ok delay) ∧
      0 ∈ checked.2.system.ledger.members 0 ∧
      checked.2.system.ledger.isDue (system.ledger.now 0) 0 = true := by
  intro setup system
  have run : Leads (timely 0) setup.system system := by
    refine Leads.applyAll ⟨?_, ?_, ?_, ?_, ?_, trivial⟩
    · exact ⟨trivial, trivial⟩
    · exact ⟨⟨by decide, by decide⟩, fun _ _ => ⟨1, by decide⟩⟩
    · exact ⟨trivial, fun _ => by decide⟩
    · exact ⟨trivial, trivial⟩
    · exact ⟨⟨by decide, by decide⟩, fun _ _ => ⟨4294967295, by decide⟩⟩
  have quiet : Cast.IsQuiet {} := fun _ => rfl
  have spares := Stage.environment_spares (fun _ stage => (.ok .nothing, stage)) 0
  obtain ⟨threaded, sound⟩ := run.sound setup.threaded setup.sound
  have enough : (system.ledger.members 0).length < 3 := by decide
  obtain ⟨returns, left, same⟩ := check_leaves spares quiet threaded sound enough
  refine ⟨run, returns, ?_, ?_⟩
  · rw [left]
    decide
  · rw [same 0 (by decide)]
    decide

end Alarms

end TimedWaits
