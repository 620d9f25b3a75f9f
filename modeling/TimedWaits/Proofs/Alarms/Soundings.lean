import TimedWaits.Proofs.Alarms.WaitBalance
import TimedWaits.Proofs.Selectors.Tables

/-! What the post of an alarm comes to. It reaches the count of its signal only if nothing observes the
signal when the alarm is fired. -/

set_option autoImplicit false

namespace TimedWaits

namespace Alarms

/-- An alarm was fired while nothing observed its signal, and its post raised the count. -/
def Sounded (alarm signal : Nat) (system : System) : Prop :=
  ∃ tick, [.raised (.shared signal), .posted (.shared signal) (some alarm), .fired alarm tick] <:+:
    system.history

variable {alarm signal queue : Nat} {start system : System} {now : Tick}

private theorem Sounded.posted (sounded : Sounded alarm signal system) : system.postsBy alarm ≠ 0 := by
  obtain ⟨tick, within⟩ := sounded
  have member : .posted (.shared signal) (some alarm) ∈ system.history :=
    within.subset (List.mem_cons_of_mem _ List.mem_cons_self)
  exact Nat.ne_of_gt (List.countP_pos_iff.mpr ⟨_, member, decide_eq_true rfl⟩)

theorem Sounded.later {last : System} (sounded : Sounded alarm signal system)
    (continues : last.Continues system) : Sounded alarm signal last := by
  obtain ⟨tick, within⟩ := sounded
  exact ⟨tick, within.trans continues.isInfix⟩

theorem Sounded.of_dropAlarm {dropped : Nat} (sounded : Sounded alarm signal (system.dropAlarm dropped)) :
    Sounded alarm signal system := by
  obtain ⟨tick, within⟩ := sounded
  have history : ∃ occurrence, (system.dropAlarm dropped).history = occurrence :: system.history ∧
      .raised (.shared signal) ≠ occurrence := by
    simp only [System.dropAlarm]
    split <;> exact ⟨_, rfl, by rintro ⟨⟩⟩
  obtain ⟨occurrence, history, other⟩ := history
  rw [history, List.infix_cons_iff] at within
  rcases within with first | within
  · exact absurd (List.cons_prefix_cons.mp first).1 other
  · exact ⟨tick, within⟩

/-- The count was raised since any moment at which the alarm had posted nothing. -/
theorem Sounded.raised (sounded : Sounded alarm signal system) (continues : system.Continues start)
    (silent : start.postsBy alarm = 0) : .raised (.shared signal) ∈ system.since start := by
  obtain ⟨tick, later, earlier, same⟩ := sounded
  have split : (later ++ [.raised (.shared signal)]) ++
      (.posted (.shared signal) (some alarm) :: .fired alarm tick :: earlier) =
        system.since start ++ start.history := by
    rw [continues.since_append, ← same, List.append_assoc, List.append_assoc]
    rfl
  rcases List.append_eq_append_iff.mp split with ⟨rest, since, -⟩ | ⟨rest, -, history⟩
  · rw [since]
    exact List.mem_append_left _ (List.mem_append_right _ List.mem_cons_self)
  · have member : .posted (.shared signal) (some alarm) ∈ start.history :=
      history ▸ List.mem_append_right _ List.mem_cons_self
    exact absurd (decide_eq_true rfl) (List.countP_eq_zero.mp silent _ member)

/-- The call of a selector raises no shared signal and fires nothing. -/
private theorem history_markReady (system : System) (index token : Nat) :
    ∃ notes, (system.markReady index token).history = notes ++ system.history ∧
      (∀ signal, .raised (.shared signal) ∉ notes) ∧ ∀ alarm tick, .fired alarm tick ∉ notes := by
  simp only [System.markReady]
  split
  · split
    · exact ⟨[.raised (.selector index), .logged (.slotAlreadyReady token)], rfl, by simp⟩
    · exact ⟨[.raised (.selector index), .slotReady index token], rfl, by simp⟩
  · exact ⟨[.logged (.slotUnknown token)], rfl, by simp⟩

/-- A check that fires an alarm unqueues it and then posts its signal. -/
private theorem stride_fireFirst (system : System) (queue : Nat) (now : Tick) :
    system.stride (.fireFirst queue now) = system ∨ ∃ (alarm : Nat) (unqueued : System),
      unqueued.history = .fired alarm now :: system.history ∧ unqueued.signals = system.signals ∧
        system.stride (.fireFirst queue now) =
          unqueued.post (system.alarms.alarms.get alarm).signal (some alarm) := by
  have applied : (Command.fireFirst queue now).apply system = system.fireFirst queue now := rfl
  rw [System.stride, applied, System.fireFirst]
  cases system.alarms.lists.popFrontIf? queue
      (fun alarm => Tick.isDue (system.alarms.alarms.get alarm).deadline now) with
  | none => exact .inl rfl
  | some found =>
      obtain ⟨alarm, lists⟩ := found
      let unqueued : System := { system with alarms := { system.alarms with lists } }
      refine .inr ⟨alarm, unqueued.record (.fired alarm now), ?_, ?_, ?_⟩
      all_goals rfl

/-- A post that finds an observer raises no shared signal. -/
private theorem history_post_of_some {reference : SignalRef} {attachment : Attachment} {poster : Option Nat}
    (held : (system.signal reference).attachment = some attachment) :
    ∃ notes, (system.post reference poster).history = notes ++ .posted reference poster :: system.history ∧
      (∀ signal, .raised (.shared signal) ∉ notes) ∧ (∀ alarm tick, .fired alarm tick ∉ notes) ∧
      ∀ signal, (system.post reference poster).pending signal = system.pending signal := by
  rw [System.post, System.beginPost_of_some held]
  obtain ⟨observer, token⟩ := attachment
  cases observer with
  | custom index => exact ⟨[], rfl, by simp, by simp, fun _ => rfl⟩
  | selector index =>
      obtain ⟨notes, history, unraised, unfired⟩ :=
        history_markReady (system.record (.posted reference poster)) index token
      exact ⟨notes, history, unraised, unfired,
        fun signal => (System.Alike.markReady signal _ index token).pending⟩

/-- A check fires an alarm, which posts a shared signal. -/
structure Strikes (alarm signal queue : Nat) (now : Tick) (system : System) : Prop where
  own : (system.alarms.alarms.get alarm).signal = .shared signal
  fired : .fired alarm now ∈ (system.stride (.fireFirst queue now)).since system

instance (alarm signal queue : Nat) (now : Tick) (system : System) :
    Decidable (Strikes alarm signal queue now system) :=
  decidable_of_iff ((system.alarms.alarms.get alarm).signal = .shared signal ∧
      .fired alarm now ∈ (system.stride (.fireFirst queue now)).since system)
    ⟨fun ⟨own, fired⟩ => ⟨own, fired⟩, fun ⟨own, fired⟩ => ⟨own, fired⟩⟩

/-- The post of an alarm that is fired reaches the count of its signal exactly if nothing observes the
signal at that moment. -/
theorem Strikes.sounds (strikes : Strikes alarm signal queue now system) :
    let next := system.stride (.fireFirst queue now)
    if (system.signal (.shared signal)).attachment = none then
      Sounded alarm signal next ∧ next.pending signal ≠ 0
    else .raised (.shared signal) ∉ next.since system ∧ next.pending signal = system.pending signal := by
  obtain ⟨own, fires⟩ := strikes
  intro next
  rcases stride_fireFirst system queue now with same | ⟨other, unqueued, fired, signals, same⟩
  · rw [same, @System.since_eq system system [] rfl] at fires
    cases fires
  · change next = _ at same
    change _ ∈ next.since system at fires
    have unmoved : ∀ reference, unqueued.signal reference = system.signal reference :=
      fun reference => congrArg (fun signals : Signals => signals.get reference) signals
    cases held : (system.signal (system.alarms.alarms.get other).signal).attachment with
    | none =>
        have raised : next = (unqueued.record (.posted (system.alarms.alarms.get other).signal
            (some other))).raise (system.alarms.alarms.get other).signal := by
          rw [same, System.post, System.beginPost_of_none (by rw [unmoved, held])]
          rfl
        have history : next.history = [.raised (system.alarms.alarms.get other).signal,
            .posted (system.alarms.alarms.get other).signal (some other), .fired other now] ++
              system.history := by
          rw [raised]
          change _ :: _ :: unqueued.history = _
          rw [fired]
          rfl
        have mine : alarm = other := by simpa [System.since_eq history] using fires
        subst mine
        rw [own] at held raised history
        rw [if_pos held]
        refine ⟨⟨now, [], system.history, history.symm⟩, ?_⟩
        rw [raised]
        exact System.pending_raise_ne_zero _ _
    | some attachment =>
        obtain ⟨notes, history, unraised, unfired, pending⟩ :=
          @history_post_of_some unqueued _ attachment (some other) ((congrArg _ (unmoved _)).trans held)
        rw [← same] at history pending
        rw [fired] at history
        have since : next.since system =
            notes ++ [.posted (system.alarms.alarms.get other).signal (some other), .fired other now] :=
          System.since_eq (history.trans (by simp))
        have mine : alarm = other := by simpa [since, unfired] using fires
        subst mine
        rw [own] at held
        rw [if_neg (by rw [held]; exact Option.some_ne_none _), since]
        refine ⟨by simp [unraised], (pending signal).trans ?_⟩
        rw [System.pending, unmoved, System.pending]

/-- A wait is not woken up by others if its alarm has sounded. -/
theorem Ended.unwoken {deadline : Tick} {woken : Bool}
    (ended : Ended alarm queue deadline start woken system) (sounded : Sounded alarm signal system) :
    woken = false := by
  have posts := ended.posts
  have posted := sounded.posted
  cases woken with
  | false => rfl
  | true =>
      rw [Bool.toNat_true] at posts
      omega

/-- An alarm that was made for a shared signal. -/
structure Aims (alarm signal : Nat) (system : System) : Prop where
  threaded : system.Threaded
  exist : alarm < system.ledger.count
  signal : (system.alarms.alarms.get alarm).signal = .shared signal

namespace Aims

theorem apply (aims : Aims alarm signal system) (command : Command) :
    Aims alarm signal (command.apply system).2 := by
  obtain ⟨step, kept⟩ := command.step_apply aims.threaded
  exact ⟨kept, Nat.lt_of_lt_of_le aims.exist step.extends.count,
    (step.extends.signal alarm aims.exist).trans aims.signal⟩

theorem note (aims : Aims alarm signal system) {occurrence : Occurrence} (aside : occurrence.IsAside) :
    Aims alarm signal (system.record occurrence) :=
  ⟨aims.threaded.record aside, aims.exist, aims.signal⟩

theorem begin (aims : Aims alarm signal system) (request : Request) :
    Aims alarm signal (request.begin system) := by
  cases request with
  | rearm log delay =>
      have noted : Aims alarm signal (system.record (.rearmed log delay)) := aims.note trivial
      exact noted.apply (.addRearm log delay)
  | sleep clock delay =>
      have noted : Aims alarm signal (system.record (.slept clock delay)) := aims.note trivial
      exact noted.apply (.advance clock delay)
  | observe | execute | idle => exact aims.note trivial

theorem reaches {conduct : Conduct} {last : System} (aims : Aims alarm signal system)
    (run : Reaches conduct system last) : Aims alarm signal last :=
  run.preserves aims
    (fun kept _ => System.stride_preserves (motive := Aims alarm signal) (kept.apply _)
      fun index token called => called.apply (.markReady index token))
    fun kept aside => kept.note aside

end Aims

end Alarms

end TimedWaits
