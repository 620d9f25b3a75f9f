import TimedWaits.Proofs.Alarms.Loops

/-! Queues out of order. A loop whose queue is not in the order of its deadlines passes one of them even
if nobody interferes: each round fires what is due at the front, or sleeps on towards the deadline of
the first alarm, until it gets past one that stands further back. -/

set_option autoImplicit false

namespace TimedWaits

/-- Surroundings in which nothing happens but what is asked for. -/
def idly : Environment Unit := fun request world =>
  (.ok (), { world with system := request.begin world.system })

theorem idly_meanwhile {α : Type} (conduct : Conduct) (activity : Activity α) (world : World Unit) :
    activity.Meanwhile conduct idly world := .of_answers fun _ _ => .refl _

private theorem idly_spares (queue : Nat) : idly.Spares queue fun _ => True := by
  intro observer token world _
  exact ⟨rfl, .note (.refl world.system) ⟨rfl, rfl⟩, trivial⟩

namespace Ledger

variable {ledger : Ledger} {queue : Nat}

/-- What bounds the rounds until a queue is empty or out of time: its length, and then the ticks to
the deadline of its first alarm. -/
def patience (ledger : Ledger) (queue : Nat) : Nat :=
  match ledger.members queue with
  | [] => 0
  | first :: rest => (rest.length + 1) * 2147483648 + (ledger.lead queue first).toNat

/-- A queue begins with the alarms that are due, up to the first one that is not. -/
private theorem exists_split_due (ledger : Ledger) (queue : Nat) :
    ∃ fired left, ledger.members queue = fired ++ left ∧
      (∀ alarm ∈ fired, ledger.isDue (ledger.now queue) alarm = true) ∧
      ∀ alarm ∈ left.head?, ledger.isDue (ledger.now queue) alarm = false := by
  let due := ledger.isDue (ledger.now queue)
  refine ⟨(ledger.members queue).takeWhile due, (ledger.members queue).dropWhile due,
    List.takeWhile_append_dropWhile.symm, fun alarm member => List.mem_takeWhile_imp member, ?_⟩
  intro alarm head
  have stopped := List.head?_dropWhile_not due (ledger.members queue)
  rwa [Option.mem_def.mp head] at stopped

theorem lead_lt (ledger : Ledger) (queue alarm : Nat) : ledger.lead queue alarm < 2147483648 :=
  (Tick.distance_bounds _ _).2

end Ledger

namespace Alarms

variable {queue bound : Nat} {world later : World Unit} {pace : LoopPace}

/-- What a round does to a queue: the alarms at the front that are due fire, and the clock moves on,
but not past the deadline of the alarm that is first then. -/
structure Lapses (queue : Nat) (fired : List Nat) (first : Nat) (rest : List Nat) (step : Int)
    (before after : System) : Prop where
  threaded : after.Threaded
  sound : after.ledger.Sound
  split : before.ledger.members queue = fired ++ first :: rest
  left : after.ledger.members queue = first :: rest
  due : ∀ alarm ∈ fired, before.ledger.lead queue alarm ≤ 0
  moves : 0 < step
  near : step ≤ before.ledger.lead queue first
  leads : ∀ alarm ∈ first :: rest,
    after.ledger.lead queue alarm = before.ledger.lead queue alarm - step

private theorem round_lapses (bound : Nat) (pace : LoopPace) (threaded : world.system.Threaded)
    (sound : world.system.ledger.Sound) (ahead : world.system.ledger.Ahead queue)
    {fired : List Nat} {first : Nat} {rest : List Nat}
    (split : world.system.ledger.members queue = fired ++ first :: rest)
    (due : ∀ alarm ∈ fired,
      world.system.ledger.isDue (world.system.ledger.now queue) alarm = true)
    (undue : world.system.ledger.isDue (world.system.ledger.now queue) first = false)
    (enough : fired.length < bound) :
    ∃ later step, (round bound queue pace).run idly world = (.ok (), later) ∧
      Lapses queue fired first rest step world.system later.system := by
  let checked := (check bound queue).run idly world
  have fires : Fires queue fired world checked _ :=
    check_fires (idly_spares queue) trivial threaded sound split due
      (by rintro alarm ⟨⟩; exact undue) enough
  obtain ⟨draining, same⟩ := check_drains (idly_meanwhile _ (check bound queue) world)
  have still : checked.2.system.ledger.now queue = world.system.ledger.now queue :=
    same ▸ drain_still draining
  have left : checked.2.system.ledger.members queue = first :: rest :=
    (List.append_cancel_left (split.symm.trans fires.fired.members)).symm
  let delay := reported (world.system.ledger.now queue) (some (world.system.ledger.deadline first))
  have positive := (toNat_reported undue).1
  have reports : (delay.toNat : Int) = world.system.ledger.lead queue first :=
    (toNat_reported undue).2
  have some : delay ≠ 0 := by
    intro zero
    rw [zero] at reports
    change (0 : Int) = _ at reports
    omega
  let slept := pace.sleep delay
  have short : slept.toNat ≤ delay.toNat := pace.toNat_sleep_le some
  have moves : slept.toNat ≠ 0 := fun zero => pace.sleep_ne_zero delay (UInt32.toNat_inj.mp zero)
  obtain ⟨ledger, kept⟩ := fires.threaded.sleep queue slept
  let clock := (checked.2.system.alarms.queues.get queue).clock
  refine ⟨{ checked.2 with system := (Request.sleep clock slept).begin checked.2.system },
    slept.toNat, ?_, kept, ?_, split, ?_, ?_, by omega, by omega, ?_⟩
  · have answered : (check bound queue).run idly world = (.ok delay, checked.2) :=
      Prod.ext fires.answered rfl
    rw [round_eq, Activity.run_bind, answered]
    rfl
  · exact ledger ▸ fires.sound.step (.setClock clock _) trivial
  · exact ledger ▸ left
  · intro alarm member
    have reached := due alarm member
    rwa [Ledger.isDue, Tick.isDue, decide_eq_true_iff] at reached
  · intro alarm member
    have queued : alarm ∈ world.system.ledger.members queue := split ▸ List.mem_append_right _ member
    have lead : checked.2.system.ledger.lead queue alarm = world.system.ledger.lead queue alarm := by
      rw [Ledger.lead, still, fires.fired.extend.deadline alarm (sound.stored queue alarm queued),
        Ledger.lead]
    have onward := ahead alarm queued
    have bounded := world.system.ledger.lead_lt queue first
    rw [ledger, Ledger.lead_pass (by omega), lead]

/-- A queue in order stays so if alarms that are due now are put before it. -/
theorem sorted_append {ledger : Ledger} {fired left : List Nat} (ahead : ledger.Ahead queue)
    (split : ledger.members queue = fired ++ left)
    (due : ∀ alarm ∈ fired, ledger.lead queue alarm ≤ 0)
    (sorted : left.Pairwise fun first second => ledger.lead queue first ≤ ledger.lead queue second) :
    ledger.Sorted queue := by
  have early : ∀ alarm ∈ fired, ∀ other ∈ ledger.members queue,
      ledger.lead queue alarm ≤ ledger.lead queue other := by
    intro alarm member other queued
    exact Int.le_trans (due alarm member) (ahead other queued)
  rw [Ledger.Sorted]
  rw [split] at early ⊢
  rw [List.pairwise_append]
  refine ⟨?_, sorted, ?_⟩
  · refine List.pairwise_of_forall_mem_list fun alarm member other memberOther => ?_
    exact early alarm member other (List.mem_append_left _ memberOther)
  · intro alarm member other behind
    exact early alarm member other (List.mem_append_right _ behind)

private theorem Lapses.unsorted {fired : List Nat} {first : Nat} {rest : List Nat} {step : Int}
    {before after : System} (lapses : Lapses queue fired first rest step before after)
    (ahead : before.ledger.Ahead queue) (unsorted : ¬ before.ledger.Sorted queue) :
    ¬ after.ledger.Sorted queue := by
  intro sorted
  refine unsorted (sorted_append ahead lapses.split lapses.due ?_)
  rw [Ledger.Sorted, lapses.left] at sorted
  refine sorted.imp_of_mem ?_
  intro alarm other member memberOther order
  rw [lapses.leads alarm member, lapses.leads other memberOther] at order
  omega

private theorem Lapses.patience_lt {fired : List Nat} {first : Nat} {rest : List Nat} {step : Int}
    {before after : System} (lapses : Lapses queue fired first rest step before after) :
    after.ledger.patience queue < before.ledger.patience queue := by
  have lead := lapses.leads first List.mem_cons_self
  have moves := lapses.moves
  have near := lapses.near
  have bounded := before.ledger.lead_lt queue first
  have later : after.ledger.patience queue =
      (rest.length + 1) * 2147483648 + (after.ledger.lead queue first).toNat := by
    rw [Ledger.patience, lapses.left]
  cases fired with
  | nil =>
      rw [later, Ledger.patience, lapses.split]
      change _ < (rest.length + 1) * 2147483648 + (before.ledger.lead queue first).toNat
      omega
  | cons alarm others =>
      rw [later, Ledger.patience, lapses.split]
      change _ < ((others ++ first :: rest).length + 1) * 2147483648 + _
      rw [List.length_append, List.length_cons]
      omega

/-- Unless a queue that is in time is in order, a loop passes a deadline in it though nobody
interferes. -/
private theorem forever_passes (threaded : world.system.Threaded) (sound : world.system.ledger.Sound)
    (ahead : world.system.ledger.Ahead queue) (unsorted : ¬ world.system.ledger.Sorted queue)
    (enough : (world.system.ledger.members queue).length < bound) :
    ∃ rounds,
      ¬ ((runForever bound queue rounds).run idly world).2.system.ledger.Ahead queue := by
  -- Every round lowers the patience of the queue, and as long as no deadline passes it stays unsorted.
  induction patience : world.system.ledger.patience queue using Nat.strong_induction_on
    generalizing world with
  | _ patience ih =>
      obtain ⟨fired, left, split, due, stops⟩ := world.system.ledger.exists_split_due queue
      cases left with
      | nil =>
          refine absurd (sorted_append ahead split ?_ .nil) unsorted
          intro alarm member
          have reached := due alarm member
          rwa [Ledger.isDue, Tick.isDue, decide_eq_true_iff] at reached
      | cons first rest =>
          rw [split, List.length_append, List.length_cons] at enough
          obtain ⟨later, step, returned, lapses⟩ :=
            round_lapses bound {} threaded sound ahead split due (stops first rfl) (by omega)
          have once : ∀ rounds, (runForever bound queue (rounds + 1)).run idly world =
              (runForever bound queue rounds).run idly later := by
            intro rounds
            change (round bound queue {} >>= fun _ => runForever bound queue rounds).run _ _ = _
            rw [Activity.run_bind, returned]
          by_cases onward : later.system.ledger.Ahead queue
          · have fewer : (later.system.ledger.members queue).length < bound := by
              rw [lapses.left, List.length_cons]
              omega
            obtain ⟨rounds, passed⟩ := ih _ (patience ▸ lapses.patience_lt) lapses.threaded lapses.sound
              onward (lapses.unsorted ahead unsorted) fewer rfl
            exact ⟨rounds + 1, once rounds ▸ passed⟩
          · exact ⟨1, once 0 ▸ onward⟩

theorem ahead_of_punctual {first last : System} (leads : Leads (punctual queue) first last)
    (threaded : first.Threaded) (ahead : first.ledger.Ahead queue) : last.ledger.Ahead queue :=
  (leads.preserves (motive := (·.Ahead queue)) threaded ahead
    fun _ _ permitted => permitted.ahead).2

/-- Where no deadline in a queue has passed, every loop that drives the queue is on time if and only if
the queue is in the order of its deadlines: whatever others do short of moving the clock or putting
alarms into the queue too late, no deadline passes at any moment, every alarm of the queue that fires
does so while the clock reads its deadline, and the clock moves in each round. -/
theorem loops_punctual_iff_sorted {setup : Setup} {system : System}
    (run : Reaches proper setup.system system) {queue : Nat} (ahead : system.ledger.Ahead queue) :
    (system.ledger.Sorted queue ↔
      ∀ {σ : Type} (environment : Environment σ) (outside : σ) (loop : Activity Unit),
        IsLoop queue loop → loop.Meanwhile (Tame queue) environment { system, outside } →
        Leads (punctual queue) system (loop.run environment { system, outside }).2.system) ∧
    ∀ {σ : Type} (environment : Environment σ) (world after : World σ) (bound : Nat)
      (pace : LoopPace),
      (round bound queue pace).Meanwhile (Tame queue) environment world →
      (round bound queue pace).run environment world = (.ok (), after) →
      ∃ delay, delay ≠ 0 ∧
        after.system.queueNow queue = Tick.after (world.system.queueNow queue) delay := by
  obtain ⟨threaded, sound⟩ := run.sound setup.threaded setup.sound
  refine ⟨⟨?_, ?_⟩, fun environment world after bound pace => round_advances⟩
  · intro sorted σ environment outside loop drives meanwhile
    exact (drives.prompt.onTime meanwhile ⟨.refl system, threaded, sound, ahead, sorted⟩).leads
  · intro punctual
    by_contra unsorted
    let world : World Unit := { system, outside := () }
    obtain ⟨rounds, passed⟩ := @forever_passes queue _ world threaded sound ahead unsorted
      (Nat.lt_succ_self _)
    refine passed (ahead_of_punctual ?_ threaded ahead)
    exact punctual idly () _ (.forever _ rounds) (idly_meanwhile _ _ _)

/-- Two alarms around the point where the ticks wrap fire on time, at an extreme pace. -/
theorem loop_punctual_across_wrap :
    let setup : Setup := { clocks := [4294967290], signals := [.host], queues := [{}] }
    let system := setup.system.strides [.createAlarm 0 (.shared 0) 3 true,
      .createAlarm 0 (.shared 0) 4294967294 true, .insertAlarm 0 0, .insertAlarm 0 1]
    let world : World Unit := { system, outside := () }
    let loop := runUntilStopped 3 0 { idle := 0, longest := 4294967295 } 3
    Reaches proper setup.system system ∧ system.ledger.Ahead 0 ∧ system.ledger.Sorted 0 ∧
      Leads (punctual 0) system (loop.run idly world).2.system ∧
      (loop.run idly world).2.system.ledger.members 0 = [] := by
  intro setup system world loop
  have run : Reaches proper setup.system system := by
    refine .strides ⟨trivial, trivial, ?_, ?_, trivial⟩
    · exact ⟨by decide, by decide⟩
    · exact ⟨by decide, by decide⟩
  have ahead : system.ledger.Ahead 0 := by decide
  have sorted : system.ledger.Sorted 0 := by decide
  have onTime : ∀ loop, IsLoop 0 loop → Leads (punctual 0) system (loop.run idly world).2.system :=
    fun loop drives => (loops_punctual_iff_sorted run ahead).1.mp sorted idly () loop drives
      (idly_meanwhile _ loop world)
  exact ⟨run, ahead, sorted, onTime loop (.untilStopped 3 3 _), by decide⟩

/-- An alarm that is far ahead enters before one that is long overdue, and so before a nearer one
behind that. With the overdue one withdrawn no deadline has passed, but the loop sleeps past the
nearer one. -/
theorem loop_passes_nearer_deadline :
    let setup : Setup := { clocks := [0], signals := [.host], queues := [{}] }
    let system := setup.system.strides [.createAlarm 0 (.shared 0) 1 true, .insertAlarm 0 0,
      .advance 0 2147483638, .createAlarm 0 (.shared 0) 2147483647 true, .insertAlarm 0 1,
      .createAlarm 0 (.shared 0) 2147483653 true, .insertAlarm 0 2, .withdrawAlarm 0 0]
    let world : World Unit := { system, outside := () }
    let loop := runUntilStopped 4 0 {} 1
    Reaches proper setup.system system ∧ system.ledger.Ahead 0 ∧ IsLoop 0 loop ∧
      (∀ (activity : Activity Unit) (world : World Unit), activity.Meanwhile (Tame 0) idly world) ∧
      1 ∈ (loop.run idly world).2.system.ledger.members 0 ∧
      (loop.run idly world).2.system.ledger.lead 0 1 = -6 ∧
      ¬ Leads (punctual 0) system (loop.run idly world).2.system := by
  intro setup system world loop
  have run : Reaches proper setup.system system := by
    refine .strides ⟨trivial, ?_, trivial, trivial, ?_, trivial, ?_, trivial, trivial⟩
    · exact ⟨by decide, by decide⟩
    · exact ⟨by decide, by decide⟩
    · exact ⟨by decide, by decide⟩
  obtain ⟨threaded, -⟩ := run.sound setup.threaded setup.sound
  have ahead : system.ledger.Ahead 0 := by decide
  have passed : ¬ (loop.run idly world).2.system.ledger.Ahead 0 := by decide
  refine ⟨run, ahead, .untilStopped 4 1 {}, idly_meanwhile _, by decide, by decide, ?_⟩
  exact fun leads => passed (ahead_of_punctual leads threaded ahead)

end Alarms

end TimedWaits
