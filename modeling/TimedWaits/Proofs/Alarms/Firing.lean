import TimedWaits.Calls.Alarms
import TimedWaits.Scenario.Report
import TimedWaits.Proofs.Alarms.Order

/-! A check fires the alarms that are due, in the order of the queue, and nothing else. The
surroundings may do anything meanwhile but operate on the queue. -/

set_option autoImplicit false

namespace TimedWaits

namespace Ledger

/-- A command that puts no alarm into a queue, takes none off it and drops none of its own. -/
def Spares (ledger : Ledger) (queue : Nat) : Command → Prop
  | .insertAlarm other _ | .fireFirst other _ | .withdrawAlarm other _ => other ≠ queue
  | .dropAlarm alarm => (ledger.alarm alarm).queue ≠ queue
  | _ => True

def postsOf (ledger : Ledger) (queue : Nat) : List (Nat × SignalRef) :=
  (ledger.posts.filter fun post => (ledger.alarm post.1).queue = queue).reverse

def post (ledger : Ledger) (alarm : Nat) : Nat × SignalRef := (alarm, (ledger.alarm alarm).signal)

/-- Some alarms at the front of a queue fired in the order of the queue, and nothing else happened
to the queue. -/
structure Fired (queue : Nat) (fired : List Nat) (before after : Ledger) : Prop where
  extend : before.Extends after
  members : before.members queue = fired ++ after.members queue
  posts : after.postsOf queue = before.postsOf queue ++ fired.map before.post

variable {ledger next middle : Ledger} {queue alarm : Nat} {command : Command}

private theorem filter_posts_of_extends (sound : ledger.Sound) (extend : ledger.Extends next)
    (queue : Nat) :
    (ledger.posts.filter fun post => (next.alarm post.1).queue = queue) =
      ledger.posts.filter fun post => (ledger.alarm post.1).queue = queue := by
  refine List.filter_congr fun post member => ?_
  rw [extend.queue post.1 (sound.posted post member)]

private theorem postsOf_of_extends (sound : ledger.Sound) (extend : ledger.Extends next)
    (same : next.posts = ledger.posts) (queue : Nat) :
    next.postsOf queue = ledger.postsOf queue := by
  rw [postsOf, same, filter_posts_of_extends sound extend, postsOf]

private theorem post_of_extends (sound : ledger.Sound) (extend : ledger.Extends next)
    (queued : alarm ∈ ledger.members queue) : next.post alarm = ledger.post alarm := by
  rw [post, extend.signal alarm (sound.stored queue alarm queued), post]

theorem postsOf_fire (other alarm : Nat) (rest : List Nat) (queue : Nat) :
    (ledger.fire other alarm rest).postsOf queue =
      ledger.postsOf queue ++
        if (ledger.alarm alarm).queue = queue then [ledger.post alarm] else [] := by
  change (List.filter (fun post => (ledger.alarm post.1).queue = queue)
    (ledger.post alarm :: ledger.posts)).reverse = _
  by_cases own : (ledger.alarm alarm).queue = queue
  · simp [post, own, postsOf]
  · simp [post, own, postsOf]

theorem Fired.refl (queue : Nat) (ledger : Ledger) : Fired queue [] ledger ledger :=
  ⟨.of_eq rfl rfl, rfl, (List.append_nil _).symm⟩

theorem Fired.trans {first second : List Nat} (sound : ledger.Sound)
    (before : Fired queue first ledger middle) (after : Fired queue second middle next) :
    Fired queue (first ++ second) ledger next where
  extend := before.extend.trans after.extend
  members := by rw [before.members, after.members, List.append_assoc]
  posts := by
    have same : second.map middle.post = second.map ledger.post := by
      refine List.map_congr_left fun alarm fired => ?_
      have queued : alarm ∈ ledger.members queue := by
        rw [before.members, after.members]
        exact List.mem_append_right _ (List.mem_append_left _ fired)
      exact post_of_extends sound before.extend queued
    rw [after.posts, before.posts, same, List.map_append, List.append_assoc]

private theorem Fired.fire {rest : List Nat} (sound : ledger.Sound)
    (front : ledger.members queue = alarm :: rest) :
    Fired queue [alarm] ledger (ledger.fire queue alarm rest) where
  extend := .of_eq rfl rfl
  members := by
    change _ = [alarm] ++ (ledger.setMembers queue rest).members queue
    rw [members_setMembers_self, front]
    rfl
  posts := by
    have own : (ledger.alarm alarm).queue = queue := sound.belongs queue alarm (by simp [front])
    rw [postsOf_fire, if_pos own]
    rfl

private theorem Fired.spare (sound : ledger.Sound) (step : ledger.Step command next)
    (spares : ledger.Spares queue command) : Fired queue [] ledger next := by
  have extend := step.extends
  have kept := postsOf_of_extends sound extend
  have elsewhere : ∀ {other : Nat} (members : List Nat), other ≠ queue →
      (ledger.setMembers other members).members queue = ledger.members queue :=
    fun members differ => members_setMembers_of_ne differ.symm members
  cases step with
  | insert other loose =>
      exact ⟨extend, (elsewhere _ spares).symm, by simp [kept rfl]⟩
  | @fire other alarm now rest front due =>
      refine ⟨extend, (elsewhere _ spares).symm, ?_⟩
      have foreign : (ledger.alarm alarm).queue ≠ queue := by
        rw [sound.belongs other alarm (by simp [front])]
        exact spares
      rw [postsOf_fire, if_neg foreign]
      rfl
  | withdraw other alarm =>
      exact ⟨extend, (elsewhere _ spares).symm, by simp [kept rfl]⟩
  | drop alarm =>
      exact ⟨extend, (elsewhere _ spares).symm, by simp [kept rfl]⟩
  | setClock | advance | create => exact ⟨extend, rfl, by simp [kept rfl]⟩
  | _ => exact .refl queue ledger

end Ledger

/-- Proper commands that spare a queue. -/
def sparing (queue : Nat) : Permit := fun ledger command _ =>
  ledger.Proper command ∧ ledger.Spares queue command

/-- Observers that return whenever they are called and spare a queue, as long as the surroundings
are quiet, which they stay. -/
def Environment.Spares {σ : Type} (environment : Environment σ) (queue : Nat)
    (quiet : σ → Prop) : Prop :=
  ∀ observer token world, quiet world.outside →
    (environment (.observe observer token) world).1 = .ok () ∧
      Leads (sparing queue) world.system (environment (.observe observer token) world).2.system ∧
      quiet (environment (.observe observer token) world).2.outside

private theorem Leads.spared {queue : Nat} {first last : System} (leads : Leads (sparing queue) first last)
    (threaded : first.Threaded) (sound : first.ledger.Sound) :
    last.Threaded ∧ last.ledger.Sound ∧ Ledger.Fired queue [] first.ledger last.ledger := by
  refine leads.preserves
    (motive := fun ledger => ledger.Sound ∧ Ledger.Fired queue [] first.ledger ledger) threaded
    ⟨sound, .refl queue first.ledger⟩ ?_
  rintro ledger next command ⟨soundLedger, fired⟩ step ⟨proper, spares⟩
  exact ⟨soundLedger.step step proper, fired.trans sound (.spare soundLedger step spares)⟩

namespace Alarms

variable {σ : Type} {environment : Environment σ} {queue : Nat} {quiet : σ → Prop} {now : Tick}

private theorem callAny_run (spares : environment.Spares queue quiet) (attachment : Option Attachment)
    {world : World σ} (start : quiet world.outside) :
    ((Attachment.callAny attachment).run environment world).1 = .ok () ∧
      Leads (sparing queue) world.system
        ((Attachment.callAny attachment).run environment world).2.system ∧
      quiet ((Attachment.callAny attachment).run environment world).2.outside := by
  match attachment with
  | none => exact ⟨rfl, .refl _, start⟩
  | some { observer := .selector index, token } =>
      let marking : Command := .markReady index token
      have permitted : sparing queue world.system.ledger marking
          (marking.apply world.system).2.ledger := ⟨trivial, trivial⟩
      exact ⟨rfl, .single permitted, start⟩
  | some { observer := .custom index, token } =>
      obtain ⟨granted, moves⟩ := spares index token world start
      simp only [Attachment.callAny, Attachment.call, Activity.request, Activity.run]
      simp only [granted]
      exact ⟨rfl, moves⟩

/-- An activity gave an answer after some alarms at the front of a queue fired. -/
structure Fires {α : Type} (queue : Nat) (fired : List Nat) (world : World σ)
    (run : Except Failure α × World σ) (answer : α) : Prop where
  answered : run.1 = .ok answer
  threaded : run.2.system.Threaded
  sound : run.2.system.ledger.Sound
  fired : Ledger.Fired queue fired world.system.ledger run.2.system.ledger

theorem drain_run_of_fired {bound : Nat} {world called : World σ} {reply : FiredAlarm}
    (replied : (world.system.fireFirst queue now).1 = some reply)
    (call : (Attachment.callAny reply.attachment).run environment
      { world with system := (world.system.fireFirst queue now).2 } = (.ok (), called)) :
    (drain queue now (bound + 1)).run environment world =
      (drain queue now bound).run environment
        (called.apply (.log (.alarmFired reply.deadline now))).2 := by
  rw [drain, Activity.run_bind]
  simp only [Activity.perform, Activity.run, World.apply, Command.apply, replied]
  rw [Activity.run_bind, call]
  rfl

theorem drain_run_of_undue {bound : Nat} {world : World σ}
    (held : world.system.fireFirst queue now = (none, world.system)) :
    (drain queue now (bound + 1)).run environment world = (.ok (), world) := by
  rw [drain, Activity.run_bind]
  simp only [Activity.perform, Activity.run, World.apply, Command.apply, held]
  rfl

private theorem drain_round (spares : environment.Spares queue quiet) {world : World σ} {alarm : Nat}
    {rest : List Nat} (bound : Nat) (start : quiet world.outside) (threaded : world.system.Threaded)
    (sound : world.system.ledger.Sound)
    (front : world.system.ledger.members queue = alarm :: rest)
    (due : world.system.ledger.isDue now alarm = true) :
    ∃ later : World σ,
      (drain queue now (bound + 1)).run environment world =
          (drain queue now bound).run environment later ∧
        quiet later.outside ∧ later.system.Threaded ∧ later.system.ledger.Sound ∧
        Ledger.Fired queue [alarm] world.system.ledger later.system.ledger := by
  obtain ⟨⟨reply, replied⟩, ledger, kept⟩ := threaded.fireFirst_due front due
  let popped : World σ := { world with system := (world.system.fireFirst queue now).2 }
  let called := ((Attachment.callAny reply.attachment).run environment popped).2
  let noting : Command := .log (.alarmFired reply.deadline now)
  obtain ⟨granted, calls, still⟩ :=
    callAny_run spares reply.attachment (show quiet popped.outside from start)
  have permitted : sparing queue called.system.ledger noting
    (called.apply noting).2.system.ledger := ⟨trivial, trivial⟩
  have soundPopped : popped.system.ledger.Sound :=
    ledger ▸ sound.step (.fire front due) trivial
  have fired : Ledger.Fired queue [alarm] world.system.ledger popped.system.ledger :=
    ledger ▸ .fire sound front
  obtain ⟨threadedNoted, soundNoted, spared⟩ := (calls.apply permitted).spared kept soundPopped
  exact ⟨(called.apply noting).2, drain_run_of_fired replied (Prod.ext granted rfl),
    still, threadedNoted, soundNoted, fired.trans sound spared⟩

private theorem drain_fires (spares : environment.Spares queue quiet) {fired left : List Nat} {bound : Nat}
    {world : World σ} (start : quiet world.outside) (threaded : world.system.Threaded)
    (sound : world.system.ledger.Sound)
    (split : world.system.ledger.members queue = fired ++ left)
    (due : ∀ alarm ∈ fired, world.system.ledger.isDue now alarm = true)
    (undue : ∀ alarm ∈ left.head?, world.system.ledger.isDue now alarm = false)
    (enough : fired.length < bound) :
    Fires queue fired world ((drain queue now bound).run environment world) () := by
  induction fired generalizing world bound with
  | nil =>
      obtain ⟨bound, rfl⟩ := Nat.exists_eq_succ_of_ne_zero (Nat.ne_of_gt enough)
      have held : world.system.fireFirst queue now = (none, world.system) :=
        threaded.fireFirst_undue (by rwa [split])
      rw [drain_run_of_undue held]
      exact ⟨rfl, threaded, sound, .refl queue _⟩
  | cons alarm rest ih =>
      obtain ⟨bound, rfl⟩ :=
        Nat.exists_eq_succ_of_ne_zero (Nat.ne_of_gt (Nat.zero_lt_of_lt enough))
      obtain ⟨later, run, startLater, threadedLater, soundLater, fires⟩ :=
        drain_round spares bound start threaded sound split (due alarm List.mem_cons_self)
      have splitLater : later.system.ledger.members queue = rest ++ left := by
        have both := fires.members
        rw [split] at both
        exact (List.cons.inj both).2.symm
      have same : ∀ other ∈ rest ++ left,
          later.system.ledger.isDue now other = world.system.ledger.isDue now other := by
        intro other member
        have queued : other ∈ world.system.ledger.members queue :=
          split ▸ List.mem_cons_of_mem alarm member
        rw [Ledger.isDue, fires.extend.deadline other (sound.stored queue other queued),
          Ledger.isDue]
      have rests := ih startLater threadedLater soundLater splitLater
        (fun other member => by
          rw [same other (List.mem_append_left left member)]
          exact due other (List.mem_cons_of_mem alarm member))
        (fun other member => by
          rw [same other (List.mem_append_right rest (List.mem_of_mem_head? member))]
          exact undue other member)
        (Nat.lt_of_succ_lt_succ enough)
      rw [run]
      exact ⟨rests.answered, rests.threaded, rests.sound, fires.trans sound rests.fired⟩

def reported (now : Tick) : Option Tick → Tick
  | none => 0
  | some deadline => max (Tick.remaining deadline now) 1

private theorem check_run {bound : Nat} {world drained : World σ} (threaded : drained.system.Threaded)
    (run : (drain queue (world.system.ledger.now queue) bound).run environment world =
      (.ok (), drained)) :
    (check bound queue).run environment world =
      (.ok (reported (world.system.ledger.now queue)
        ((drained.system.ledger.members queue).head?.map drained.system.ledger.deadline)),
        drained) := by
  have nearest : drained.system.alarms.nextDeadline? queue =
      (drained.system.ledger.members queue).head?.map drained.system.ledger.deadline :=
    congrArg (Option.map drained.system.ledger.deadline)
      (LinkedLists.Spells.front?_eq threaded queue)
  have start : (check bound queue).run environment world =
      (drain queue (world.system.ledger.now queue) bound >>= fun _ =>
        Activity.read (fun system => system.alarms.nextDeadline? queue) >>= fun
          | none => Activity.done 0
          | some deadline => Activity.done
              (max (Tick.remaining deadline (world.system.ledger.now queue)) 1)).run
        environment world := rfl
  rw [start, Activity.run_bind, run]
  simp only [Activity.run_bind, Activity.read, Activity.run, nearest]
  cases (drained.system.ledger.members queue).head? <;> rfl

/-- A check fires the alarms at the front of a queue that are due, and answers with the ticks left
until the deadline of the next one. -/
theorem check_fires (spares : environment.Spares queue quiet) {fired left : List Nat} {bound : Nat}
    {world : World σ} (start : quiet world.outside) (threaded : world.system.Threaded)
    (sound : world.system.ledger.Sound)
    (split : world.system.ledger.members queue = fired ++ left)
    (due : ∀ alarm ∈ fired,
      world.system.ledger.isDue (world.system.ledger.now queue) alarm = true)
    (undue : ∀ alarm ∈ left.head?,
      world.system.ledger.isDue (world.system.ledger.now queue) alarm = false)
    (enough : fired.length < bound) :
    Fires queue fired world ((check bound queue).run environment world)
      (reported (world.system.ledger.now queue)
        (left.head?.map world.system.ledger.deadline)) := by
  have fires := drain_fires spares start threaded sound split due undue enough
  have remain : (((drain queue (world.system.ledger.now queue) bound).run environment
      world).2.system.ledger.members queue) = left :=
    (List.append_cancel_left (split.symm.trans fires.fired.members)).symm
  have same : ((left.head?).map ((drain queue (world.system.ledger.now queue) bound).run
      environment world).2.system.ledger.deadline) =
      left.head?.map world.system.ledger.deadline := by
    cases head : left.head? with
    | none => rfl
    | some alarm =>
        have queued : alarm ∈ world.system.ledger.members queue :=
          split ▸ List.mem_append_right fired (List.mem_of_mem_head? head)
        rw [Option.map_some, Option.map_some,
          fires.fired.extend.deadline alarm (sound.stored queue alarm queued)]
  rw [check_run fires.threaded (Prod.ext fires.answered rfl), remain, same]
  exact ⟨rfl, fires.threaded, fires.sound, fires.fired⟩

end Alarms

namespace Ledger

variable {ledger : Ledger} {queue : Nat} {base now : Tick}

private theorem filter_append_filter_not {alarms : List Nat} {accepts : Nat → Bool}
    (sorted : alarms.Pairwise fun first second => accepts second = true → accepts first = true) :
    alarms.filter accepts ++ alarms.filter (fun alarm => !accepts alarm) = alarms := by
  induction alarms with
  | nil => rfl
  | cons alarm rest ih =>
      obtain ⟨first, sortedRest⟩ := List.pairwise_cons.mp sorted
      cases accepted : accepts alarm with
      | true => simpa [accepted] using ih sortedRest
      | false =>
          have none : ∀ other ∈ rest, accepts other = false := by
            intro other member
            rw [← Bool.not_eq_true]
            exact fun some => Bool.eq_false_iff.mp accepted (first other member some)
          have empty : rest.filter accepts = [] := by simpa using none
          have full : rest.filter (fun other => !accepts other) = rest := by simpa using none
          simp [accepted, empty, full]

theorem Within.isDue_eq {alarm : Nat} (within : ledger.Within queue base)
    (queued : alarm ∈ ledger.members queue) :
    ledger.isDue (ledger.now queue) alarm =
      decide (Tick.offset base (ledger.deadline alarm) ≤ Tick.offset base (ledger.now queue)) := by
  rw [Bool.eq_iff_iff, decide_eq_true_iff]
  exact (within.deadlines alarm queued).isDue_iff within.now

theorem Ordered.pairwise_due (ordered : ledger.Ordered queue) (within : ledger.Within queue base) :
    (ledger.members queue).Pairwise fun first second =>
      ledger.isDue (ledger.now queue) second = true →
        ledger.isDue (ledger.now queue) first = true := by
  refine ordered.imp_of_mem fun {first second} queued queuedSecond precedes => ?_
  rw [within.isDue_eq queued, within.isDue_eq queuedSecond, decide_eq_true_iff, decide_eq_true_iff]
  exact Nat.le_trans (precedes.offset_le (within.deadlines first queued)
    (within.deadlines second queuedSecond))

private theorem Ordered.due_append_left (ordered : ledger.Ordered queue)
    (within : ledger.Within queue base) :
    ledger.members queue =
      (ledger.members queue).filter (fun alarm =>
        Tick.offset base (ledger.deadline alarm) ≤ Tick.offset base (ledger.now queue)) ++
      (ledger.members queue).filter (fun alarm =>
        Tick.offset base (ledger.now queue) < Tick.offset base (ledger.deadline alarm)) := by
  have parted := filter_append_filter_not (ordered.pairwise_due within)
  rw [List.filter_congr fun alarm queued => within.isDue_eq queued,
    List.filter_congr fun alarm queued => congrArg (! ·) (within.isDue_eq queued)] at parted
  refine parted.symm.trans (congrArg _ (List.filter_congr fun alarm _ => ?_))
  rw [← decide_not, decide_eq_decide, Nat.not_le]

private theorem Ordered.pairwise_offset (ordered : ledger.Ordered queue)
    (within : ledger.Within queue base) :
    (ledger.members queue).Pairwise fun first second =>
      Tick.offset base (ledger.deadline first) < Tick.offset base (ledger.deadline second) ∨
        Tick.offset base (ledger.deadline first) = Tick.offset base (ledger.deadline second) ∧
          ledger.Earlier first second := by
  refine ordered.imp_of_mem fun {first second} queued queuedSecond precedes => ?_
  have order := (precedes_iff (within.deadlines first queued)
    (within.deadlines second queuedSecond)).mp precedes
  exact order.imp_right fun ⟨equal, earlier⟩ => ⟨congrArg (Tick.offset base) equal, earlier⟩

/-- The ticks that a check reports lead to the least offset of a deadline that is left. -/
private theorem Ordered.offset_reported {left : List Nat} (ordered : left.Pairwise ledger.Precedes)
    (withinNow : Tick.InWindow base now)
    (within : ∀ alarm ∈ left, Tick.InWindow base (ledger.deadline alarm))
    (undue : ∀ alarm ∈ left, ledger.isDue now alarm = false) :
    let reported := Alarms.reported now (left.head?.map ledger.deadline)
    (reported = 0 ↔ left = []) ∧
      ∀ nearest ∈ left,
        (∀ other ∈ left, Tick.offset base (ledger.deadline nearest) ≤
          Tick.offset base (ledger.deadline other)) →
        Tick.offset base now + reported.toNat = Tick.offset base (ledger.deadline nearest) := by
  cases left with
  | nil => exact ⟨by simp [Alarms.reported], by simp⟩
  | cons first rest =>
      have deadline := within first List.mem_cons_self
      obtain ⟨leads, positive⟩ := deadline.offset_remaining withinNow
        (undue first List.mem_cons_self)
      simp only [List.head?_cons, Option.map_some, Alarms.reported, Tick.max_one positive]
      refine ⟨?_, ?_⟩
      · have nonzero : Tick.remaining (ledger.deadline first) now ≠ 0 := by
          intro zero
          rw [zero] at positive
          exact Nat.lt_irrefl 0 positive
        simp [nonzero]
      · intro nearest member least
        have before := least first List.mem_cons_self
        rw [leads]
        rcases List.mem_cons.mp member with rfl | later
        · rfl
        · have precedes := (List.pairwise_cons.mp ordered).1 nearest later
          exact Nat.le_antisymm (precedes.offset_le deadline (within nearest member)) before

end Ledger

theorem Setup.members_eq_nil (setup : Setup) (queue : Nat) :
    setup.system.ledger.members queue = [] := by
  cases queue <;> rfl

theorem Setup.threaded (setup : Setup) : setup.system.Threaded := by
  have empty : setup.system.alarms.members = fun _ => [] := funext setup.members_eq_nil
  change setup.system.alarms.lists.Spells setup.system.alarms.members
  rw [empty]
  exact LinkedLists.spells_empty

theorem Setup.sound (setup : Setup) : setup.system.ledger.Sound where
  stored queue alarm member := by simp [setup.members_eq_nil] at member
  belongs queue alarm member := by simp [setup.members_eq_nil] at member
  posted post member := by cases member

theorem Setup.ordered (setup : Setup) (queue : Nat) : setup.system.ledger.Ordered queue := by
  rw [Ledger.Ordered, setup.members_eq_nil]
  exact .nil

theorem Setup.within (setup : Setup) (queue : Nat) :
    setup.system.ledger.Within queue (setup.system.ledger.now queue) where
  now := by rw [Tick.InWindow, Tick.offset_self]; decide
  deadlines alarm member := by simp [setup.members_eq_nil] at member

/-- No observer has steps to run. -/
def Cast.IsQuiet (cast : Cast) : Prop := ∀ observer, (cast.observers.get observer).steps = []

theorem Stage.environment_spares (runStep : Step → Stage → Outcome × Stage) (queue : Nat) :
    (Stage.environment runStep).Spares queue Cast.IsQuiet := by
  intro observer token stage quiet
  have called : Leads (sparing queue) stage.system
      (stage.record (.observerCalled observer token)).system :=
    .note (.refl stage.system) ⟨rfl, rfl⟩
  simp only [environment, react]
  split
  · exact ⟨rfl, called, quiet⟩
  · simp only [quiet observer, runAll]
    refine ⟨trivial, called, fun other => ?_⟩
    rw [Table.get_set]
    split
    · rfl
    · exact quiet other

/-- In a run that keeps to windows there is always one that holds the current tick and the deadlines
in the queue, and by any such the queue is in the order of deadlines, and of entry among equal ones.
A check then posts the signals of the alarms whose deadline the clock has reached, each once and in
that order, leaves the others as they were, and answers with the ticks to the nearest deadline that
is left, or zero if none is. -/
theorem Alarms.check_fires_by_deadline {setup : Setup} {queue : Nat} {system : System}
    (run : Leads (windowed queue) setup.system system) :
    (∃ base, system.ledger.Within queue base) ∧ ∀ base, system.ledger.Within queue base →
      let offset := fun alarm => Tick.offset base (system.ledger.deadline alarm)
      let current := Tick.offset base (system.ledger.now queue)
      let members := system.ledger.members queue
      let due := members.filter fun alarm => offset alarm ≤ current
      let left := members.filter fun alarm => current < offset alarm
      (members.Pairwise fun first second => offset first < offset second ∨
          offset first = offset second ∧ system.ledger.Earlier first second) ∧
        ∀ {σ : Type} {environment : Environment σ} {quiet : σ → Prop} {outside : σ} {bound : Nat},
          environment.Spares queue quiet → quiet outside → members.length < bound →
          let checked := (check bound queue).run environment { system, outside }
          checked.2.system.ledger.postsOf queue =
              system.ledger.postsOf queue ++ due.map system.ledger.post ∧
            checked.2.system.ledger.members queue = left ∧
            ∃ delay, checked.1 = .ok delay ∧ (delay = 0 ↔ left = []) ∧
              ∀ nearest ∈ left, (∀ other ∈ left, offset nearest ≤ offset other) →
                current + delay.toNat = offset nearest := by
  obtain ⟨threaded, sound, ordered, exist⟩ :=
    run.ordered setup.threaded setup.sound (setup.ordered queue) ⟨_, setup.within queue⟩
  refine ⟨exist, fun base within => ⟨ordered.pairwise_offset within, ?_⟩⟩
  intro σ environment quiet outside bound spares start enough checked
  let current := Tick.offset base (system.ledger.now queue)
  let members := system.ledger.members queue
  let due := members.filter fun alarm => Tick.offset base (system.ledger.deadline alarm) ≤ current
  let left := members.filter fun alarm => current < Tick.offset base (system.ledger.deadline alarm)
  have split : members = due ++ left := ordered.due_append_left within
  have fired : ∀ alarm ∈ due, system.ledger.isDue (system.ledger.now queue) alarm = true := by
    intro alarm member
    obtain ⟨queued, reached⟩ := List.mem_filter.mp member
    rw [within.isDue_eq queued, reached]
  have undue : ∀ alarm ∈ left, system.ledger.isDue (system.ledger.now queue) alarm = false := by
    intro alarm member
    obtain ⟨queued, ahead⟩ := List.mem_filter.mp member
    rw [within.isDue_eq queued, decide_eq_false_iff_not, Nat.not_le]
    exact of_decide_eq_true ahead
  have shorter : due.length < bound := Nat.lt_of_le_of_lt (List.length_filter_le _ _) enough
  have fires : Fires queue due { system, outside : World σ } checked _ :=
    check_fires spares start threaded sound split fired
      (fun alarm head => undue alarm (List.mem_of_mem_head? head)) shorter
  have remain := List.append_cancel_left (split.symm.trans fires.fired.members)
  refine ⟨fires.fired.posts, remain.symm, _, fires.answered, ?_⟩
  exact Ledger.Ordered.offset_reported (List.Pairwise.sublist List.filter_sublist ordered) within.now
    (fun alarm member => within.deadlines alarm (List.mem_filter.mp member).1) undue

/-- Of two alarms around the point where the ticks wrap, the one before it fires. -/
theorem Alarms.check_fires_across_wrap :
    let setup : Setup := { clocks := [4294967290], signals := [.host, .host], queues := [{}] }
    let system := setup.system.applyAll [.createAlarm 0 (.shared 0) 4294967294 true,
      .createAlarm 0 (.shared 1) 3 true, .insertAlarm 0 1, .insertAlarm 0 0, .advance 0 8]
    let checked := (check 3 0).run (Stage.environment fun _ stage => (.ok .nothing, stage))
      { system, outside := {} }
    Leads (windowed 0) setup.system system ∧ system.ledger.Within 0 4294967290 ∧
      checked.2.system.ledger.postsOf 0 = [(0, .shared 0)] ∧
      checked.2.system.ledger.members 0 = [1] ∧ checked.1 = .ok 1 := by
  intro setup system
  have within : system.ledger.Within 0 4294967290 := ⟨by decide, by decide⟩
  have run : Leads (windowed 0) setup.system system := by
    refine Leads.applyAll ⟨?_, ?_, ?_, ?_, ?_, trivial⟩
    · exact ⟨trivial, 4294967290, by decide, by decide⟩
    · exact ⟨trivial, 4294967290, by decide, by decide⟩
    · exact ⟨⟨by decide, by decide⟩, 4294967290, by decide, by decide⟩
    · exact ⟨⟨by decide, by decide⟩, 4294967290, by decide, by decide⟩
    · exact ⟨trivial, 4294967290, within⟩
  have quiet : Cast.IsQuiet {} := fun _ => rfl
  have enough : (system.ledger.members 0).length < 3 := by decide
  obtain ⟨posts, left, delay, answer, -, nearest⟩ :=
    ((check_fires_by_deadline run).2 4294967290 within).2
      (Stage.environment_spares (fun _ stage => (.ok .nothing, stage)) 0) quiet enough
  have current : Tick.offset 4294967290 (system.ledger.now 0) = 8 := by decide
  have deadline : Tick.offset 4294967290 (system.ledger.deadline 1) = 9 := by decide
  have leads : Tick.offset 4294967290 (system.ledger.now 0) + delay.toNat =
      Tick.offset 4294967290 (system.ledger.deadline 1) := nearest 1 (by decide) (by decide)
  rw [current, deadline] at leads
  have one : delay = 1 := UInt32.toNat_inj.mp (Nat.add_left_cancel leads)
  refine ⟨run, within, ?_, ?_, ?_⟩
  · rw [posts]
    decide
  · rw [left]
    decide
  · rw [answer, one]

end TimedWaits
