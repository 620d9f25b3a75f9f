import Mathlib.Data.List.Perm.Subperm
import TimedWaits.Proofs.Workers.JobOrder

/-! The signal of a worker has a post for each of its jobs. A put raises it, and a turn that takes a post
takes a job as well, unless the worker was killed. Then the run that took the turn returns, and may leave
jobs without a post. -/

set_option autoImplicit false

namespace TimedWaits

namespace Workers

variable {worker : Nat} {history recent : List Occurrence}

/-- A turn of a worker took a post after the worker was killed, so the run that it belongs to returned. -/
def Stopped (worker : Nat) (history : List Occurrence) : Prop :=
  ∃ later earlier, history = later ++ .took (.worker worker) :: earlier ∧ .killed worker ∈ earlier

theorem Stopped.append (stopped : Stopped worker history) (recent : List Occurrence) :
    Stopped worker (recent ++ history) := by
  obtain ⟨later, earlier, rfl, killed⟩ := stopped
  exact ⟨recent ++ later, earlier, (List.append_assoc _ _ _).symm, killed⟩

private theorem Stopped.of_took (took : .took (.worker worker) ∈ recent)
    (killed : .killed worker ∈ history) :
    Stopped worker (recent ++ history) := by
  obtain ⟨later, earlier, rfl⟩ := List.append_of_mem took
  refine ⟨later, earlier ++ history, ?_, List.mem_append_right _ killed⟩
  rw [List.append_assoc, List.cons_append]

end Workers

/-! ### Frames -/

def Occurrence.isKill (worker : Nat) : Occurrence → Bool
  | .killed other => other = worker
  | _ => false

namespace System

theorem flags_nextJob (system : System) (worker : Nat) :
    (system.nextJob worker).2.workers.workers = system.workers.workers := by
  unfold nextJob
  split
  · rfl
  · dsimp only
    split <;> rfl

theorem flags_takeTurn (system : System) (worker : Nat) :
    (system.takeTurn worker).2.workers.workers = system.workers.workers := by
  have taken := congrArg Workers.workers (system.workers_take (.worker worker))
  have next := ((system.take (.worker worker)).2.flags_nextJob worker).trans taken
  simp only [takeTurn]
  split
  · exact taken
  · split
    · next idle => rwa [idle] at next
    · next started => rwa [started] at next

/-- A turn that starts a job leaves a worker that was not killed. -/
theorem running_of_takeTurn {system : System} {worker job : Nat}
    (started : (system.takeTurn worker).1 = .run job) :
    ((system.takeTurn worker).2.workers.workers.get worker).killed = false := by
  rw [flags_takeTurn, Bool.eq_false_iff]
  intro killed
  rw [takeTurn_of_killed killed] at started
  cases started

end System

namespace Command

variable {command : Command} {system : System} {worker count : Nat}

private theorem pending_apply (elsewhere : command.worker? ≠ some worker)
    (takes : command ≠ .take (.worker worker)) (few : count ≤ Signal.ceiling)
    (enough : count ≤ (system.signal (.worker worker)).pending) :
    count ≤ ((command.apply system).2.signal (.worker worker)).pending :=
  Command.pending_le elsewhere takes few enough

private theorem flags_apply (lasting : ∀ worker, command.Keeps worker)
    (mild : ∀ worker, command ≠ .kill worker) :
    (command.apply system).2.workers.workers = system.workers.workers := by
  cases command with
  | createWorker worker | dropWorker worker => exact absurd rfl (lasting worker)
  | kill worker => exact absurd rfl (mild worker)
  | putJob worker job =>
      simp only [apply, System.putJob]
      split <;> rfl
  | nextJob worker => exact system.flags_nextJob worker
  | takeTurn worker => exact system.flags_takeTurn worker
  | _ => exact congrArg Workers.workers (workers_apply rfl system)

theorem killed_apply (keeps : command.Keeps worker) :
    ((command.apply system).2.workers.workers.get worker).killed = true ↔
      command = .kill worker ∨ (system.workers.workers.get worker).killed = true := by
  cases command with
  | createWorker other backend =>
      have differ : worker ≠ other := Ne.symm keeps
      change (((system.workers.workers.set other {}).set other { live := true }).get worker).killed = true ↔ _
      rw [Table.get_set_of_ne _ differ, Table.get_set_of_ne _ differ]
      exact (or_iff_right (by intro same; cases same)).symm
  | dropWorker other =>
      change ((system.workers.workers.set other {}).get worker).killed = true ↔ _
      rw [Table.get_set_of_ne _ (Ne.symm keeps)]
      exact (or_iff_right (by intro same; cases same)).symm
  | kill other =>
      change ((system.workers.workers.modify other ({ · with killed := true })).get worker).killed =
        true ↔ _
      rw [Table.get_modify]
      split
      · next same => exact iff_of_true rfl (.inl (same ▸ rfl))
      · next differ =>
        refine (or_iff_right ?_).symm
        rintro ⟨⟩
        exact differ rfl
  | _ =>
      rw [flags_apply]
      · exact (or_iff_right (by intro same; cases same)).symm
      · exact fun _ => trivial
      · exact fun _ same => nomatch same

private theorem mem_since_killed : .killed worker ∈ (command.apply system).2.since system ↔
    command = .kill worker := by
  constructor
  · intro member
    by_contra other
    have none : ((command.apply system).2.since system).countP (Occurrence.isKill worker) = 0 := by
      refine command.countP_since ?_ (fun _ => rfl) (fun _ _ => rfl) system
      intro occurrence notes
      cases occurrence with
      | killed index =>
          refine decide_eq_false ?_
          rintro rfl
          exact other notes
      | _ => rfl
    exact List.countP_eq_zero.mp none _ member (decide_eq_true rfl)
  · rintro rfl
    have since : ((Command.kill worker).apply system).2.since system =
        [.raised (.worker worker), .killed worker] := System.since_eq rfl
    rw [since]
    exact List.mem_cons_of_mem _ List.mem_cons_self

end Command

private theorem Workers.Moves.elsewhere {before after : Nat → List Nat} {command : Command}
    {reply : command.Reply} {notes : List Occurrence} {worker : Nat}
    (moves : Workers.Moves before after command reply notes)
    (elsewhere : command.worker? ≠ some worker) : after worker = before worker := by
  have differ : ∀ {other : Nat}, some other ≠ some worker → worker ≠ other := by
    rintro other apart rfl
    exact apart rfl
  cases moves with
  | stays same => rw [same]
  | accepts _ moved | next _ moved | turn _ moved | drops moved | creates moved =>
      rw [moved, Function.update_of_ne (differ elsewhere)]

/-! ### The signal of a worker -/

/-- A command that leaves the posts of a worker to its turns, and gives it jobs of a list only. -/
def Command.Serves (worker : Nat) (items : List Nat) : Command → Prop
  | .createWorker other _ | .dropWorker other => other ≠ worker
  | .take signal => signal ≠ .worker worker
  | .putJob other job => other = worker → job ∈ items
  | _ => True

theorem Workers.Moves.within {before after : Nat → List Nat} {command : Command}
    {reply : command.Reply} {notes : List Occurrence} {worker : Nat} {items : List Nat}
    (moves : Workers.Moves before after command reply notes) (allowed : command.Serves worker items)
    (within : before worker ⊆ items) : after worker ⊆ items := by
  have takes : ∀ {other job : Nat} {rest : List Nat}, before other = job :: rest →
      Function.update before other rest worker ⊆ items := by
    intro other job rest front
    by_cases same : other = worker
    · subst same
      rw [Function.update_self]
      exact List.Subset.trans (List.subset_cons_self job rest) (front ▸ within)
    · rwa [Function.update_of_ne (Ne.symm same)]
  cases moves with
  | stays same => rwa [same]
  | @accepts other job _ moved =>
      rw [moved]
      by_cases same : other = worker
      · subst same
        rw [Function.update_self]
        exact List.append_subset.mpr ⟨within, List.cons_subset.mpr ⟨allowed rfl, List.nil_subset _⟩⟩
      · rwa [Function.update_of_ne (Ne.symm same)]
  | next front moved | turn front moved =>
      rw [moved]
      exact takes front
  | drops moved | creates moved => rwa [moved, Function.update_of_ne (Ne.symm allowed)]

/-- Whatever is done leaves the posts of a worker to its turns, and gives it jobs of a list only. -/
def serves (worker : Nat) (items : List Nat) : Conduct := fun _ command => command.Serves worker items

private theorem Command.Serves.keeps {worker : Nat} {items : List Nat} {command : Command}
    (serves : command.Serves worker items) : command.Keeps worker := by
  cases command <;> first | exact serves | trivial

namespace System

variable {first last next : System} {worker : Nat} {items : List Nat} {command : Command}

/-- A worker that has no jobs and was not killed. -/
structure IsFresh (system : System) (worker : Nat) : Prop where
  empty : system.jobs worker = []
  running : (system.workers.workers.get worker).killed = false

/-- Since it was fresh, a worker got jobs of a list. It was killed if the history says so, and has a post
for each job unless a run has returned because of that. -/
structure Serves (first : System) (worker : Nat) (items : List Nat) (last : System) : Prop where
  lined : last.Lined
  continues : last.Continues first
  items : last.jobs worker ⊆ items
  killed : (last.workers.workers.get worker).killed = true ↔ .killed worker ∈ last.since first
  enough : Workers.Stopped worker (last.since first) ∨
    (last.jobs worker).length ≤ (last.signal (.worker worker)).pending

theorem Lined.length_le (lined : last.Lined) (within : last.jobs worker ⊆ items) :
    (last.jobs worker).length ≤ items.length :=
  (List.Nodup.subperm (lined.nodup worker) within).length_le

theorem Lined.signal_putJob (lined : last.Lined) {job : Nat} (loose : ∀ other, job ∉ last.jobs other) :
    (last.putJob worker job).2.signal (.worker worker) = (last.signal (.worker worker)).raise := by
  obtain ⟨-, -, -, -, signals, -⟩ := lined.putJob_loose loose worker
  rw [signal, signals]
  exact signal_raise last _

namespace Serves

variable (serves : first.Serves worker items last)

include serves

private theorem enough_putJob (few : items.length ≤ Signal.ceiling) {job : Nat} (item : job ∈ items)
    (before : (last.jobs worker).length ≤ (last.signal (.worker worker)).pending) :
    ((last.putJob worker job).2.jobs worker).length ≤
      ((last.putJob worker job).2.signal (.worker worker)).pending := by
  by_cases queued : ∃ other, job ∈ last.jobs other
  · obtain ⟨other, queued⟩ := queued
    rw [serves.lined.putJob_queued queued]
    exact before
  · have loose := not_exists.mp queued
    obtain ⟨-, jobs, lined, -⟩ := serves.lined.putJob_loose loose worker
    have more : (last.putJob worker job).2.jobs worker = last.jobs worker ++ [job] := by
      rw [jobs, Function.update_self]
    have within := (Command.moves serves.lined (.putJob worker job)).1.within (fun _ => item) serves.items
    have room := Nat.le_trans (lined.length_le within) few
    change ((last.putJob worker job).2.jobs worker).length ≤ Signal.ceiling at room
    rw [more, List.length_append] at room ⊢
    rw [serves.lined.signal_putJob loose]
    exact Nat.le_min.mpr ⟨Nat.succ_le_succ before, room⟩

private theorem enough_nextJob
    (before : (last.jobs worker).length ≤ (last.signal (.worker worker)).pending) :
    ((last.nextJob worker).2.jobs worker).length ≤
      ((last.nextJob worker).2.signal (.worker worker)).pending := by
  cases front : last.jobs worker with
  | nil =>
      rw [serves.lined.nextJob_nil front]
      exact before
  | cons job rest =>
      obtain ⟨-, starts⟩ := serves.lined.nextJob_cons front
      rw [starts.front] at before
      rw [signal, starts.signals]
      exact Nat.le_trans (Nat.le_succ _) before

private theorem enough_takeTurn
    (before : (last.jobs worker).length ≤ (last.signal (.worker worker)).pending) :
    Workers.Stopped worker ((last.takeTurn worker).2.since first) ∨
      ((last.takeTurn worker).2.jobs worker).length ≤
        ((last.takeTurn worker).2.signal (.worker worker)).pending := by
  have jobs := last.jobs_take (.worker worker)
  have pending := last.pending_take (.worker worker)
  have turns := serves.lined.takeTurn_cases worker
  rcases turns with ⟨killed, turn⟩ | ⟨-, empty, turn⟩ | ⟨job, -, -, starts⟩
  -- A worker that was killed goes through a post, if there is one, and leaves its jobs.
  · rw [turn]
    rcases last.take_cases (.worker worker) with ⟨-, took⟩ | ⟨taken, took, -, history⟩
    · rw [took]
      exact .inr before
    · have recent : (taken.log .workerStopped).history =
          [.logged .workerStopped, .took (.worker worker)] ++ last.history := congrArg _ history
      have onward : (taken.log .workerStopped).Continues last := ⟨_, recent.symm⟩
      rw [took]
      refine .inl ?_
      rw [serves.continues.since_trans onward, since_eq recent]
      exact .of_took (List.mem_cons_of_mem _ List.mem_cons_self) (serves.killed.mp killed)
  · rw [turn]
    refine .inr ?_
    rw [jobs, empty]
    exact Nat.zero_le _
  · refine .inr ?_
    have enough := Nat.le_trans before pending
    rw [← jobs, starts.front] at enough
    rw [signal, starts.signals]
    exact Nat.le_of_succ_le_succ enough

private theorem enough_apply (few : items.length ≤ Signal.ceiling) (allowed : command.Serves worker items) :
    Workers.Stopped worker ((command.apply last).2.since first) ∨
      ((command.apply last).2.jobs worker).length ≤
        ((command.apply last).2.signal (.worker worker)).pending := by
  have room := Nat.le_trans (serves.lined.length_le serves.items) few
  have onward := (Continues.refl last).apply command
  rcases serves.enough with stopped | before
  · rw [serves.continues.since_trans onward]
    exact .inl (stopped.append _)
  by_cases about : command.worker? = some worker
  · cases command with
    | createWorker | dropWorker =>
        cases about
        exact absurd rfl allowed
    | putJob other job =>
        cases about
        exact .inr (serves.enough_putJob few (allowed rfl) before)
    | nextJob =>
        cases about
        exact .inr (serves.enough_nextJob before)
    | takeTurn =>
        cases about
        exact serves.enough_takeTurn before
    | kill =>
        cases about
        have raised : (last.kill worker).signal (.worker worker) =
            (last.signal (.worker worker)).raise := signal_raise _ _
        refine .inr ?_
        change (last.jobs worker).length ≤ ((last.kill worker).signal (.worker worker)).pending
        rw [raised]
        exact Nat.le_min.mpr ⟨Nat.le_succ_of_le before, room⟩
    | _ => cases about
  · refine .inr ?_
    rw [(command.moves serves.lined).1.elsewhere about]
    refine Command.pending_apply about ?_ room before
    rintro rfl
    exact allowed rfl

theorem apply (few : items.length ≤ Signal.ceiling) (allowed : command.Serves worker items) :
    first.Serves worker items (command.apply last).2 := by
  obtain ⟨moves, lined⟩ := command.moves serves.lined
  have onward := (Continues.refl last).apply command
  refine ⟨lined, serves.continues.trans onward, moves.within allowed serves.items, ?_,
    serves.enough_apply few allowed⟩
  rw [serves.continues.since_trans onward, List.mem_append, Command.mem_since_killed, ← serves.killed]
  exact Command.killed_apply allowed.keeps

theorem note {occurrence : Occurrence} (aside : occurrence.IsAside) :
    first.Serves worker items (last.record occurrence) := by
  have onward := (Continues.refl last).record occurrence
  obtain ⟨lined, continues, items, killed, enough⟩ := serves
  refine ⟨lined, continues.trans onward, items, ?_, ?_⟩
  all_goals rw [continues.since_trans onward]
  · rw [last.since_record, List.mem_append, or_iff_right]
    · exact killed
    · intro member
      cases List.mem_singleton.mp member
      exact aside
  · exact enough.imp_left fun stopped => stopped.append _

omit serves in
theorem of_fresh (fresh : first.IsFresh worker) (lined : first.Lined) :
    first.Serves worker items first := by
  have since : first.since first = [] := since_eq rfl
  refine ⟨lined, .refl first, ?_, ?_, .inr ?_⟩
  · rw [fresh.empty]
    exact List.nil_subset _
  · rw [fresh.running, since]
    exact iff_of_false Bool.false_ne_true List.not_mem_nil
  · rw [fresh.empty]
    exact Nat.zero_le _

theorem reaches (few : items.length ≤ Signal.ceiling)
    (run : Reaches (TimedWaits.serves worker items) last next) : first.Serves worker items next :=
  run.preserves_apply (motive := fun system => first.Serves worker items system) serves
    (fun _ _ _ => trivial) (fun kept allowed => kept.apply few allowed) fun kept aside => kept.note aside

end Serves

end System

end TimedWaits
