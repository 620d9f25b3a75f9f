import TimedWaits.Proofs.Runs.Surroundings

/-! What an activity asks for: what holds whenever it does, and runs in which whatever it asks for is
granted. An activity that looks first is the same as what it is once it has looked. -/

set_option autoImplicit false

namespace TimedWaits

open Activity

namespace Activity

variable {σ α β γ : Type} {environment : Environment σ} {conduct : Conduct} {activity : Activity α}
  {world : World σ} {commands : Command → Prop} {requests : Request → Prop}

theorem bind_assoc (activity : Activity α) (next : α → Activity β) (last : β → Activity γ) :
    (activity >>= next) >>= last = activity >>= fun value => next value >>= last := by
  change (activity.bind next).bind last = activity.bind fun value => (next value).bind last
  induction activity with
  | done | fail => rfl
  | look _ ih => exact congrArg Activity.look (funext ih)
  | act command _ ih => exact congrArg (Activity.act command) (funext ih)
  | ask request _ ih => exact congrArg (Activity.ask request) (funext ih)

theorem run_discard (environment : Environment σ) (activity : Activity α) (world : World σ) :
    (Functor.discard activity).run environment world =
      ((activity.run environment world).1.map fun _ => (), (activity.run environment world).2) := by
  change (activity >>= fun _ => Activity.done ()).run environment world = _
  rw [run_bind]
  cases activity.run environment world with
  | mk outcome ran => cases outcome <;> rfl

/-- What an activity is once it has looked at the system that it begins in. -/
def upon (system : System) : Activity α → Activity α
  | .look next => (next system).upon system
  | activity => activity

theorem upon_read {β : Type} (system : System) (view : System → α) (next : α → Activity β) :
    (read view >>= next).upon system = (next (view system)).upon system := rfl

section Upon

variable (activity : Activity α) (world : World σ)

theorem run_upon (environment : Environment σ) :
    (activity.upon world.system).run environment world = activity.run environment world := by
  induction activity with
  | look _ ih => exact ih _
  | _ => rfl

theorem meanwhile_upon : (activity.upon world.system).Meanwhile conduct environment world ↔
    activity.Meanwhile conduct environment world := by
  induction activity with
  | look _ ih => exact ih _
  | _ => rfl

theorem asks_upon {condition : Request → System → Prop} :
    (activity.upon world.system).Asks condition environment world ↔
      activity.Asks condition environment world := by
  induction activity with
  | look _ ih => exact ih _
  | _ => rfl

theorem occurrences_upon (author : Author) :
    (activity.upon world.system).occurrences author environment world =
      activity.occurrences author environment world := by
  induction activity with
  | look _ ih => exact ih _
  | _ => rfl

end Upon

theorem Uses.ensuring {command : Command} (uses : activity.Uses commands requests)
    (allowed : commands command) : (activity.ensuring command).Uses commands requests := by
  induction uses with
  | done value => exact .act allowed fun _ => .done value
  | fail failure => exact .act allowed fun _ => .fail failure
  | look _ ih => exact .look ih
  | act own _ ih => exact .act own ih
  | ask own _ ih => exact .ask own ih

/-- What the commands and the requests of an activity keep, and everything that others do meanwhile,
holds whenever it asks for something. -/
theorem Uses.asks_kept {motive : System → Prop} {condition : Request → System → Prop}
    (uses : activity.Uses commands requests) (asks : activity.Asks condition environment world)
    (meanwhile : activity.Meanwhile conduct environment world) (start : motive world.system)
    (applies : ∀ {system : System} {command : Command}, motive system → commands command →
      motive (command.apply system).2)
    (begins : ∀ {system : System} {request : Request}, motive system → requests request →
      motive (request.begin system))
    (others : ∀ {first last : System}, motive first → Reaches conduct first last → motive last) :
    activity.Asks (fun request now => condition request now ∧ motive now) environment world := by
  induction uses generalizing world with
  | done | fail => trivial
  | look _ ih => exact ih _ asks meanwhile start
  | act allowed _ ih => exact ih _ asks meanwhile (applies start allowed)
  | ask allowed _ ih =>
      exact ⟨⟨asks.1, start⟩, ih _ asks.2 meanwhile.2 (others (begins start allowed) meanwhile.1)⟩

/-- Whatever a run of an activity asks for is granted. -/
def Granted (environment : Environment σ) : Activity α → World σ → Prop
  | .done _, _ => True
  | .fail _, _ => True
  | .look next, world => (next world.system).Granted environment world
  | .act command next, world =>
      (next (world.apply command).1).Granted environment (world.apply command).2
  | .ask request next, world =>
      (environment request world).1 = .ok () ∧
        (next (environment request world).1).Granted environment (environment request world).2

theorem granted_bind {next : α → Activity β} :
    (activity >>= next).Granted environment world ↔
      activity.Granted environment world ∧
        ∀ value ran, activity.run environment world = (.ok value, ran) →
          (next value).Granted environment ran := by
  change (activity.bind next).Granted environment world ↔ _
  induction activity generalizing world with
  | done value =>
      constructor
      · intro granted
        refine ⟨trivial, fun other ran same => ?_⟩
        cases same
        exact granted
      · exact fun granted => granted.2 value world rfl
  | fail failure => exact ⟨fun _ => ⟨trivial, fun _ _ same => nomatch same⟩, fun _ => trivial⟩
  | look _ ih => exact ih _
  | act _ _ ih => exact ih _
  | ask _ _ ih => exact (and_congr_right fun _ => ih _).trans and_assoc.symm

theorem granted_ensuring {command : Command} :
    (activity.ensuring command).Granted environment world ↔ activity.Granted environment world := by
  induction activity generalizing world with
  | done | fail => exact Iff.rfl
  | look _ ih => exact ih _
  | act _ _ ih => exact ih _
  | ask _ _ ih => exact and_congr_right fun _ => ih _

theorem granted_upon (activity : Activity α) (world : World σ) :
    (activity.upon world.system).Granted environment world ↔ activity.Granted environment world := by
  induction activity with
  | look _ ih => exact ih _
  | _ => rfl

/-- Whoever always grants what is asked for does so during any activity. -/
theorem Granted.of_answers
    (answers : ∀ request (world : World σ), (environment request world).1 = .ok ()) :
    activity.Granted environment world := by
  induction activity generalizing world with
  | done | fail => trivial
  | look _ ih => exact ih _
  | act _ _ ih => exact ih _
  | ask request _ ih => exact ⟨answers request world, ih _⟩

theorem Granted.run_request {request : Request}
    (granted : (Activity.request request).Granted environment world) :
    (Activity.request request).run environment world = (.ok (), (environment request world).2) :=
  (Activity.run_request _ _).trans (Prod.ext granted.1 rfl)

end Activity

namespace SignalRef

variable {σ : Type} {environment : Environment σ} {world : World σ} {signal : SignalRef} {bound more : Nat}

theorem awaitPost_succ (signal : SignalRef) (bound : Nat) :
    signal.awaitPost (bound + 1) = .look fun system =>
      if (system.signal signal).pending = 0 then .request (.idle signal) >>= fun _ => signal.awaitPost bound
      else .done () := rfl

theorem awaitPost_run_of_post (posted : (world.system.signal signal).pending ≠ 0) (bound : Nat) :
    (signal.awaitPost (bound + 1)).run environment world = (.ok (), world) := by
  rw [awaitPost_succ, run, if_neg posted]
  rfl

/-- A wait for a post that is left off where there is one comes to its end there with any larger bound. -/
theorem awaitPost_more (granted : (signal.awaitPost bound).Granted environment world)
    (posted : (((signal.awaitPost bound).run environment world).2.system.signal signal).pending ≠ 0)
    (longer : bound < more) :
    (signal.awaitPost more).run environment world =
      (.ok (), ((signal.awaitPost bound).run environment world).2) := by
  induction bound generalizing world more with
  | zero =>
      obtain ⟨more, rfl⟩ := Nat.exists_eq_succ_of_ne_zero (Nat.ne_of_gt longer)
      exact awaitPost_run_of_post posted more
  | succ bound ih =>
      obtain ⟨more, rfl⟩ := Nat.exists_eq_succ_of_ne_zero (Nat.ne_of_gt (Nat.zero_lt_of_lt longer))
      by_cases none : (world.system.signal signal).pending = 0
      · have blocks : ∀ rounds, (signal.awaitPost (rounds + 1)).run environment world =
            (Activity.request (.idle signal) >>= fun _ => signal.awaitPost rounds).run environment world :=
          fun rounds => by rw [awaitPost_succ, run, if_pos none]
        rw [awaitPost_succ, Granted, if_pos none] at granted
        obtain ⟨asked, onward⟩ := granted_bind.mp granted
        rw [blocks, run_bind, asked.run_request] at posted
        rw [blocks, blocks, run_bind, run_bind, asked.run_request]
        exact ih (onward () _ asked.run_request) posted (Nat.lt_of_succ_lt_succ longer)
      · rw [awaitPost_run_of_post none, awaitPost_run_of_post none]

end SignalRef

end TimedWaits
