import TimedWaits.Proofs.Runs.Moves

/-! Activities among others. Whenever an activity asks for something, others act before the answer
comes. What they may do is a conduct; what happens is told apart by who makes it happen. -/

set_option autoImplicit false

namespace TimedWaits

/-- Who makes something happen during a call: the call itself, or others. -/
inductive Author where
  | call
  | others

namespace Activity

variable {σ α β : Type} {environment : Environment σ} {conduct : Conduct} {activity : Activity α}
  {world : World σ}

/-- Whenever a run of an activity asks for something, others answer by strides of a conduct. -/
def Meanwhile (conduct : Conduct) (environment : Environment σ) : Activity α → World σ → Prop
  | .done _, _ => True
  | .fail _, _ => True
  | .look next, world => (next world.system).Meanwhile conduct environment world
  | .act command next, world =>
      (next (world.apply command).1).Meanwhile conduct environment (world.apply command).2
  | .ask request next, world =>
      Reaches conduct (request.begin world.system) (environment request world).2.system ∧
        (next (environment request world).1).Meanwhile conduct environment
          (environment request world).2

/-- Whenever a run of an activity asks for something, a condition holds of the request and of the system
at that moment. -/
def Asks (condition : Request → System → Prop) (environment : Environment σ) :
    Activity α → World σ → Prop
  | .done _, _ => True
  | .fail _, _ => True
  | .look next, world => (next world.system).Asks condition environment world
  | .act command next, world =>
      (next (world.apply command).1).Asks condition environment (world.apply command).2
  | .ask request next, world =>
      condition request world.system ∧
        (next (environment request world).1).Asks condition environment (environment request world).2

/-- What an author adds to the history in a run, the latest first. -/
def occurrences (author : Author) (environment : Environment σ) :
    Activity α → World σ → List Occurrence
  | .done _, _ => []
  | .fail _, _ => []
  | .look next, world => (next world.system).occurrences author environment world
  | .act command next, world =>
      (next (world.apply command).1).occurrences author environment (world.apply command).2 ++
        match author with
        | .call => (world.apply command).2.system.since world.system
        | .others => []
  | .ask request next, world =>
      (next (environment request world).1).occurrences author environment
          (environment request world).2 ++
        match author with
        | .call => (request.begin world.system).since world.system
        | .others => (environment request world).2.system.since (request.begin world.system)

theorem run_bind_ok {next : α → Activity β} {value : β} {after : World σ}
    (returned : (activity >>= next).run environment world = (.ok value, after)) :
    ∃ first ran, activity.run environment world = (.ok first, ran) ∧
      (next first).run environment ran = (.ok value, after) := by
  rw [run_bind] at returned
  cases ran : activity.run environment world with
  | mk outcome later =>
      rw [ran] at returned
      cases outcome with
      | ok first => exact ⟨first, later, rfl, returned⟩
      | error failure => cases returned

theorem run_request (wish : Request) (world : World σ) :
    (Activity.request wish).run environment world = environment wish world := by
  rw [request, run]
  cases answered : environment wish world with
  | mk outcome later => cases outcome <;> rfl

theorem run_request_bind (wish : Request) (value : α) (world : World σ) :
    (Activity.request wish >>= fun _ => .done value).run environment world =
      ((environment wish world).1.map fun _ => value, (environment wish world).2) := by
  rw [run_bind, run_request]
  cases environment wish world with
  | mk outcome later => cases outcome <;> rfl

theorem meanwhile_bind {next : α → Activity β} :
    (activity >>= next).Meanwhile conduct environment world ↔
      activity.Meanwhile conduct environment world ∧
        ∀ value ran, activity.run environment world = (.ok value, ran) →
          (next value).Meanwhile conduct environment ran := by
  change (activity.bind next).Meanwhile conduct environment world ↔ _
  induction activity generalizing world with
  | done value =>
      constructor
      · intro meanwhile
        refine ⟨trivial, fun other ran same => ?_⟩
        cases same
        exact meanwhile
      · intro meanwhile
        exact meanwhile.2 value world rfl
  | fail failure => exact ⟨fun _ => ⟨trivial, fun _ _ same => nomatch same⟩, fun _ => trivial⟩
  | look _ ih => exact ih _
  | act _ _ ih => exact ih _
  | ask _ _ ih => exact (and_congr_right fun _ => ih _).trans and_assoc.symm

theorem Asks.bind {condition : Request → System → Prop} {next : α → Activity β}
    (asks : activity.Asks condition environment world)
    (onward : ∀ value ran, activity.run environment world = (.ok value, ran) →
      (next value).Asks condition environment ran) :
    (activity >>= next).Asks condition environment world := by
  change (activity.bind next).Asks condition environment world
  induction activity generalizing world with
  | done value => exact onward value world rfl
  | fail failure => trivial
  | look _ ih => exact ih _ asks onward
  | act _ _ ih => exact ih _ asks onward
  | ask _ _ ih => exact ⟨asks.1, ih _ asks.2 onward⟩

theorem Asks.request {condition : Request → System → Prop} {wish : Request}
    (holds : condition wish world.system) :
    (Activity.request wish).Asks condition environment world := by
  refine ⟨holds, ?_⟩
  cases (environment wish world).1 with
  | ok | error => trivial

theorem Asks.both {condition other whole : Request → System → Prop}
    (asks : activity.Asks condition environment world) (also : activity.Asks other environment world)
    (both : ∀ request now, condition request now → other request now → whole request now) :
    activity.Asks whole environment world := by
  induction activity generalizing world with
  | done | fail => trivial
  | look _ ih => exact ih _ asks also
  | act _ _ ih => exact ih _ asks also
  | ask request _ ih => exact ⟨both request _ asks.1 also.1, ih _ asks.2 also.2⟩

theorem Asks.mono {condition other : Request → System → Prop}
    (asks : activity.Asks condition environment world)
    (weaker : ∀ request now, condition request now → other request now) :
    activity.Asks other environment world :=
  asks.both asks fun request now holds _ => weaker request now holds

theorem Asks.ensuring {condition : Request → System → Prop} {command : Command}
    (asks : activity.Asks condition environment world) :
    (activity.ensuring command).Asks condition environment world := by
  induction activity generalizing world with
  | done | fail => trivial
  | look _ ih => exact ih _ asks
  | act _ _ ih => exact ih _ asks
  | ask _ _ ih => exact ⟨asks.1, ih _ asks.2⟩

theorem occurrences_bind {author : Author} {next : α → Activity β} :
    (activity >>= next).occurrences author environment world =
      (match activity.run environment world with
        | (.ok value, ran) => (next value).occurrences author environment ran
        | (.error _, _) => []) ++
        activity.occurrences author environment world := by
  change (activity.bind next).occurrences author environment world = _
  induction activity generalizing world with
  | done value => exact (List.append_nil _).symm
  | fail failure => rfl
  | look _ ih => exact ih _
  | act _ _ ih => exact (congrArg (· ++ _) (ih _)).trans (List.append_assoc _ _ _)
  | ask _ _ ih => exact (congrArg (· ++ _) (ih _)).trans (List.append_assoc _ _ _)

theorem run_ensuring (activity : Activity α) (command : Command) (world : World σ) :
    (activity.ensuring command).run environment world =
      ((activity.run environment world).1,
        ((activity.run environment world).2.apply command).2) := by
  induction activity generalizing world with
  | done | fail => rfl
  | look _ ih => exact ih _ _
  | act _ _ ih => exact ih _ _
  | ask _ _ ih => exact ih _ _

theorem meanwhile_ensuring {command : Command} :
    (activity.ensuring command).Meanwhile conduct environment world ↔
      activity.Meanwhile conduct environment world := by
  induction activity generalizing world with
  | done | fail => exact Iff.rfl
  | look _ ih => exact ih _
  | act _ _ ih => exact ih _
  | ask _ _ ih => exact and_congr_right fun _ => ih _

theorem occurrences_ensuring {author : Author} {command : Command} :
    (activity.ensuring command).occurrences author environment world =
      (match author with
        | .call => ((activity.run environment world).2.apply command).2.system.since
            (activity.run environment world).2.system
        | .others => []) ++
        activity.occurrences author environment world := by
  induction activity generalizing world with
  | done | fail => exact (List.append_nil _).symm
  | look _ ih => exact ih _
  | act _ _ ih => exact (congrArg (· ++ _) (ih _)).trans (List.append_assoc _ _ _)
  | ask _ _ ih => exact (congrArg (· ++ _) (ih _)).trans (List.append_assoc _ _ _)

/-- Whoever always answers by strides of a conduct does so during any activity. -/
theorem Meanwhile.of_answers
    (answers : ∀ request (world : World σ),
      Reaches conduct (request.begin world.system) (environment request world).2.system) :
    activity.Meanwhile conduct environment world := by
  induction activity generalizing world with
  | done | fail => trivial
  | look _ ih => exact ih _
  | act _ _ ih => exact ih _
  | ask request _ ih => exact ⟨answers request world, ih _⟩

end Activity

theorem SignalRef.awaitPost_ok {σ : Type} {environment : Environment σ} {signal : SignalRef}
    {bound : Nat} {world after : World σ}
    (returned : (signal.awaitPost bound).run environment world = (.ok (), after)) :
    (after.system.signal signal).pending ≠ 0 := by
  induction bound generalizing world with
  | zero => cases returned
  | succ bound ih =>
      change (if (world.system.signal signal).pending = 0 then
          Activity.request (.idle signal) >>= fun _ => signal.awaitPost bound
        else Activity.done ()).run environment world = _ at returned
      split at returned
      · obtain ⟨_, _, -, onward⟩ := Activity.run_bind_ok returned
        exact ih onward
      · next some =>
        cases returned
        exact some

theorem SignalRef.awaitPost_asks {σ : Type} {environment : Environment σ} {world : World σ}
    (signal : SignalRef) (bound : Nat) :
    (signal.awaitPost bound).Asks
      (fun request now => request = .idle signal ∧ (now.signal signal).pending = 0) environment world := by
  induction bound generalizing world with
  | zero => trivial
  | succ bound ih =>
      change Activity.Asks _ _ (if (world.system.signal signal).pending = 0 then
        Activity.request (.idle signal) >>= fun _ => signal.awaitPost bound else .done ()) world
      split
      · next none => exact .bind (.request ⟨rfl, none⟩) fun _ _ _ => ih
      · trivial

private theorem World.apply_continues {σ : Type} (world : World σ) (command : Command) :
    (world.apply command).2.system.Continues world.system :=
  (System.Continues.refl world.system).apply command

namespace Activity.Meanwhile

variable {σ α : Type} {environment : Environment σ} {conduct : Conduct} {activity : Activity α}
  {world : World σ}

/-- What happens during a call is made to happen by the call or by others. -/
theorem countP_history (meanwhile : activity.Meanwhile conduct environment world)
    (counts : Occurrence → Bool) :
    (activity.run environment world).2.system.history.countP counts =
      world.system.history.countP counts +
        (activity.occurrences .call environment world).countP counts +
        (activity.occurrences .others environment world).countP counts := by
  have grown : ∀ {first last : System}, last.Continues first →
      last.history.countP counts = (last.since first).countP counts + first.history.countP counts :=
    fun continues => by rw [← continues.since_append, List.countP_append]
  induction activity generalizing world with
  | done | fail => rfl
  | look _ ih => exact ih _ meanwhile
  | act command _ ih =>
      have later := ih _ meanwhile
      have now := grown (world.apply_continues command)
      simp only [run, occurrences, List.countP_append, List.append_nil]
      omega
  | ask request _ ih =>
      have later := ih _ meanwhile.2
      have begun := grown ((System.Continues.refl world.system).begin request)
      have answered := grown meanwhile.1.continues
      simp only [run, occurrences, List.countP_append]
      omega

end Activity.Meanwhile

namespace Activity

variable {σ α β : Type} {environment : Environment σ} {conduct : Conduct} {activity : Activity α}
  {world : World σ} {commands : Command → Prop} {requests : Request → Prop}

/-- An activity that applies only some commands and makes only some requests, whatever it finds. -/
inductive Uses (commands : Command → Prop) (requests : Request → Prop) {α : Type} :
    Activity α → Prop where
  | done (value : α) : Uses commands requests (.done value)
  | fail (failure : Failure) : Uses commands requests (.fail failure)
  | look {next : System → Activity α} (onward : ∀ system, Uses commands requests (next system)) :
      Uses commands requests (.look next)
  | act {command : Command} {next : command.Reply → Activity α} (allowed : commands command)
      (onward : ∀ reply, Uses commands requests (next reply)) :
      Uses commands requests (.act command next)
  | ask {request : Request} {next : Except Failure Unit → Activity α} (allowed : requests request)
      (onward : ∀ outcome, Uses commands requests (next outcome)) :
      Uses commands requests (.ask request next)

namespace Uses

theorem bind {next : α → Activity β} (uses : Uses commands requests activity)
    (onward : ∀ value, Uses commands requests (next value)) :
    Uses commands requests (activity >>= next) := by
  change Uses commands requests (activity.bind next)
  induction uses with
  | done value => exact onward value
  | fail failure => exact .fail failure
  | look _ ih => exact .look ih
  | act allowed _ ih => exact .act allowed ih
  | ask allowed _ ih => exact .ask allowed ih

theorem mono {others : Command → Prop} (uses : Uses commands requests activity)
    (weaker : ∀ command, commands command → others command) : Uses others requests activity := by
  induction uses with
  | done value => exact .done value
  | fail failure => exact .fail failure
  | look _ ih => exact .look ih
  | act allowed _ ih => exact .act (weaker _ allowed) ih
  | ask allowed _ ih => exact .ask allowed ih

theorem weaken {others : Request → Prop} (uses : Uses commands requests activity)
    (weaker : ∀ request, requests request → others request) : Uses commands others activity := by
  induction uses with
  | done value => exact .done value
  | fail failure => exact .fail failure
  | look _ ih => exact .look ih
  | act allowed _ ih => exact .act allowed ih
  | ask allowed _ ih => exact .ask (weaker _ allowed) ih

theorem discard (uses : Uses commands requests activity) :
    Uses commands requests (Functor.discard activity) := uses.bind fun _ => .done ()

theorem perform {command : Command} (allowed : commands command) :
    Uses commands requests (.perform command) := .act allowed .done

theorem read (view : System → α) : Uses commands requests (.read view) := .look fun _ => .done _

theorem request {wish : Request} (allowed : requests wish) :
    Uses commands requests (.request wish) := by
  refine .ask allowed fun outcome => ?_
  cases outcome with
  | ok => exact .done ()
  | error failure => exact .fail failure

theorem halt (reason : String) (allowed : commands (.log (.halted reason))) :
    Uses commands requests (.halt reason : Activity α) := .act allowed fun _ => .fail _

theorem awaitPost (signal : SignalRef) (bound : Nat) (allowed : requests (.idle signal)) :
    Uses commands requests (signal.awaitPost bound) := by
  induction bound with
  | zero => exact .fail _
  | succ bound ih =>
      refine .bind (.read _) fun pending => ?_
      split
      · exact .bind (.request allowed) fun _ => ih
      · exact .done ()

theorem asks (uses : Uses commands requests activity) :
    activity.Asks (fun request _ => requests request) environment world := by
  induction uses generalizing world with
  | done | fail => trivial
  | look _ ih => exact ih _
  | act _ _ ih => exact ih _
  | ask allowed _ ih => exact ⟨allowed, ih _⟩

/-- What the commands and the requests of an activity keep, and everything that others do meanwhile,
holds when the activity ends. -/
theorem preserves {motive : System → Prop} (uses : Uses commands requests activity)
    (meanwhile : activity.Meanwhile conduct environment world) (start : motive world.system)
    (applies : ∀ {system : System} {command : Command}, motive system → commands command →
      motive (command.apply system).2)
    (begins : ∀ {system : System} {request : Request}, motive system → requests request →
      motive (request.begin system))
    (others : ∀ {first last : System}, motive first → Reaches conduct first last → motive last) :
    motive (activity.run environment world).2.system := by
  induction uses generalizing world with
  | done | fail => exact start
  | look _ ih => exact ih _ meanwhile start
  | act allowed _ ih => exact ih _ meanwhile (applies start allowed)
  | ask allowed _ ih => exact ih _ meanwhile.2 (others (begins start allowed) meanwhile.1)

theorem occurrences_call {counts : Occurrence → Bool} (uses : Uses commands requests activity)
    (applies : ∀ (system : System) {command : Command}, commands command →
      ((command.apply system).2.since system).countP counts = 0)
    (begins : ∀ (system : System) {request : Request}, requests request →
      ((request.begin system).since system).countP counts = 0) :
    (activity.occurrences .call environment world).countP counts = 0 := by
  induction uses generalizing world with
  | done | fail => rfl
  | look _ ih => exact ih _
  | act allowed _ ih =>
      rw [occurrences, List.countP_append, ih]
      exact (Nat.zero_add _).trans (applies world.system allowed)
  | ask allowed _ ih =>
      rw [occurrences, List.countP_append, ih]
      exact (Nat.zero_add _).trans (begins world.system allowed)

end Uses

/-! ### Activities that return -/

/-- An activity returns a value among others that keep to a conduct, and notes some occurrences on
its own part, the latest first. -/
structure Returns (conduct : Conduct) (environment : Environment σ) (activity : Activity α)
    (world : World σ) (value : α) (after : World σ) (noted : List Occurrence) : Prop where
  meanwhile : activity.Meanwhile conduct environment world
  run : activity.run environment world = (.ok value, after)
  noted : activity.occurrences .call environment world = noted

namespace Returns

variable {value : α} {result : β} {after : World σ} {noted : List Occurrence}

theorem bind {next : α → Activity β}
    (returns : Returns conduct environment (activity >>= next) world result after noted) :
    ∃ first middle before later,
      Returns conduct environment activity world first middle before ∧
        Returns conduct environment (next first) middle result after later ∧
        noted = later ++ before := by
  obtain ⟨meanwhile, run, same⟩ := returns
  obtain ⟨before, onward⟩ := meanwhile_bind.mp meanwhile
  rw [run_bind] at run
  rw [occurrences_bind] at same
  cases ran : activity.run environment world with
  | mk outcome middle =>
      rw [ran] at run same
      cases outcome with
      | error failure => cases run
      | ok first =>
          exact ⟨first, middle, _, _, ⟨before, ran, rfl⟩, ⟨onward first middle ran, run, rfl⟩,
            same.symm⟩

theorem look {next : System → Activity α}
    (returns : Returns conduct environment (.look next) world value after noted) :
    Returns conduct environment (next world.system) world value after noted :=
  ⟨returns.meanwhile, returns.run, returns.noted⟩

theorem act {command : Command} {next : command.Reply → Activity α}
    (returns : Returns conduct environment (.act command next) world value after noted) :
    ∃ later, Returns conduct environment (next (world.apply command).1) (world.apply command).2
        value after later ∧
      noted = later ++ (command.apply world.system).2.since world.system :=
  ⟨_, ⟨returns.meanwhile, returns.run, rfl⟩, returns.noted.symm⟩

theorem perform {command : Command} {reply : command.Reply}
    (returns : Returns conduct environment (.perform command) world reply after noted) :
    reply = (command.apply world.system).1 ∧
      after = { world with system := (command.apply world.system).2 } ∧
      noted = (command.apply world.system).2.since world.system := by
  obtain ⟨-, run, same⟩ := returns
  cases run
  exact ⟨rfl, rfl, same.symm⟩

theorem done {expected : α}
    (returns : Returns conduct environment (.done expected) world value after noted) :
    value = expected ∧ after = world ∧ noted = [] := by
  obtain ⟨-, run, same⟩ := returns
  cases run
  exact ⟨rfl, rfl, same.symm⟩

theorem discard {none : Unit}
    (returns : Returns conduct environment (Functor.discard activity) world none after noted) :
    ∃ value, Returns conduct environment activity world value after noted := by
  obtain ⟨value, middle, before, later, first, last, same⟩ :=
    bind (show Returns conduct environment (activity >>= fun _ => .done ()) _ _ _ _ from returns)
  obtain ⟨-, rfl, rfl⟩ := last.done
  exact ⟨value, same ▸ first⟩

theorem ensuring {command : Command}
    (returns : Returns conduct environment (activity.ensuring command) world value after noted) :
    ∃ middle before, Returns conduct environment activity world value middle before ∧
      after = { middle with system := (command.apply middle.system).2 } ∧
      noted = (command.apply middle.system).2.since middle.system ++ before := by
  obtain ⟨meanwhile, run, same⟩ := returns
  rw [run_ensuring] at run
  rw [occurrences_ensuring] at same
  obtain ⟨value, rfl⟩ := Prod.mk.inj run
  exact ⟨_, _, ⟨meanwhile_ensuring.mp meanwhile, Prod.ext value rfl, rfl⟩, rfl, same.symm⟩

end Returns

/-- An activity gives up among others that keep to a conduct, and notes some occurrences on its own part
before that. -/
structure GivesUp (conduct : Conduct) (environment : Environment σ) (activity : Activity α)
    (world : World σ) (failure : Failure) (noted : List Occurrence) : Prop where
  meanwhile : activity.Meanwhile conduct environment world
  run : (activity.run environment world).1 = .error failure
  noted : activity.occurrences .call environment world = noted

namespace GivesUp

variable {failure : Failure} {noted : List Occurrence}

theorem bind {next : α → Activity β}
    (stuck : GivesUp conduct environment (activity >>= next) world failure noted) :
    GivesUp conduct environment activity world failure noted ∨
      ∃ first middle before later,
        Returns conduct environment activity world first middle before ∧
          GivesUp conduct environment (next first) middle failure later ∧
          noted = later ++ before := by
  obtain ⟨meanwhile, run, same⟩ := stuck
  obtain ⟨before, onward⟩ := meanwhile_bind.mp meanwhile
  rw [run_bind] at run
  rw [occurrences_bind] at same
  cases ran : activity.run environment world with
  | mk outcome middle =>
      rw [ran] at run same
      cases outcome with
      | error first =>
          cases run
          exact .inl ⟨before, congrArg Prod.fst ran, same⟩
      | ok first =>
          exact .inr ⟨first, middle, _, _, ⟨before, ran, rfl⟩, ⟨onward first middle ran, run, rfl⟩,
            same.symm⟩

theorem ensuring {command : Command}
    (stuck : GivesUp conduct environment (activity.ensuring command) world failure noted) :
    ∃ middle before, GivesUp conduct environment activity world failure before ∧
      noted = (command.apply middle).2.since middle ++ before := by
  obtain ⟨meanwhile, run, same⟩ := stuck
  rw [run_ensuring] at run
  rw [occurrences_ensuring] at same
  exact ⟨_, _, ⟨meanwhile_ensuring.mp meanwhile, run, rfl⟩, same.symm⟩

end GivesUp

end Activity

end TimedWaits
