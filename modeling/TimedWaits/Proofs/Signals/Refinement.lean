import TimedWaits.Proofs.Runs.Operations
import TimedWaits.Proofs.Selectors.Runs
import TimedWaits.Proofs.Signals.PostBoxes
import TimedWaits.Proofs.Signals.Tallies

/-! Signals are post boxes. Whatever back-end holds their waiters, operations on shared signals end as on
post boxes, call the same observers in the same order and leave the same counts and holders, also where an
observer goes on to use the signal that called it. -/

set_option autoImplicit false

namespace TimedWaits

open Activity

/-- A call of an observer of the surroundings. -/
def Occurrence.call? : Occurrence → Option Attachment
  | .observerCalled observer token => some { observer := .custom observer, token }
  | _ => none

/-- A signal has the count and the holder of a post box. -/
structure Signal.Shows (signal : Signal) (box : PostBox) : Prop where
  count : signal.pending = box.count
  holder : signal.attachment = box.holder

namespace Signal.Shows

variable {signal : Signal} {box : PostBox}

private theorem raise (shows : signal.Shows box) : signal.raise.Shows box.add := by
  have within := box.within
  rw [PostBox.add]
  split
  · next full =>
    refine ⟨?_, shows.holder⟩
    change min (signal.pending + 1) ceiling = box.count
    rw [shows.count]
    omega
  · next room =>
    refine ⟨?_, shows.holder⟩
    change min (signal.pending + 1) ceiling = box.count + 1
    rw [shows.count]
    omega

private theorem remove (shows : signal.Shows box) :
    Signal.Shows { signal with pending := signal.pending - 1 } box.remove :=
  ⟨congrArg (· - 1) shows.count, shows.holder⟩

end Signal.Shows

namespace System

variable {first middle last system : System} {boxes : PostBoxes} {signal : Nat}

/-- The shared signals are as post boxes. -/
def Shows (system : System) (boxes : PostBoxes) : Prop :=
  ∀ index, (system.signal (.shared index)).Shows (boxes index)

theorem Shows.set (shows : system.Shows boxes) {fresh : Signal} {box : PostBox} (same : fresh.Shows box) :
    (system.setSignal (.shared signal) fresh).Shows (boxes.set signal box) := by
  intro index
  rw [signal_setSignal, PostBoxes.set, Function.update_apply]
  by_cases here : index = signal
  · subst here
    rw [if_pos rfl, if_pos rfl]
    exact same
  · rw [if_neg here, if_neg (by simpa using here)]
    exact shows index

theorem Shows.keep (shows : system.Shows boxes) (signal : Nat) :
    system.Shows (boxes.set signal (boxes signal)) := by
  rw [PostBoxes.set, Function.update_eq_self]
  exact shows

theorem Shows.raise (shows : system.Shows boxes) (signal : Nat) :
    (system.raise (.shared signal)).Shows (boxes.set signal (boxes signal).add) :=
  shows.set (shows signal).raise

theorem Shows.take (shows : system.Shows boxes) (some : (boxes signal).count ≠ 0) :
    ∃ taken, system.take (.shared signal) = (true, taken) ∧
      taken.Shows (boxes.set signal (boxes signal).remove) := by
  have accepted : (system.signal (.shared signal)).take? =
      Option.some { system.signal (.shared signal) with
        pending := (system.signal (.shared signal)).pending - 1 } :=
    if_neg ((shows signal).count ▸ some)
  refine ⟨_, by rw [System.take, accepted], ?_⟩
  exact shows.set (shows signal).remove

private theorem Shows.take_none (shows : system.Shows boxes) (none : (boxes signal).count = 0) :
    system.take (.shared signal) = (false, system) := by
  have refused : (system.signal (.shared signal)).take? = Option.none :=
    if_pos ((shows signal).count.trans none)
  rw [System.take, refused]

private theorem Shows.markReady (shows : system.Shows boxes) (selector token : Nat) :
    (system.markReady selector token).Shows boxes := by
  intro index
  rw [signal_markReady]
  exact shows index

/-- The observers of the surroundings that were called since an earlier moment, in the order of time. -/
def callsSince (last first : System) : List Attachment :=
  ((last.since first).filterMap Occurrence.call?).reverse

theorem Continues.callsSince_trans (before : middle.Continues first) (after : last.Continues middle) :
    last.callsSince first = middle.callsSince first ++ last.callsSince middle := by
  rw [callsSince, before.since_trans after, List.filterMap_append, List.reverse_append]
  rfl

/-- A later moment, with no call of an observer of the surroundings in between. -/
structure Quiet (first last : System) : Prop where
  continues : last.Continues first
  silent : last.callsSince first = []

theorem Quiet.refl (system : System) : Quiet system system := by
  have none : system.since system = [] := since_eq rfl
  exact ⟨.refl system, by rw [callsSince, none]; rfl⟩

/-- No command calls an observer of the surroundings by itself. -/
theorem Quiet.apply (command : Command) (system : System) : Quiet system (command.apply system).2 := by
  refine ⟨(Continues.refl system).apply command, ?_⟩
  have none : ((command.apply system).2.since system).countP (·.call?.isSome) = 0 := by
    refine command.countP_since (fun occurrence notes => ?_) (fun _ => rfl) (fun _ _ => rfl) system
    cases occurrence with
    | observerCalled => exact notes.elim
    | _ => rfl
  rw [List.countP_eq_zero] at none
  rw [callsSince, List.reverse_eq_nil_iff, List.filterMap_eq_nil_iff]
  exact fun occurrence noted => Option.not_isSome_iff_eq_none.mp (none occurrence noted)

theorem Quiet.trans (before : Quiet first middle) (after : Quiet middle last) : Quiet first last := by
  refine ⟨before.continues.trans after.continues, ?_⟩
  rw [before.continues.callsSince_trans after.continues, before.silent, after.silent]
  rfl

private theorem Quiet.record (quiet : Quiet first last) {occurrence : Occurrence}
    (silent : occurrence.call? = none) : Quiet first (last.record occurrence) := by
  have one : (last.record occurrence).callsSince last = [] := by
    rw [callsSince, since_record, List.filterMap_cons_none silent]
    rfl
  exact quiet.trans ⟨(Continues.refl last).record occurrence, one⟩

end System

/-! ### Single operations -/

section Operations

variable {σ : Type} {environment : Environment σ} {world : World σ} {boxes : PostBoxes} {signal : Nat}

/-- An operation on a shared signal goes on as a post box says: it ends with the same answer, or calls the
holder of the box and then ends, or has to wait. -/
def BoxTurn.Governs (turn : BoxTurn) (boxes : PostBoxes) (signal : Nat) (environment : Environment σ)
    (activity : Activity Answer) (world : World σ) : Prop :=
  match turn with
  | .ends answer box => ∃ kept, world.system.Quiet kept ∧ kept.Shows (boxes.set signal box) ∧
      activity.run environment world = (.ok answer, { world with system := kept })
  | .calls holder answer => ∃ kept, world.system.Quiet kept ∧ kept.Shows boxes ∧
      activity.run environment world =
        (holder.call >>= fun _ => .done answer).run environment { world with system := kept }
  | .blocks => True

theorem awaitPost_of_pending {reference : SignalRef} {bound : Nat}
    (some : (world.system.signal reference).pending ≠ 0) :
    (reference.awaitPost (bound + 1)).run environment world = (.ok (), world) := by
  change (if (world.system.signal reference).pending = 0 then
      Activity.request (.idle reference) >>= fun _ => reference.awaitPost bound
    else Activity.done ()).run environment world = _
  rw [if_neg some]
  rfl

/-- One round of a block: if there is no post to take, others act, and then the next round begins. -/
theorem awaitPost_round {reference : SignalRef} (none : (world.system.signal reference).pending = 0)
    (rounds : Nat) :
    (reference.awaitPost (rounds + 1)).run environment world =
      match environment (.idle reference) world with
      | (.ok (), answered) => (reference.awaitPost rounds).run environment answered
      | (.error failure, answered) => (.error failure, answered) := by
  change (if (world.system.signal reference).pending = 0 then
      Activity.request (.idle reference) >>= fun _ => reference.awaitPost rounds
    else Activity.done ()).run environment world = _
  rw [if_pos none, Activity.run_bind, Activity.run_request]
  cases environment (.idle reference) world with
  | mk outcome answered => cases outcome <;> rfl

/-- A wait whose block has ended takes a post. -/
theorem wait_run {bound : Nat} {later : World σ} {taken : System}
    (awaited : ((SignalRef.shared signal).awaitPost bound).run environment world = (.ok (), later))
    (took : later.system.take (.shared signal) = (true, taken)) :
    ((Action.wait signal).activity bound).run environment world =
      (.ok .nothing, { later with system := taken }) := by
  change (((SignalRef.shared signal).awaitPost bound >>= fun _ =>
    Functor.discard (Activity.perform (.take (.shared signal)))) >>= fun _ =>
      Activity.done Answer.nothing).run environment world = _
  have takes : (Functor.discard (Activity.perform (.take (.shared signal)))).run environment later =
      (.ok (), { later with system := (later.system.take (.shared signal)).2 }) := rfl
  rw [Activity.run_bind, Activity.run_bind, awaited]
  simp only [takes, took]
  rfl

/-- A wait whose block is cut short takes none. -/
private theorem wait_failed {bound : Nat} {later : World σ} {failure : Failure}
    (awaited : ((SignalRef.shared signal).awaitPost bound).run environment world =
      (.error failure, later)) :
    ((Action.wait signal).activity bound).run environment world = (.error failure, later) := by
  change (((SignalRef.shared signal).awaitPost bound >>= fun _ =>
    Functor.discard (Activity.perform (.take (.shared signal)))) >>= fun _ =>
      Activity.done Answer.nothing).run environment world = _
  rw [Activity.run_bind, Activity.run_bind, awaited]

theorem Action.run_post (bound : Nat) :
    ((Action.post signal).activity bound).run environment world =
      (Attachment.callAny (world.system.beginPost (.shared signal) none).1 >>= fun _ =>
        .done .nothing).run environment
          { world with system := (world.system.beginPost (.shared signal) none).2 } := rfl

theorem Action.activity_forward (signal bound : Nat) :
    (Action.forward signal).activity bound = .look fun system =>
      (system.signal (.shared signal)).attachment.elim (.done false)
        (fun attachment => attachment.call >>= fun _ => .done true) >>= fun value =>
          .done (.flag value) := by
  refine congrArg Activity.look (funext fun system => ?_)
  dsimp only [Activity.bind]
  cases (system.signal (.shared signal)).attachment <;> rfl

namespace PostBox

/-- Only a wait blocks. -/
private theorem perform_eq_blocks {box : PostBox} {operation : BoxOperation}
    (blocks : box.perform operation = .blocks) : operation = .wait := by
  cases operation with
  | wait => rfl
  | post | forward | take | attach | detach =>
      rw [perform] at blocks
      split at blocks <;> cases blocks
  | raise | isHeld => cases blocks

private theorem post_governs (shows : world.system.Shows boxes) (bound : Nat) :
    ((boxes signal).perform .post).Governs boxes signal environment ((Action.post signal).activity bound)
      world := by
  have holder := (shows signal).holder
  have quiet := System.Quiet.apply (.beginPost (.shared signal)) world.system
  have run : ((Action.post signal).activity bound).run environment world = _ := Action.run_post bound
  change world.system.Quiet (world.system.beginPost (.shared signal) none).2 at quiet
  rw [perform]
  cases held : (boxes signal).holder with
  | none =>
      rw [System.beginPost_of_none (holder.trans held)] at run quiet
      have posted : (world.system.record (.posted (.shared signal) none)).Shows boxes := shows
      exact ⟨_, quiet, posted.raise signal, run⟩
  | some attachment =>
      rw [System.beginPost_of_some (holder.trans held)] at run quiet
      exact ⟨_, quiet, shows, run⟩

private theorem forward_governs (shows : world.system.Shows boxes) (bound : Nat) :
    ((boxes signal).perform .forward).Governs boxes signal environment
      ((Action.forward signal).activity bound) world := by
  have holder := (shows signal).holder
  rw [perform, Action.activity_forward]
  cases held : (boxes signal).holder with
  | none =>
      refine ⟨world.system, .refl _, shows.keep signal, ?_⟩
      rw [Activity.run, holder, held]
      rfl
  | some attachment =>
      refine ⟨world.system, .refl _, shows, ?_⟩
      rw [Activity.run, holder, held, Option.elim_some]
      simp only [Activity.run_bind]
      cases attachment.call.run environment world with
      | mk outcome later => cases outcome <;> rfl

private theorem take_governs (shows : world.system.Shows boxes) (bound : Nat) :
    ((boxes signal).perform .take).Governs boxes signal environment ((Action.take signal).activity bound)
      world := by
  have quiet := System.Quiet.apply (.take (.shared signal)) world.system
  have run : ((Action.take signal).activity bound).run environment world =
      (.ok (.flag (world.system.take (.shared signal)).1),
        { world with system := (world.system.take (.shared signal)).2 }) := rfl
  change world.system.Quiet (world.system.take (.shared signal)).2 at quiet
  rw [perform]
  by_cases none : (boxes signal).count = 0
  · rw [shows.take_none none] at run
    rw [if_pos none]
    exact ⟨world.system, .refl _, shows.keep signal, run⟩
  · obtain ⟨taken, took, left⟩ := shows.take none
    rw [took] at quiet run
    rw [if_neg none]
    exact ⟨taken, quiet, left, run⟩

private theorem wait_governs (shows : world.system.Shows boxes) (bound : Nat) :
    ((boxes signal).perform .wait).Governs boxes signal environment
      ((Action.wait signal).activity (bound + 1)) world := by
  have quiet := System.Quiet.apply (.take (.shared signal)) world.system
  change world.system.Quiet (world.system.take (.shared signal)).2 at quiet
  rw [perform]
  by_cases none : (boxes signal).count = 0
  · rw [if_pos none]
    trivial
  · obtain ⟨taken, took, left⟩ := shows.take none
    rw [took] at quiet
    rw [if_neg none]
    refine ⟨taken, quiet, left, ?_⟩
    exact wait_run (awaitPost_of_pending ((shows signal).count ▸ none)) took

private theorem attach_governs (shows : world.system.Shows boxes) (observer : Observer)
    (token bound : Nat) :
    ((boxes signal).perform (.attach observer token)).Governs boxes signal environment
      ((Action.attach signal observer token).activity bound) world := by
  have holder := (shows signal).holder
  have quiet := System.Quiet.apply (.attach signal observer token) world.system
  have run : ((Action.attach signal observer token).activity bound).run environment world =
      (.ok (.ofExcept (world.system.attach signal observer token).1),
        { world with system := (world.system.attach signal observer token).2 }) := rfl
  change world.system.Quiet (world.system.attach signal observer token).2 at quiet
  rw [perform]
  cases held : (boxes signal).holder with
  | none =>
      have attached : (world.system.signal (.shared signal)).attach? observer token =
          some { world.system.signal (.shared signal) with attachment := some { observer, token } } := by
        rw [Signal.attach?, holder, held]
      rw [System.attach, attached] at run quiet
      exact ⟨_, quiet, shows.set ⟨(shows signal).count, rfl⟩, run⟩
  | some other =>
      have refused : (world.system.signal (.shared signal)).attach? observer token = none := by
        rw [Signal.attach?, holder, held]
      rw [System.attach, refused] at run quiet
      exact ⟨_, quiet, shows.keep signal, run⟩

private theorem detach_governs (shows : world.system.Shows boxes) (observer : Observer) (bound : Nat) :
    ((boxes signal).perform (.detach observer)).Governs boxes signal environment
      ((Action.detach signal observer).activity bound) world := by
  have holder := (shows signal).holder
  have quiet := System.Quiet.apply (.detach signal observer) world.system
  have run : ((Action.detach signal observer).activity bound).run environment world =
      (.ok (.flag (world.system.detach signal observer).1),
        { world with system := (world.system.detach signal observer).2 }) := rfl
  change world.system.Quiet (world.system.detach signal observer).2 at quiet
  rw [perform]
  cases held : (boxes signal).holder with
  | none =>
      have refused : (world.system.signal (.shared signal)).detach? observer = none := by
        rw [Signal.detach?, holder, held]
      have other : (boxes signal).isHeldBy observer = false := by rw [isHeldBy, held, Option.any_none]
      rw [System.detach, refused] at run quiet
      rw [other]
      exact ⟨_, quiet, shows.keep signal, run⟩
  | some attachment =>
      have mine : (boxes signal).isHeldBy observer = decide (attachment.observer = observer) := by
        rw [isHeldBy, held, Option.any_some]
      by_cases same : attachment.observer = observer
      · have detached : (world.system.signal (.shared signal)).detach? observer =
            some { world.system.signal (.shared signal) with attachment := none } := by
          rw [Signal.detach?, holder, held]
          exact if_pos same
        rw [System.detach, detached] at run quiet
        rw [mine, decide_eq_true same]
        exact ⟨_, quiet, shows.set ⟨(shows signal).count, rfl⟩, run⟩
      · have refused : (world.system.signal (.shared signal)).detach? observer = none := by
          rw [Signal.detach?, holder, held]
          exact if_neg same
        rw [System.detach, refused] at run quiet
        rw [mine, decide_eq_false same]
        exact ⟨_, quiet, shows.keep signal, run⟩

/-- Every operation goes on as the post box says. -/
private theorem governs {action : Action} {operation : BoxOperation}
    (named : action.boxOperation? = some (signal, operation)) (shows : world.system.Shows boxes)
    (bound : Nat) :
    ((boxes signal).perform operation).Governs boxes signal environment (action.activity (bound + 1))
      world := by
  cases action with
  | post =>
      cases named
      exact post_governs shows _
  | raise =>
      cases named
      have quiet := System.Quiet.apply (.raise (.shared signal)) world.system
      exact ⟨_, quiet, shows.raise signal, rfl⟩
  | take =>
      cases named
      exact take_governs shows _
  | wait =>
      cases named
      exact wait_governs shows _
  | forward =>
      cases named
      exact forward_governs shows _
  | attach =>
      cases named
      exact attach_governs shows _ _ _
  | detach =>
      cases named
      exact detach_governs shows _ _
  | hasObserver =>
      cases named
      refine ⟨world.system, .refl _, shows.keep signal, ?_⟩
      rw [← (shows signal).holder]
      rfl
  | _ => cases named

end PostBox

end Operations

/-! ### Operations inside one another -/

/-- Operations ended as a report says, with the signals as it says at each ending, and in between the
observers were called that it says. -/
structure BoxReport.Describes (report : BoxReport) (first : System) (endings : List Ending)
    (last : System) : Prop where
  endings : List.Forall₂ (fun ending (expected : Outcome × PostBoxes) =>
    ending.outcome = expected.1 ∧ ending.system.Shows expected.2) endings report.endings
  continues : last.Continues first
  calls : last.callsSince first = report.calls
  shows : last.Shows report.boxes

namespace BoxReport.Describes

variable {first middle last : System} {endings later : List Ending} {report : BoxReport}
  {boxes : PostBoxes}

theorem start (shows : first.Shows boxes) : ({ boxes } : BoxReport).Describes first [] first :=
  ⟨.nil, .refl first, (System.Quiet.refl first).silent, shows⟩

theorem andThen {onward : BoxReport} (describes : report.Describes first endings middle)
    (after : onward.Describes middle later last) :
    (report.andThen onward).Describes first (endings ++ later) last where
  endings := List.rel_append describes.endings after.endings
  continues := describes.continues.trans after.continues
  calls := by
    rw [describes.continues.callsSince_trans after.continues, describes.calls, after.calls]
    rfl
  shows := after.shows

theorem after (describes : report.Describes middle endings last) (quiet : first.Quiet middle) :
    report.Describes first endings last where
  endings := describes.endings
  continues := quiet.continues.trans describes.continues
  calls := by
    rw [quiet.continues.callsSince_trans describes.continues, quiet.silent, describes.calls]
    rfl
  shows := describes.shows

private theorem close (describes : report.Describes first endings middle) (quiet : middle.Quiet last)
    (shows : last.Shows boxes) (outcome : Outcome) :
    (report.close outcome boxes).Describes first (endings ++ [{ outcome, system := last }]) last where
  endings := List.rel_append describes.endings (.cons ⟨rfl, shows⟩ .nil)
  continues := describes.continues.trans quiet.continues
  calls := by
    rw [describes.continues.callsSince_trans quiet.continues, quiet.silent, List.append_nil]
    exact describes.calls
  shows := shows

/-- The call of an observer of the surroundings comes before what it does. -/
private theorem call {observer token : Nat}
    (describes : report.Describes ((Request.observe observer token).begin first) endings last) :
    ({ report with calls := { observer := .custom observer, token } :: report.calls }).Describes first
      endings last where
  endings := describes.endings
  continues := ((System.Continues.refl first).record _).trans describes.continues
  calls := by
    have begun := (System.Continues.refl first).record (.observerCalled observer token)
    have called : (first.record (.observerCalled observer token)).callsSince first =
        [{ observer := .custom observer, token }] := by
      rw [System.callsSince, System.since_record]
      rfl
    have rest := describes.calls
    change last.callsSince (first.record (.observerCalled observer token)) = _ at rest
    rw [begun.callsSince_trans describes.continues, called, rest]
    rfl
  shows := describes.shows

end BoxReport.Describes

/-- Operations run on signals as on post boxes. -/
def Script.Refines (bound : Nat) (script : Script) : Prop :=
  ∀ (system : System) (boxes : PostBoxes), system.Shows boxes →
    (script.onBoxes boxes).Describes system (script.run bound system).1 (script.run bound system).2

namespace Interludes

def length : Interludes → Nat
  | .none => 0
  | .next _ _ rest => rest.length + 1

def Refine (bound : Nat) : Interludes → Prop
  | .none => True
  | .next script _ rest => script.Refines bound ∧ rest.Refine bound

end Interludes

mutual

/-- No block inside a script has to go through more rounds than a bound allows. -/
def Script.Fits (bound : Nat) : Script → Prop
  | .done => True
  | .call _ inside rest => inside.length < bound ∧ inside.Fits bound ∧ rest.Fits bound

def Interludes.Fits (bound : Nat) : Interludes → Prop
  | .none => True
  | .next script _ rest => script.Fits bound ∧ rest.Fits bound

end

mutual

theorem Script.fits (script : Script) : ∃ enough, ∀ bound ≥ enough, script.Fits bound := by
  cases script with
  | done => exact ⟨0, fun _ _ => trivial⟩
  | call action inside rest =>
      obtain ⟨within, fitsWithin⟩ := inside.fits
      obtain ⟨later, fitsLater⟩ := rest.fits
      refine ⟨max (inside.length + 1) (max within later), fun bound enough => ?_⟩
      exact ⟨by omega, fitsWithin bound (by omega), fitsLater bound (by omega)⟩

theorem Interludes.fits (inside : Interludes) : ∃ enough, ∀ bound ≥ enough, inside.Fits bound := by
  cases inside with
  | none => exact ⟨0, fun _ _ => trivial⟩
  | next script answer rest =>
      obtain ⟨first, fitsFirst⟩ := script.fits
      obtain ⟨later, fitsLater⟩ := rest.fits
      refine ⟨max first later, fun bound enough => ?_⟩
      exact ⟨fitsFirst bound (by omega), fitsLater bound (by omega)⟩

end

namespace Interludes

variable {bound signal : Nat} {inside : Interludes} {world : World Prompter} {boxes : PostBoxes}

private theorem Refine.react (refines : inside.Refine bound) (shows : world.system.Shows boxes)
    (cues : world.outside.cues = inside.cues bound) (observer token : Nat) :
    let answer := Prompter.environment (.observe observer token) world
    answer.1 = (inside.react boxes).1 ∧
      ∃ endings, answer.2.outside.endings = world.outside.endings ++ endings ∧
        (inside.react boxes).2.Describes ((Request.observe observer token).begin world.system) endings
          answer.2.system := by
  obtain ⟨system, pending, former⟩ := world
  have begun : ((Request.observe observer token).begin system).Shows boxes := shows
  cases cues
  cases inside with
  | none => exact ⟨rfl, [], (List.append_nil _).symm, .start begun⟩
  | next script answer rest => exact ⟨rfl, _, rfl, refines.1 _ boxes begun⟩

/-- A block ends as on a post box. -/
private theorem Refine.supply (signal : Nat) {inside : Interludes} (refines : inside.Refine bound)
    {world : World Prompter} {boxes : PostBoxes} (shows : world.system.Shows boxes)
    (cues : world.outside.cues = inside.cues bound) {rounds : Nat} (enough : inside.length < rounds) :
    let awaited := ((SignalRef.shared signal).awaitPost rounds).run Prompter.environment world
    awaited.1 = (inside.supply signal boxes).1 ∧
      ∃ endings, awaited.2.outside.endings = world.outside.endings ++ endings ∧
        (inside.supply signal boxes).2.Describes world.system endings awaited.2.system := by
  obtain ⟨system, pending, former⟩ := world
  cases cues
  cases rounds with
  | zero => exact absurd enough (Nat.not_lt_zero _)
  | succ rounds =>
      have count := (shows signal).count
      have begun : (system.record (.blocked (.shared signal))).Shows boxes := shows
      have quiet : system.Quiet (system.record (.blocked (.shared signal))) :=
        (System.Quiet.refl system).record rfl
      by_cases none : (boxes signal).count = 0
      · cases inside with
        | none =>
            rw [awaitPost_round (count.trans none), Interludes.supply, if_pos none]
            exact ⟨rfl, [], (List.append_nil _).symm, (BoxReport.Describes.start begun).after quiet⟩
        | next script answer rest =>
            obtain ⟨first, others⟩ := refines
            have acted := (first _ boxes begun).after quiet
            rw [awaitPost_round (count.trans none), Interludes.supply, if_pos none]
            cases answer with
            | error failure => exact ⟨rfl, _, rfl, acted⟩
            | ok value =>
                cases value
                let ran := script.run bound (system.record (.blocked (.shared signal)))
                let onward : World Prompter :=
                  { system := ran.2, outside := { cues := rest.cues bound, endings := former ++ ran.1 } }
                obtain ⟨same, later, added, described⟩ :=
                  others.supply signal (show onward.system.Shows _ from acted.shows) rfl
                    (Nat.lt_of_succ_lt_succ enough)
                refine ⟨same, ran.1 ++ later, ?_, ?_⟩
                · rw [← List.append_assoc]
                  exact added
                · exact acted.andThen described
      · have awaited : ((SignalRef.shared signal).awaitPost (rounds + 1)).run Prompter.environment
            { system, outside := { cues := inside.cues bound, endings := former } } = (.ok (), _) :=
          awaitPost_of_pending (count.symm ▸ none)
        have supplied : inside.supply signal boxes = (.ok (), { boxes }) := by
          cases inside with
          | none => rw [Interludes.supply, if_neg none]
          | next => rw [Interludes.supply, if_neg none]
        rw [awaited, supplied]
        exact ⟨rfl, [], (List.append_nil _).symm, .start shows⟩

/-- A call of a single operation runs as on a post box, with what goes on inside it. -/
private theorem Refine.call {action : Action} {operation : BoxOperation}
    (named : action.boxOperation? = some (signal, operation)) (refines : inside.Refine bound)
    (enough : inside.length < bound) {system : System} (shows : system.Shows boxes) :
    let world : World Prompter := { system, outside := { cues := inside.cues bound } }
    let ended := (action.activity bound).run Prompter.environment world
    (boxes.call signal operation (inside.react boxes) (inside.supply signal boxes)).Describes system
      (ended.2.outside.endings ++ [{ outcome := ended.1, system := ended.2.system }]) ended.2.system := by
  intro world ended
  cases bound with
  | zero => exact absurd enough (Nat.not_lt_zero _)
  | succ rounds =>
      have governed : ((boxes signal).perform operation).Governs boxes signal Prompter.environment
          (action.activity (rounds + 1)) world := PostBox.governs named shows rounds
      cases turn : (boxes signal).perform operation with
      | ends answer box =>
          rw [turn] at governed
          obtain ⟨kept, quiet, left, run⟩ := governed
          simp only [PostBoxes.call, turn, ended, run]
          exact (BoxReport.Describes.start shows).close quiet left _
      | calls holder answer =>
          rw [turn] at governed
          obtain ⟨kept, quiet, left, run⟩ := governed
          obtain ⟨observer, token⟩ := holder
          cases observer with
          | selector index =>
              have called : (action.activity (rounds + 1)).run Prompter.environment world =
                  (.ok answer, { world with system := kept.markReady index token }) := run
              simp only [PostBoxes.call, turn, ended, called]
              have marked := System.Quiet.apply (.markReady index token) kept
              exact (BoxReport.Describes.start shows).close (quiet.trans marked) (left.markReady index token) _
          | custom index =>
              let asked : World Prompter := { world with system := kept }
              have asking : asked.system.Shows boxes := left
              obtain ⟨reply, endings, added, described⟩ := refines.react asking rfl index token
              have called : (action.activity (rounds + 1)).run Prompter.environment world =
                  ((Prompter.environment (.observe index token) asked).1.map fun _ => answer,
                    (Prompter.environment (.observe index token) asked).2) :=
                run.trans (Activity.run_request_bind (.observe index token) answer asked)
              simp only [PostBoxes.call, turn, ended, called, added, reply]
              exact (described.call.after quiet).close (.refl _) described.shows _
      | blocks =>
          obtain rfl := PostBox.perform_eq_blocks turn
          obtain rfl : action = .wait signal := by
            cases action <;> first | (cases named; rfl) | cases named
          have waiting : world.system.Shows boxes := shows
          obtain ⟨reply, endings, added, described⟩ := refines.supply signal waiting rfl enough
          cases awaited : ((SignalRef.shared signal).awaitPost (rounds + 1)).run Prompter.environment
              world with
          | mk outcome later =>
              rw [awaited] at reply added described
              cases supplied : inside.supply signal boxes with
              | mk expected report =>
                  rw [supplied] at reply described
                  cases reply
                  have listed : later.outside.endings = endings := added
                  have described : report.Describes system endings later.system := described
                  cases outcome with
                  | error failure =>
                      simp only [PostBoxes.call, turn, ended, wait_failed awaited, listed]
                      exact described.close (.refl _) described.shows _
                  | ok value =>
                      cases value
                      have some : (report.boxes signal).count ≠ 0 :=
                        (described.shows signal).count ▸ SignalRef.awaitPost_ok awaited
                      obtain ⟨taken, took, left⟩ := described.shows.take some
                      have quiet := System.Quiet.apply (.take (.shared signal)) later.system
                      change later.system.Quiet (later.system.take (.shared signal)).2 at quiet
                      rw [took] at quiet
                      simp only [PostBoxes.call, turn, ended, wait_run awaited took, listed]
                      exact described.close quiet left _

end Interludes

mutual

/-- Operations on signals run as on post boxes, inside one another as well. -/
theorem Script.All.refines {bound : Nat} {script : Script}
    (all : script.All fun action => action.boxOperation?.isSome) (fits : script.Fits bound) :
    script.Refines bound := by
  intro system boxes shows
  cases script with
  | done => exact .start shows
  | call action inside rest =>
      obtain ⟨named, within, later⟩ := all
      obtain ⟨enough, fitsWithin, fitsLater⟩ := fits
      obtain ⟨⟨signal, operation⟩, named⟩ := Option.isSome_iff_exists.mp named
      have called := (within.refine fitsWithin).call named enough shows
      have onward := later.refines fitsLater _ _ called.shows
      have both := called.andThen onward
      simp only [Script.onBoxes, named]
      rw [List.append_assoc] at both
      exact both

theorem Interludes.All.refine {bound : Nat} {inside : Interludes}
    (all : inside.All fun action => action.boxOperation?.isSome) (fits : inside.Fits bound) :
    inside.Refine bound := by
  cases inside with
  | none => trivial
  | next script answer rest => exact ⟨all.1.refines fits.1, Interludes.All.refine all.2 fits.2⟩

end

/-! ### Busy loops -/

/-- How a busy loop waits: it tries to take a post until it gets one. -/
def SignalRef.spin (signal : SignalRef) : Nat → Activity Unit
  | 0 => .fail .exhausted
  | bound + 1 => do
    if !(← .perform (.take signal)) then
      .request (.idle signal)
      signal.spin bound

/-- A busy loop ends as a block does that looks for a post first, whatever others do meanwhile. -/
private theorem SignalRef.spin_run {σ : Type} (environment : Environment σ) (signal : SignalRef)
    (bound : Nat)
    (world : World σ) :
    (signal.spin bound).run environment world = (signal.wait bound).run environment world := by
  induction bound generalizing world with
  | zero => rfl
  | succ bound ih =>
      have tries : (signal.spin (bound + 1)).run environment world =
          (if !(world.system.take signal).1 then
              Activity.request (.idle signal) >>= fun _ => signal.spin bound
            else Activity.done ()).run environment
            { world with system := (world.system.take signal).2 } := rfl
      rw [tries, SignalRef.wait, Activity.run_bind]
      rcases world.system.take_cases signal with ⟨none, refused⟩ | ⟨taken, took, fewer, -⟩
      · rw [refused, awaitPost_round none]
        change (Activity.request (.idle signal) >>= fun _ => signal.spin bound).run environment world = _
        rw [Activity.run_bind, Activity.run_request]
        cases environment (.idle signal) world with
        | mk outcome answered =>
            cases outcome with
            | error => rfl
            | ok => exact (ih answered).trans (by rw [SignalRef.wait, Activity.run_bind])
      · have some : (world.system.signal signal).pending ≠ 0 := fewer ▸ Nat.succ_ne_zero _
        rw [awaitPost_of_pending some]
        change _ = (Except.ok (), { world with system := (world.system.take signal).2 })
        rw [took]
        rfl

/-! ### Posts and their observer -/

section Posts

variable {σ : Type} {environment : Environment σ} {world : World σ} {signal observer token : Nat}

private theorem occurrences_observe (answer : Answer) :
    (Activity.request (.observe observer token) >>= fun _ => .done answer).occurrences .call environment
      world = [.observerCalled observer token] := by
  have called : (world.system.record (.observerCalled observer token)).since world.system =
      [.observerCalled observer token] := System.since_record _ _
  change _ ++ (world.system.record (.observerCalled observer token)).since world.system = _
  rw [called]
  cases (environment (.observe observer token) world).1 <;> rfl

variable (environment world signal token) in
/-- Whatever its observer does, a post of an observed signal calls it once, under its token, and raises
nothing by itself, and a forwarded call is all that it is. Without an observer a post raises the signal. -/
private theorem SignalRef.post_calls (bound : Nat) :
    let post := (Action.post signal).activity bound
    let forward := (Action.forward signal).activity bound
    let posted := world.system.record (.posted (.shared signal) none)
    (∀ observer, (world.system.signal (.shared signal)).attachment =
        some { observer := .custom observer, token } →
      post.occurrences .call environment world =
          [.observerCalled observer token, .posted (.shared signal) none] ∧
        forward.occurrences .call environment world = [.observerCalled observer token]) ∧
    (∀ selector, (world.system.signal (.shared signal)).attachment =
        some { observer := .selector selector, token } →
      post.run environment world =
          (.ok .nothing, { world with system := posted.markReady selector token }) ∧
        forward.run environment world =
          (.ok (.flag true), { world with system := world.system.markReady selector token })) ∧
    ((world.system.signal (.shared signal)).attachment = none →
      post.run environment world = (.ok .nothing, { world with system := posted.raise (.shared signal) }) ∧
        forward.run environment world = (.ok (.flag false), world)) := by
  intro post forward posted
  have forwarding : forward = _ := Action.activity_forward signal bound
  refine ⟨fun observer held => ?_, fun selector held => ?_, fun free => ?_⟩
  · have called : ((Attachment.call ⟨.custom observer, token⟩ >>= fun _ => Activity.done true) >>=
          fun value => Activity.done (Answer.flag value)) =
        Activity.request (.observe observer token) >>= fun _ => .done (.flag true) := by
      refine congrArg (Activity.ask _) (funext fun outcome => ?_)
      cases outcome <;> rfl
    constructor
    · change (Attachment.callAny (world.system.beginPost (.shared signal) none).1 >>= fun _ =>
          Activity.done Answer.nothing).occurrences .call environment
            { world with system := (world.system.beginPost (.shared signal) none).2 } ++
          (world.system.beginPost (.shared signal) none).2.since world.system = _
      rw [System.beginPost_of_some held, System.since_record]
      exact congrArg (· ++ _) (occurrences_observe .nothing)
    · rw [forwarding, Activity.occurrences, held, Option.elim_some, called]
      exact occurrences_observe _
  · constructor
    · rw [Action.run_post, System.beginPost_of_some held]
      rfl
    · rw [forwarding, Activity.run, held]
      rfl
  · constructor
    · rw [Action.run_post, System.beginPost_of_none free]
      rfl
    · rw [forwarding, Activity.run, free]
      rfl

end Posts

private theorem Setup.shows (setup : Setup) : setup.system.Shows fun _ => {} := by
  intro index
  obtain ⟨backend, made⟩ := setup.signal_eq (.shared index)
  rw [made]
  exact ⟨rfl, rfl⟩

/-- The signals of any system that comes about are post boxes. -/
private theorem System.Tallies.shows {system : System} (tallies : ∀ signal, system.Tallies signal) :
    ∃ boxes, system.Shows boxes :=
  ⟨fun index =>
    { count := system.pending index
      within := (tallies index).pending_le
      holder := (system.signal (.shared index)).attachment }, fun _ => ⟨rfl, rfl⟩⟩

theorem BoxReport.Describes.outcomes {report : BoxReport} {first last : System} {endings : List Ending}
    (describes : report.Describes first endings last) :
    endings.map (·.outcome) = report.endings.map (·.1) := by
  obtain ⟨agree, -, -, -⟩ := describes
  generalize report.endings = expected at agree ⊢
  induction agree with
  | nil => rfl
  | cons same _ ih => exact congrArg₂ List.cons same.1 ih

/-- Signals of both back-ends are post boxes. In any system that comes about, each signal has the count and
the holder of a box, and operations on signals, inside one another as well, end as on the boxes: with the
same answers in the same order, with the same observers called in the same order, and at each ending with
the same counts and holders, if the bound on the rounds of a block is large enough. So they end the same way
whichever back-ends the signals have. Apart from that, whatever happens, the count is what the raises and
takes make of it, with raises at the ceiling lost, and every take found a post. And whatever an observer
does when it is called, a post or a forwarded call calls the observer that is attached just once, under its
token, and raises nothing by itself, while a post without an observer raises the signal. Whether a waiter
blocks until there is a post and then takes it, or tries to take one in a busy loop, makes no difference. -/
theorem signals_are_post_boxes {setup : Setup} {system : System}
    (run : Reaches anything setup.system system) :
    (∃ boxes, system.Shows boxes) ∧
    (∀ script : Script, ∃ enough, ∀ bound ≥ enough, script.Fits bound) ∧
    (∀ boxes, system.Shows boxes → ∀ (script : Script) (bound : Nat),
      script.All (fun action => action.boxOperation?.isSome) → script.Fits bound →
      (script.onBoxes boxes).Describes system (script.run bound system).1 (script.run bound system).2 ∧
        ∀ other : System, other.Shows boxes →
          (script.run bound other).1.map (·.outcome) = (script.run bound system).1.map (·.outcome)) ∧
    (∀ signal, system.pending signal = Occurrence.tally signal system.history ∧
      ∀ earlier, .took (.shared signal) :: earlier <:+ system.history →
        Occurrence.tally signal earlier ≠ 0) ∧
    ∀ {σ : Type} (environment : Environment σ) (outside : σ) (signal token bound : Nat),
      let world : World σ := { system, outside }
      let post := (Action.post signal).activity bound
      let forward := (Action.forward signal).activity bound
      let posted := system.record (.posted (.shared signal) none)
      ((∀ observer, (system.signal (.shared signal)).attachment =
          some { observer := .custom observer, token } →
        post.occurrences .call environment world =
            [.observerCalled observer token, .posted (.shared signal) none] ∧
          forward.occurrences .call environment world = [.observerCalled observer token]) ∧
      (∀ selector, (system.signal (.shared signal)).attachment =
          some { observer := .selector selector, token } →
        post.run environment world =
            (.ok .nothing, { world with system := posted.markReady selector token }) ∧
          forward.run environment world =
            (.ok (.flag true), { world with system := system.markReady selector token })) ∧
      ((system.signal (.shared signal)).attachment = none →
        post.run environment world =
            (.ok .nothing, { world with system := posted.raise (.shared signal) }) ∧
          forward.run environment world = (.ok (.flag false), world))) ∧
      ((SignalRef.shared signal).spin bound).run environment world =
        ((SignalRef.shared signal).wait bound).run environment world := by
  have tallies : ∀ signal, system.Tallies signal := fun signal => (setup.tallies signal).reaches run
  refine ⟨System.Tallies.shows tallies, Script.fits, ?_,
    fun signal => ⟨(tallies signal).count, (tallies signal).takes⟩, ?_⟩
  · intro boxes shows script bound all fits
    have described := all.refines fits system boxes shows
    refine ⟨described, fun other alike => ?_⟩
    exact (all.refines fits other boxes alike).outcomes.trans described.outcomes.symm
  · intro σ environment outside signal token bound world post forward posted
    exact ⟨SignalRef.post_calls environment world signal token bound,
      SignalRef.spin_run environment _ bound world⟩

/-- The observer of a signal detaches itself and posts the signal again while it is called. It is called
once, and the one post to take is the one that it made itself, on a signal of either back-end. -/
theorem detached_observer_posts_again :
    let setup : Setup := { signals := [.host, .spin] }
    let script : Nat → Script := fun signal =>
      .call (.attach signal (.custom 0) 7) .none
        (.call (.post signal)
          (.next (.call (.detach signal (.custom 0)) .none (.call (.post signal) .none .done)) (.ok ()) .none)
          (.call (.take signal) .none (.call (.take signal) .none .done)))
    let expected : List Outcome :=
      [.ok .done, .ok (.flag true), .ok .nothing, .ok .nothing, .ok (.flag true), .ok (.flag false)]
    Reaches anything setup.system setup.system ∧
      ((script 0).run 9 setup.system).1.map (·.outcome) = expected ∧
      ((script 1).run 9 setup.system).1.map (·.outcome) = expected ∧
      ((script 1).run 9 setup.system).2.callsSince setup.system = [⟨.custom 0, 7⟩] ∧
      ((script 1).run 9 setup.system).2.pending 1 = 0 := by
  intro setup script expected
  have all : ∀ signal, (script signal).All fun action => action.boxOperation?.isSome :=
    fun _ => ⟨rfl, trivial, rfl, ⟨⟨rfl, trivial, rfl, trivial, trivial⟩, trivial⟩, rfl, trivial, rfl, trivial,
      trivial⟩
  have fits : ∀ signal, (script signal).Fits 9 := by
    intro signal
    simp [script, Script.Fits, Interludes.Fits, Interludes.length]
  obtain ⟨-, -, refines, -, -⟩ := signals_are_post_boxes (Reaches.refl setup.system)
  have described := fun signal =>
    (refines _ setup.shows (script signal) 9 (all signal) (fits signal)).1
  refine ⟨.refl _, (described 0).outcomes.trans rfl, (described 1).outcomes.trans rfl,
    (described 1).calls.trans rfl, ?_⟩
  exact ((described 1).shows 1).count.trans rfl

end TimedWaits
