import TimedWaits.Proofs.Alarms.WaitBalance
import TimedWaits.Proofs.Signals.Tallies

/-! What a stretch of history does to the count of a signal. It takes no more posts than there were at its
beginning and were raised since, and if it takes none, a raise leaves a post to take. -/

set_option autoImplicit false

namespace TimedWaits

/-- Whatever is done takes no post of a shared signal. -/
def untaken (signal : Nat) : Conduct := fun _ command => command ≠ .take (.shared signal)

namespace Occurrence

variable {signal : Nat} {recent earlier : List Occurrence}

/-- Where every take finds a post, the count and the takes come to no more than what was there and the
raises. -/
private theorem tally_append_le
    (found : ∀ rest, .took (.shared signal) :: rest <:+ recent ++ earlier → tally signal rest ≠ 0) :
    tally signal (recent ++ earlier) + recent.countP (isTake (.shared signal)) ≤
      tally signal earlier + recent.countP (isRaise (.shared signal)) := by
  induction recent with
  | nil => exact Nat.le_refl _
  | cons occurrence recent ih =>
      have before := ih fun rest suffix => found rest (suffix.trans (List.suffix_cons _ _))
      rw [List.cons_append, tally, List.countP_cons, List.countP_cons]
      by_cases raise : occurrence.isRaise (.shared signal)
      · have other : occurrence.isTake (.shared signal) = false := by
          cases occurrence <;> first | rfl | cases raise
        rw [if_pos raise, raise, other]
        simp only [Bool.false_eq_true, if_false, if_true]
        omega
      · by_cases take : occurrence.isTake (.shared signal)
        · have took : occurrence = .took (.shared signal) := by
            cases occurrence with
            | took other => exact congrArg took (of_decide_eq_true take)
            | _ => cases take
          have some := found (recent ++ earlier) (took ▸ List.suffix_rfl)
          rw [if_neg raise, if_pos take, if_neg raise, if_pos take]
          omega
        · rw [if_neg raise, if_neg take, if_neg raise, if_neg take]
          exact before

/-- Without a take, a raise leaves a post to take. -/
private theorem tally_append_ne_zero (none : recent.countP (isTake (.shared signal)) = 0)
    (raised : .raised (.shared signal) ∈ recent) : tally signal (recent ++ earlier) ≠ 0 := by
  induction recent with
  | nil => cases raised
  | cons occurrence recent ih =>
      have untaken : ∀ other ∈ occurrence :: recent, ¬ other.isTake (.shared signal) :=
        List.countP_eq_zero.mp none
      rw [List.cons_append, tally]
      split
      · exact Nat.ne_of_gt (Nat.le_min.mpr ⟨Nat.succ_pos _, by decide⟩)
      · next quiet =>
        rw [if_neg (untaken occurrence List.mem_cons_self)]
        rcases List.mem_cons.mp raised with rfl | raised
        · exact absurd (decide_eq_true rfl) quiet
        · exact ih (List.countP_eq_zero.mpr fun other member =>
            untaken other (List.mem_cons_of_mem _ member)) raised

end Occurrence

namespace System

variable {signal : Nat} {start system last : System} {command : Command}

/-- What is taken of a signal was there or was raised since. -/
private theorem Tallies.pending_add_takes_le (after : system.Tallies signal) (before : start.Tallies signal)
    (continues : system.Continues start) :
    system.pending signal + (system.since start).countP (Occurrence.isTake (.shared signal)) ≤
      start.pending signal + (system.since start).countP (Occurrence.isRaise (.shared signal)) := by
  rw [after.count, before.count, ← continues.since_append]
  exact Occurrence.tally_append_le fun rest suffix => after.takes rest (continues.since_append ▸ suffix)

/-- The count of a signal of which no post was taken since an earlier moment. -/
structure Supplied (signal : Nat) (start system : System) : Prop where
  tallies : system.Tallies signal
  continues : system.Continues start
  takes : (system.since start).countP (Occurrence.isTake (.shared signal)) = 0

namespace Supplied

theorem refl (tallies : start.Tallies signal) : Supplied signal start start := by
  refine ⟨tallies, .refl start, ?_⟩
  rw [@since_eq start start [] rfl]
  rfl

theorem apply (supplied : Supplied signal start system) (other : command ≠ .take (.shared signal)) :
    Supplied signal start (command.apply system).2 := by
  have onward := (Continues.refl system).apply command
  refine ⟨supplied.tallies.apply command, supplied.continues.trans onward, ?_⟩
  rw [supplied.continues.since_trans onward, List.countP_append, supplied.takes]
  exact Alarms.takes_since signal command other system

theorem note (supplied : Supplied signal start system) {occurrence : Occurrence}
    (aside : occurrence.IsAside) : Supplied signal start (system.record occurrence) := by
  have untaking : occurrence.isTake (.shared signal) = false := by
    cases occurrence <;> first | rfl | exact aside.elim
  have onward := (Continues.refl system).record occurrence
  refine ⟨supplied.tallies.note_aside aside, supplied.continues.trans onward, ?_⟩
  rw [supplied.continues.since_trans onward, List.countP_append, supplied.takes, since_record,
    List.countP_singleton, untaking]
  rfl

theorem begin (supplied : Supplied signal start system) (request : Request) :
    Supplied signal start (request.begin system) := by
  cases request with
  | rearm log delay =>
      have noted : Supplied signal start (system.record (.rearmed log delay)) := supplied.note trivial
      exact @apply _ _ _ (.addRearm log delay) noted nofun
  | sleep clock delay =>
      have noted : Supplied signal start (system.record (.slept clock delay)) := supplied.note trivial
      exact @apply _ _ _ (.advance clock delay) noted nofun
  | observe | execute | idle => exact supplied.note trivial

theorem reaches (supplied : Supplied signal start system) (run : Reaches (untaken signal) system last) :
    Supplied signal start last :=
  run.preserves_apply (motive := Supplied signal start) supplied (fun _ _ _ => nofun)
    (fun kept allowed => kept.apply allowed) fun kept aside => kept.note aside

theorem pending_ne_zero (supplied : Supplied signal start system)
    (raised : .raised (.shared signal) ∈ system.since start) : system.pending signal ≠ 0 := by
  rw [supplied.tallies.count, ← supplied.continues.since_append]
  exact Occurrence.tally_append_ne_zero supplied.takes raised

end Supplied

end System

namespace Activity.Meanwhile

variable {σ α : Type} {environment : Environment σ} {conduct : Conduct} {activity : Activity α}
  {world : World σ} {signal : Nat}

/-- What every command keeps, and every note beside the commands, holds when an activity ends. -/
theorem preserves {motive : System → Prop} (meanwhile : activity.Meanwhile conduct environment world)
    (start : motive world.system)
    (applies : ∀ {system : System} (command : Command), motive system → motive (command.apply system).2)
    (notes : ∀ {system : System} {occurrence : Occurrence}, motive system → occurrence.IsAside →
      motive (system.record occurrence)) :
    motive (activity.run environment world).2.system := by
  induction activity generalizing world with
  | done | fail => exact start
  | look _ ih => exact ih _ meanwhile start
  | act command _ ih => exact ih _ meanwhile (applies command start)
  | ask request _ ih =>
      have begun : motive (request.begin world.system) := by
        cases request with
        | rearm log delay =>
            have noted : motive (world.system.record (.rearmed log delay)) := notes start trivial
            exact applies (.addRearm log delay) noted
        | sleep clock delay =>
            have noted : motive (world.system.record (.slept clock delay)) := notes start trivial
            exact applies (.advance clock delay) noted
        | observe | execute | idle => exact notes start trivial
      have answered := meanwhile.1.preserves begun
        (fun kept _ => System.stride_preserves (applies _ kept) fun index token called =>
          applies (.markReady index token) called)
        notes
      exact ih _ meanwhile.2 answered

theorem tallies (meanwhile : activity.Meanwhile conduct environment world)
    (tallies : world.system.Tallies signal) :
    (activity.run environment world).2.system.Tallies signal :=
  meanwhile.preserves (motive := System.Tallies signal) tallies (fun command kept => kept.apply command)
    fun kept aside => kept.note_aside aside

theorem continues (meanwhile : activity.Meanwhile conduct environment world) :
    (activity.run environment world).2.system.Continues world.system :=
  meanwhile.preserves (motive := fun system => system.Continues world.system) (.refl _)
    (fun command kept => kept.apply command) fun kept _ => kept.record _

/-- The posts of a signal that a call takes were there when it began or were raised since. -/
theorem takes_le (meanwhile : activity.Meanwhile conduct environment world)
    (tallies : world.system.Tallies signal) :
    let after := (activity.run environment world).2.system
    after.pending signal + (activity.occurrences .call environment world).countP
        (Occurrence.isTake (.shared signal)) ≤
      world.system.pending signal +
        (after.since world.system).countP (Occurrence.isRaise (.shared signal)) := by
  intro after
  have supply := (meanwhile.tallies tallies).pending_add_takes_le tallies meanwhile.continues
  have taken := meanwhile.countP_history (Occurrence.isTake (.shared signal))
  rw [Alarms.countP_since meanwhile.continues] at taken
  change after.pending signal + (after.since world.system).countP _ ≤
    _ + (after.since world.system).countP _ at supply
  change (after.since world.system).countP _ + _ = _ at taken
  omega

end Activity.Meanwhile

end TimedWaits
