import TimedWaits.Proofs.Rings.Calls
import TimedWaits.Proofs.Rings.Passes
import TimedWaits.Proofs.Selectors.Tables

/-! Elements that come with a post. As long as a ring has its signal and nothing observes that, whatever
puts elements into the ring raises the count of the signal. So a ring with elements leaves a wait a post
to wake up to, until that is taken. -/

set_option autoImplicit false

namespace TimedWaits

namespace Ring

variable {α : Type} {ring : Ring α}

private theorem fetch_of_isEmpty (empty : ring.isEmpty = true) (count : Nat) :
    (ring.fetch count).2 = ring := by
  cases count with
  | zero => rfl
  | succ count => rw [fetch, fetchOne?, if_pos empty]

/-- Only a store puts elements into an empty ring. -/
private theorem isEmpty_perform {operation : RingOperation α}
    (fetches : ∀ offered, operation ≠ .store offered)
    (empty : ring.isEmpty = true) : (perform operation ring).state.isEmpty = true := by
  cases operation with
  | store offered => exact absurd rfl (fetches offered)
  | fetchOne => exact (congrArg isEmpty (fetch_of_isEmpty empty 1)).trans empty
  | fetch slice => exact (congrArg isEmpty (fetch_of_isEmpty empty slice.length)).trans empty
  | reset => rfl
  | associate signal =>
      rw [perform, associate?]
      cases ring.signal <;> exact empty
  | dissociate =>
      rw [perform, dissociate?]
      cases ring.signal <;> exact empty
  | isEmpty | isFull | length | capacity => exact empty

end Ring

namespace System

variable {system : System} {signal ring : Nat} {command : Command}

private theorem pending_stride_ne_zero (other : command ≠ .take (.shared signal))
    (some : system.pending signal ≠ 0) : (system.stride command).pending signal ≠ 0 := by
  have kept : ∀ {system : System} {command : Command}, command ≠ .take (.shared signal) →
      1 ≤ system.pending signal → 1 ≤ (command.apply system).2.pending signal :=
    fun other enough => Command.pending_le not_false other (by decide) enough
  have one : 1 ≤ (system.stride command).pending signal :=
    stride_preserves (motive := fun system => 1 ≤ system.pending signal)
      (kept other (Nat.pos_of_ne_zero some)) fun _ _ before => kept nofun before
  exact Nat.ne_of_gt one

private theorem rings_stride (system : System) (command : Command) (ring : Nat) :
    (system.stride command).rings.get ring = (command.apply system).2.rings.get ring := by
  rcases system.stride_cases command with same | ⟨index, token, -, same⟩
  · rw [same]
  · rw [same]
    exact (Command.markReady index token).rings_apply nofun _

/-- A store that takes anything in posts the signal of the ring, and the count is raised if nothing
observes that. -/
private theorem pending_stride_store {elements : List Int}
    (free : (system.signal (.shared signal)).attachment = none)
    (stored : ((system.rings.get ring).store elements).1 ≠ 0)
    (named : ((system.rings.get ring).store elements).2.signal = some signal) :
    (system.stride (.store ring elements)).pending signal ≠ 0 := by
  let filled := ((system.rings.get ring).store elements).2
  let count := ((system.rings.get ring).store elements).1
  let kept := (system.setRing ring filled).record (.stored ring (elements.take count))
  let posted := kept.record (.posted (.shared signal) none)
  have unobserved : (kept.signal (.shared signal)).attachment = none := free
  have applied : system.store ring elements =
      ({ count, attachment := none }, posted.raise (.shared signal)) := by
    simp only [store, if_neg stored, named]
    rw [beginPost_of_none unobserved]
  have strides : system.stride (.store ring elements) = posted.raise (.shared signal) := by
    change callSelector (system.store ring elements).2 (system.store ring elements).1.attachment = _
    rw [applied]
    rfl
  rw [strides]
  exact posted.pending_raise_ne_zero signal

end System

/-- A command that comes of a timed wait itself: it handles alarms, takes a post, logs or notes a
request. -/
def Command.IsTimed : Command → Prop
  | .createAlarm _ _ _ _ | .insertAlarm _ _ | .withdrawAlarm _ _ | .dropAlarm _ | .take _ | .log _
  | .addRearm _ _ => True
  | _ => False

theorem Command.IsTimed.aside {command : Command} (timed : command.IsTimed) :
    command.ring? = none ∧ command.selector? = none := by
  cases command <;> first | exact ⟨rfl, rfl⟩ | exact timed.elim

theorem Alarms.waitUntil_uses (bound queue signal : Nat) (deadline : Tick) :
    (waitUntil bound queue (.shared signal) deadline).Uses Command.IsTimed Request.IsPause := by
  rw [waitUntil_eq]
  refine .look fun system => ?_
  split
  · exact .done false
  · refine .act trivial fun alarm => .ensuring ?_ trivial
    rw [blockedWait_eq]
    refine .bind (((awaiting_uses bound queue signal alarm).mono ?_)) fun _ => ?_
    · rintro command (rfl | log)
      · trivial
      · cases command with
        | log => trivial
        | _ => exact log.elim
    · exact .act trivial fun _ => .perform trivial

namespace Rings

variable {ring signal : Nat} {reads : Nat → Tick → Prop} {system last : System} {command : Command}

/-- A ring has a signal that nothing observes. -/
structure Linked (ring signal : Nat) (system : System) : Prop where
  associated : (system.rings.get ring).signal = some signal
  unobserved : (system.signal (.shared signal)).attachment = none

/-- Such a ring has elements only while there is a post to take. -/
structure Heralded (ring signal : Nat) (system : System) : Prop extends Linked ring signal system where
  heralded : (system.rings.get ring).isEmpty = false → system.pending signal ≠ 0

/-- What others may do during a wait for the elements of a ring: whatever leaves the ring its signal and
the signal without an observer, and takes no post of it. The ticks at which they fire alarms are told. -/
def attending (reads : Nat → Tick → Prop) (ring signal : Nat) : Conduct := fun system command =>
  system.ledger.Proper command ∧ command ≠ .take (.shared signal) ∧
    (∀ queue now, command = .fireFirst queue now → reads queue now) ∧
    Linked ring signal (system.stride command)

/-! ### What keeps the elements heralded -/

theorem Linked.apply (linked : Linked ring signal system) (timed : command.IsTimed) :
    Linked ring signal (command.apply system).2 := by
  obtain ⟨associated, unobserved⟩ := linked
  obtain ⟨noRing, noSelector⟩ := timed.aside
  refine ⟨?_, ?_⟩
  · rw [command.rings_apply (by rw [noRing]; exact nofun)]
    exact associated
  · refine (command.touched system).preserves
      (motive := fun last => (last.signal (.shared signal)).attachment = none) unobserved ?_
    intro last touch own free
    cases touch with
    | raise other =>
        have kept : ((last.setSignal other (last.signal other).raise).signal (.shared signal)).attachment =
            (last.signal (.shared signal)).attachment := System.attachment_setSignal rfl
        exact kept.trans free
    | take other => exact (last.attachment_take other _).trans free
    | renew other fresh =>
        simp only [Touch.apply, System.signal_setSignal]
        split
        · exact own.2
        · exact free
    | attach other observer token =>
        rcases own with same | ⟨index, -, about⟩
        · exact (same ▸ timed : (Command.attach other observer token).IsTimed).elim
        · rw [noSelector] at about
          cases about
    | detach other observer =>
        rcases own with same | ⟨index, -, about⟩
        · exact (same ▸ timed : (Command.detach other observer).IsTimed).elim
        · rw [noSelector] at about
          cases about
    | _ => exact free

theorem Linked.note (linked : Linked ring signal system) (occurrence : Occurrence) :
    Linked ring signal (system.record occurrence) := ⟨linked.associated, linked.unobserved⟩

theorem Linked.begin {request : Request} (linked : Linked ring signal system) (pause : request.IsPause) :
    Linked ring signal (request.begin system) := by
  cases request with
  | rearm log delay =>
      have noted : Linked ring signal (system.record (.rearmed log delay)) := linked.note _
      exact @apply _ _ _ (.addRearm log delay) noted trivial
  | idle reference => exact linked.note _
  | _ => exact pause.elim

theorem Linked.reaches (linked : Linked ring signal system)
    (run : Reaches (attending reads ring signal) system last) : Linked ring signal last :=
  run.preserves linked (fun _ allowed => allowed.2.2.2) fun kept _ => kept.note _

/-- Only a store fills a ring, and that posts its signal. -/
private theorem Heralded.stride (heralded : Heralded ring signal system)
    (allowed : attending reads ring signal system command) :
    Heralded ring signal (system.stride command) := by
  obtain ⟨-, leaves, -, linked⟩ := allowed
  refine ⟨linked, fun filled => ?_⟩
  have still : (system.rings.get ring).isEmpty = false → (system.stride command).pending signal ≠ 0 :=
    fun before => System.pending_stride_ne_zero leaves (heralded.heralded before)
  by_cases stores : ∃ elements, command = .store ring elements
  · obtain ⟨elements, rfl⟩ := stores
    have stored : (system.stride (.store ring elements)).rings.get ring =
        ((system.rings.get ring).store elements).2 :=
      (system.rings_stride _ ring).trans (ring_store ring elements system)
    by_cases none : ((system.rings.get ring).store elements).1 = 0
    · rw [stored, Ring.store_eq_self none] at filled
      exact still filled
    · exact System.pending_stride_store heralded.unobserved none (stored ▸ linked.associated)
  · refine still ?_
    rw [← Bool.not_eq_true] at filled ⊢
    intro empty
    refine filled ?_
    rw [system.rings_stride, ring_apply]
    cases named : command.ringOperation? ring with
    | none => exact empty
    | some operation =>
        refine Ring.isEmpty_perform ?_ empty
        rintro offered rfl
        cases command with
        | store other elements =>
            simp only [Command.ringOperation?] at named
            split at named
            · next same =>
              subst same
              exact stores ⟨elements, rfl⟩
            · cases named
        | fetch | resetRing | associate | dissociate =>
            simp only [Command.ringOperation?] at named
            split at named <;> cases named
        | _ => cases named

theorem Heralded.note (heralded : Heralded ring signal system) (occurrence : Occurrence) :
    Heralded ring signal (system.record occurrence) :=
  ⟨heralded.toLinked.note occurrence, heralded.heralded⟩

theorem Heralded.reaches (heralded : Heralded ring signal system)
    (run : Reaches (attending reads ring signal) system last) : Heralded ring signal last :=
  run.preserves heralded (fun kept allowed => kept.stride allowed) fun kept _ => kept.note _

theorem Heralded.apply (heralded : Heralded ring signal system) (timed : command.IsTimed)
    (other : command ≠ .take (.shared signal)) : Heralded ring signal (command.apply system).2 := by
  refine ⟨heralded.toLinked.apply timed, fun filled => ?_⟩
  rw [command.rings_apply (by rw [timed.aside.1]; exact nofun)] at filled
  have some : 1 ≤ system.pending signal := Nat.pos_of_ne_zero (heralded.heralded filled)
  exact Nat.ne_of_gt (Command.pending_le not_false other (by decide) some)

theorem Heralded.begin {request : Request} (heralded : Heralded ring signal system)
    (pause : request.IsPause) : Heralded ring signal (request.begin system) := by
  cases request with
  | rearm log delay =>
      have noted : Heralded ring signal (system.record (.rearmed log delay)) := heralded.note _
      exact @apply _ _ _ (.addRearm log delay) noted trivial nofun
  | idle reference => exact heralded.note _
  | _ => exact pause.elim

end Rings

end TimedWaits
