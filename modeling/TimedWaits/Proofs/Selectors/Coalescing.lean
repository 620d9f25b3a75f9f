import Mathlib.Data.List.Nodup
import TimedWaits.System.Basic

/-! What a selector is meant to do: a list without duplicates. A post of a watched signal puts the
signal at the back of the list unless it is in it, and a selection takes the first one. -/

set_option autoImplicit false

namespace TimedWaits

/-- Whether an occurrence says nothing about the signals that a selector watches. -/
def Occurrence.Spares (index : Nat) : Occurrence → Prop
  | .watching selector _ _ | .unwatched selector _ _ | .selected selector _ => selector ≠ index
  | .posted (.shared _) _ => False
  | _ => True

/-- The signal that a selector gave. -/
def Occurrence.selection? (index : Nat) : Occurrence → Option Nat
  | .selected selector signal => if selector = index then some signal else none
  | _ => none

/-- The signals that are watched, and those that were posted and not selected since, oldest post
first. -/
structure Coalescing where
  watched : List Nat := []
  ready : List Nat := []
  deriving DecidableEq

namespace Coalescing

def watch (model : Coalescing) (signal : Nat) : Coalescing :=
  { model with watched := signal :: model.watched }

def unwatch (model : Coalescing) (signal : Nat) : Coalescing where
  watched := model.watched.filter (· ≠ signal)
  ready := model.ready.filter (· ≠ signal)

def post (model : Coalescing) (signal : Nat) : Coalescing :=
  if signal ∈ model.watched ∧ signal ∉ model.ready then
    { model with ready := model.ready ++ [signal] }
  else model

def take (model : Coalescing) : Coalescing := { model with ready := model.ready.tail }

/-- What an occurrence means to the list of one selector. -/
def step (index : Nat) (model : Coalescing) : Occurrence → Coalescing
  | .watching selector _ signal => if selector = index then model.watch signal else model
  | .unwatched selector _ signal => if selector = index then model.unwatch signal else model
  | .posted (.shared signal) _ => model.post signal
  | .selected selector _ => if selector = index then model.take else model
  | _ => model

/-- The list of a selector after a history, which has the latest occurrence first. -/
def after (index : Nat) (history : List Occurrence) : Coalescing :=
  history.foldr (fun occurrence model => model.step index occurrence) {}

variable {index : Nat} {model : Coalescing} {history : List Occurrence} {occurrence : Occurrence}
  {signal : Nat}

@[simp] theorem after_cons (index : Nat) (occurrence : Occurrence) (history : List Occurrence) :
    after index (occurrence :: history) = (after index history).step index occurrence := rfl

theorem step_of_spares (spares : occurrence.Spares index) : model.step index occurrence = model := by
  cases occurrence with
  | watching | unwatched | selected => exact if_neg spares
  | posted reference =>
      cases reference with
      | shared => exact spares.elim
      | selector | worker => rfl
  | _ => rfl

private theorem mem_ready_post {other : Nat} :
    other ∈ (model.post signal).ready ↔
      other ∈ model.ready ∨ other = signal ∧ signal ∈ model.watched := by
  unfold post
  split
  · next fresh =>
    rw [List.mem_append, List.mem_singleton]
    exact or_congr_right (and_iff_left fresh.1).symm
  · next stays =>
    constructor
    · exact .inl
    · rintro (member | ⟨rfl, watched⟩)
      · exact member
      · by_contra absent
        exact stays ⟨watched, absent⟩

theorem take_of_empty (empty : model.ready.head? = none) : model.take = model := by
  obtain ⟨watched, ready⟩ := model
  obtain rfl : ready = [] := List.head?_eq_none_iff.mp empty
  rfl

theorem length_post_le (model : Coalescing) (signal : Nat) :
    (model.post signal).ready.length ≤ model.ready.length + 1 := by
  unfold post
  split
  · exact Nat.le_of_eq List.length_append
  · exact Nat.le_succ _

/-- A list that is free of duplicates, with watched signals only. -/
structure Proper (model : Coalescing) : Prop where
  nodup : model.ready.Nodup
  watched : ∀ signal ∈ model.ready, signal ∈ model.watched

namespace Proper

private theorem watch (proper : model.Proper) (signal : Nat) : (model.watch signal).Proper where
  nodup := proper.nodup
  watched other member := List.mem_cons_of_mem _ (proper.watched other member)

private theorem unwatch (proper : model.Proper) (signal : Nat) : (model.unwatch signal).Proper where
  nodup := proper.nodup.filter _
  watched other member := by
    obtain ⟨listed, differ⟩ := List.mem_filter.mp member
    exact List.mem_filter.mpr ⟨proper.watched other listed, differ⟩

private theorem post (proper : model.Proper) (signal : Nat) : (model.post signal).Proper := by
  unfold Coalescing.post
  split
  · next fresh =>
    constructor
    · exact List.nodup_append.mpr ⟨proper.nodup, List.nodup_singleton signal,
        fun other member _ last same => fresh.2 (List.mem_singleton.mp last ▸ same ▸ member)⟩
    · intro other member
      rcases List.mem_append.mp member with member | last
      · exact proper.watched other member
      · exact List.mem_singleton.mp last ▸ fresh.1
  · exact proper

private theorem take (proper : model.Proper) : model.take.Proper where
  nodup := proper.nodup.sublist (List.tail_sublist _)
  watched other member := proper.watched other (List.mem_of_mem_tail member)

private theorem step (proper : model.Proper) (occurrence : Occurrence) :
    (model.step index occurrence).Proper := by
  cases occurrence with
  | watching selector slot signal =>
      simp only [Coalescing.step]
      split
      · exact proper.watch signal
      · exact proper
  | unwatched selector slot signal =>
      simp only [Coalescing.step]
      split
      · exact proper.unwatch signal
      · exact proper
  | posted reference alarm =>
      cases reference with
      | shared signal => exact proper.post signal
      | selector | worker => exact proper
  | selected selector signal =>
      simp only [Coalescing.step]
      split
      · exact proper.take
      · exact proper
  | _ => exact proper

end Proper

theorem proper_after (index : Nat) (history : List Occurrence) : (after index history).Proper := by
  induction history with
  | nil => exact ⟨List.nodup_nil, fun _ member => nomatch member⟩
  | cons occurrence rest ih => exact ih.step occurrence

private theorem mem_ready_take {first other : Nat} (proper : model.Proper)
    (head : model.ready.head? = some first) :
    other ∈ model.take.ready ↔ other ∈ model.ready ∧ other ≠ first := by
  obtain ⟨rest, list⟩ := List.head?_eq_some_iff.mp head
  have nodup := proper.nodup
  rw [list, List.nodup_cons] at nodup
  rw [take, list, List.tail_cons, List.mem_cons]
  constructor
  · intro member
    refine ⟨.inr member, ?_⟩
    rintro rfl
    exact nodup.1 member
  · rintro ⟨rfl | member, differ⟩
    · exact absurd rfl differ
    · exact member

/-- Every selection in a history is of the signal that is first at that moment. -/
def TakesFirst (index : Nat) (history : List Occurrence) : Prop :=
  ∀ later earlier signal, history = later ++ .selected index signal :: earlier →
    (after index earlier).ready.head? = some signal

theorem TakesFirst.of_append {recent : List Occurrence}
    (first : TakesFirst index (recent ++ history)) : TakesFirst index history := by
  intro later earlier signal split
  refine first (recent ++ later) earlier signal ?_
  rw [split, List.append_assoc]

theorem TakesFirst.cons (first : TakesFirst index history)
    (head : ∀ signal, occurrence = .selected index signal →
      (after index history).ready.head? = some signal) :
    TakesFirst index (occurrence :: history) := by
  intro later earlier signal split
  cases later with
  | nil =>
      obtain ⟨same, rest⟩ := List.cons.inj split
      exact rest ▸ head signal same
  | cons _ later => exact first later earlier signal (List.cons.inj split).2

theorem TakesFirst.cons_of_spares (first : TakesFirst index history)
    (spares : occurrence.Spares index) : TakesFirst index (occurrence :: history) := by
  refine first.cons ?_
  rintro signal rfl
  exact absurd rfl spares

/-- A signal was posted while a selector watched it, and after that the selector neither gave it nor
stopped watching it. -/
def Awaits (index : Nat) (history : List Occurrence) (signal : Nat) : Prop :=
  ∃ recent alarm earlier, history = recent ++ .posted (.shared signal) alarm :: earlier ∧
    signal ∈ (after index earlier).watched ∧ .selected index signal ∉ recent ∧
    ∀ slot, .unwatched index slot signal ∉ recent

private theorem awaits_cons :
    Awaits index (occurrence :: history) signal ↔
      (∃ alarm, occurrence = .posted (.shared signal) alarm) ∧
          signal ∈ (after index history).watched ∨
        Awaits index history signal ∧ occurrence ≠ .selected index signal ∧
          ∀ slot, occurrence ≠ .unwatched index slot signal := by
  constructor
  · rintro ⟨recent, alarm, earlier, split, watched, selected, unwatched⟩
    cases recent with
    | nil =>
        obtain ⟨rfl, rfl⟩ := List.cons.inj split
        exact .inl ⟨⟨alarm, rfl⟩, watched⟩
    | cons first recent =>
        obtain ⟨rfl, rfl⟩ := List.cons.inj split
        rw [List.mem_cons, not_or] at selected
        have kept : ∀ slot, .unwatched index slot signal ≠ occurrence ∧
            .unwatched index slot signal ∉ recent := by
          intro slot
          have absent := unwatched slot
          rwa [List.mem_cons, not_or] at absent
        exact .inr ⟨⟨recent, alarm, earlier, rfl, watched, selected.2, fun slot => (kept slot).2⟩,
          Ne.symm selected.1, fun slot => Ne.symm (kept slot).1⟩
  · rintro (⟨⟨alarm, rfl⟩, watched⟩ | ⟨⟨recent, alarm, earlier, rfl, watched, selected, unwatched⟩,
      notSelected, notUnwatched⟩)
    · exact ⟨[], alarm, history, rfl, watched, List.not_mem_nil, fun _ => List.not_mem_nil⟩
    · refine ⟨occurrence :: recent, alarm, earlier, rfl, watched, ?_, fun slot => ?_⟩
      · rw [List.mem_cons, not_or]
        exact ⟨Ne.symm notSelected, selected⟩
      · rw [List.mem_cons, not_or]
        exact ⟨Ne.symm (notUnwatched slot), unwatched slot⟩

/-- The list holds just the signals that wait to be given. So a signal that was removed is not in it,
one that took a freed place is not in it before it is posted, and no post is lost. -/
theorem mem_ready_iff_awaits (first : TakesFirst index history) :
    signal ∈ (after index history).ready ↔ Awaits index history signal := by
  -- On the history, the latest occurrence first. Only a selection needs `first`: it takes the head of
  -- the list, and this has to be the signal that it names.
  induction history with
  | nil =>
      refine iff_of_false List.not_mem_nil ?_
      rintro ⟨recent, alarm, earlier, split, -⟩
      exact List.append_ne_nil_of_right_ne_nil recent (List.cons_ne_nil _ _) split.symm
  | cons occurrence history ih =>
      rw [awaits_cons, ← ih (@TakesFirst.of_append index history [occurrence] first), after_cons]
      have proper := proper_after index history
      cases occurrence with
      | watching selector slot other =>
          simp only [step]
          split <;> simp [watch]
      | unwatched selector slot other =>
          simp only [step]
          split
          · next same => simp [unwatch, same, @eq_comm Nat signal other]
          · next differ => simp [differ]
      | posted reference alarm =>
          cases reference with
          | shared other =>
              rw [step, mem_ready_post, or_comm]
              refine or_congr ?_ (by simp)
              constructor
              · rintro ⟨rfl, watched⟩
                exact ⟨⟨alarm, rfl⟩, watched⟩
              · rintro ⟨⟨_, same⟩, watched⟩
                cases same
                exact ⟨rfl, watched⟩
          | selector | worker => simp [step]
      | selected selector other =>
          simp only [step]
          split
          · next same =>
            subst same
            have head : (after selector history).ready.head? = some other :=
              first [] history other rfl
            simp [mem_ready_take proper head, eq_comm]
          · next differ => simp [differ]
      | _ => simp [step]

end Coalescing

end TimedWaits
