import TimedWaits.Proofs.LinkedLists.Operations
import TimedWaits.Proofs.Runs.Nesting

/-! Linked lists answer like plain sequences. Operations run one after the other, and inside the
callback that a conditional removal makes once its node is unlinked. Main statement: in step with
a table of plain sequences, linked lists give the same reply to every operation and spell out the
same sequences after it. -/

set_option autoImplicit false

namespace TimedWaits

/-- An operation on lists. Making a list drops the one in its place. -/
inductive ListOperation where
  | pushFront (list node : Nat)
  | pushBack (list node : Nat)
  | insertSorted (list node : Nat) (order : Nat → Nat → Ordering)
  | popFront (list : Nat)
  | popFrontIf (list : Nat) (accepts : Nat → Bool)
  | remove (list node : Nat)
  | find (list : Nat) (accepts : Nat → Bool)
  | visit (list : Nat) (stops : Nat → Bool)
  | front (list : Nat)
  | contains (list node : Nat)
  | length (list : Nat)
  | isEmpty (list : Nat)
  | isLinked (node : Nat)
  | drop (list : Nat)
  | create (list : Nat)

inductive ListReply where
  | nothing
  | flag (value : Bool)
  | position (index : Option Nat)
  | node (found : Option Nat)
  | count (number : Nat)
  deriving DecidableEq

/-- Carries out an operation on linked lists. -/
@[simp]
def LinkedLists.perform : ListOperation → LinkedLists → ListReply × LinkedLists
  | .pushFront list node, lists =>
    match lists.pushFront? list node with
    | none => (.flag false, lists)
    | some changed => (.flag true, changed)
  | .pushBack list node, lists =>
    match lists.pushBack? list node with
    | none => (.flag false, lists)
    | some changed => (.flag true, changed)
  | .insertSorted list node order, lists =>
    match lists.insertSorted? list node order with
    | none => (.position none, lists)
    | some (index, changed) => (.position (some index), changed)
  | .popFront list, lists =>
    match lists.popFront? list with
    | none => (.node none, lists)
    | some (node, changed) => (.node (some node), changed)
  | .popFrontIf list accepts, lists =>
    match lists.popFrontIf? list accepts with
    | none => (.node none, lists)
    | some (node, changed) => (.node (some node), changed)
  | .remove list node, lists =>
    match lists.remove? list node with
    | none => (.flag false, lists)
    | some changed => (.flag true, changed)
  | .find list accepts, lists => (.node (lists.find? list accepts), lists)
  | .visit list stops, lists => (.flag (lists.find? list stops).isSome, lists)
  | .front list, lists => (.node (lists.front? list), lists)
  | .contains list node, lists => (.flag (lists.contains list node), lists)
  | .length list, lists => (.count (lists.length list), lists)
  | .isEmpty list, lists => (.flag (lists.isEmpty list), lists)
  | .isLinked node, lists => (.flag (lists.isLinked node), lists)
  | .drop list, lists | .create list, lists => (.nothing, lists.release list)

private theorem Table.fallback_modify {α : Type} (table : Table α) (index : Nat) (change : α → α) :
    (table.modify index change).fallback = table.fallback := by
  unfold Table.modify Table.set
  split <;> rfl

/-- A plain sequence of nodes for each list, empty wherever none is stored. -/
structure PlainLists where
  sequences : Table (List Nat) := { fallback := [] }
  closed : sequences.fallback = [] := by rfl

namespace PlainLists

def get (plain : PlainLists) (list : Nat) : List Nat := plain.sequences.get list

def modify (plain : PlainLists) (list : Nat) (change : List Nat → List Nat) : PlainLists where
  sequences := plain.sequences.modify list change
  closed := (Table.fallback_modify _ _ _).trans plain.closed

def holds (plain : PlainLists) (node : Nat) : Bool :=
  plain.sequences.toList.any (·.contains node)

def insert (plain : PlainLists) (list index node : Nat) : PlainLists :=
  plain.modify list (·.insertIdx index node)

def behead (plain : PlainLists) (list : Nat) : ListReply × PlainLists :=
  (.node (plain.get list).head?, plain.modify list List.tail)

/-- Carries out an operation on plain sequences. A node that is in any of them may not enter. -/
@[simp]
def perform : ListOperation → PlainLists → ListReply × PlainLists
  | .pushFront list node, plain =>
    if plain.holds node then (.flag false, plain) else (.flag true, plain.insert list 0 node)
  | .pushBack list node, plain =>
    if plain.holds node then (.flag false, plain)
    else (.flag true, plain.insert list (plain.get list).length node)
  | .insertSorted list node order, plain =>
    if plain.holds node then (.position none, plain)
    else
      let index := (plain.get list).findIdx fun member => order node member == .lt
      (.position (some index), plain.insert list index node)
  | .popFront list, plain => plain.behead list
  | .popFrontIf list accepts, plain =>
    if (plain.get list).head?.any accepts then plain.behead list else (.node none, plain)
  | .remove list node, plain =>
    (.flag ((plain.get list).contains node), plain.modify list (·.erase node))
  | .find list accepts, plain => (.node ((plain.get list).find? accepts), plain)
  | .visit list stops, plain => (.flag ((plain.get list).any stops), plain)
  | .front list, plain => (.node (plain.get list).head?, plain)
  | .contains list node, plain => (.flag ((plain.get list).contains node), plain)
  | .length list, plain => (.count (plain.get list).length, plain)
  | .isEmpty list, plain => (.flag (plain.get list).isEmpty, plain)
  | .isLinked node, plain => (.flag (plain.holds node), plain)
  | .drop list, plain | .create list, plain => (.nothing, plain.modify list fun _ => [])

end PlainLists

/-- A use of lists: an operation, with what the callback of a conditional removal from the front does
after the removed node is unlinked. -/
abbrev ListUse := NestedUse ListOperation

/-- Whether an operation calls back: only a conditional removal does, and only if it removes a node. -/
def ListOperation.callsBack : ListOperation → ListReply → Bool
  | .popFrontIf _ _, reply => reply != .node none
  | _, _ => false

namespace ListUse

variable {State Other : Type}

def performer (perform : ListOperation → State → ListReply × State) :
    Performer ListOperation State (ListReply × State) where
  perform := perform
  left := Prod.snd
  opens operation outcome := operation.callsBack outcome.1

/-- Runs uses, given what each operation does: every reply with the state it leaves, and the last
state. -/
def runAll (perform : ListOperation → State → ListReply × State) (uses : List ListUse)
    (state : State) : List (ListReply × State) × State :=
  NestedUse.runAll (performer perform) uses state

/-- Replies agree and the states they leave are related. -/
def Agrees (related : State → Other → Prop) (left : ListReply × State)
    (right : ListReply × Other) : Prop :=
  left.1 = right.1 ∧ related left.2 right.2

private theorem inStep {related : State → Other → Prop}
    {perform : ListOperation → State → ListReply × State}
    {performOther : ListOperation → Other → ListReply × Other}
    (step : ∀ operation state other, related state other →
      Agrees related (perform operation state) (performOther operation other)) :
    (performer perform).InStep related (Agrees related) (performer performOther) where
  perform := step
  left _ _ agrees := agrees.2
  opens operation _ _ agrees := congrArg operation.callsBack agrees.1

end ListUse

namespace PlainLists

variable {plain : PlainLists} {lists changed : LinkedLists} {list node : Nat}

theorem holds_iff : plain.holds node = true ↔ ∃ list, node ∈ plain.get list := by
  simp only [holds, get, Table.toList, List.any_eq_true, List.contains_iff_mem, Table.get,
    plain.closed]
  constructor
  · rintro ⟨members, stored, member⟩
    obtain ⟨list, found⟩ := List.mem_iff_getElem?.mp stored
    exact ⟨list, by simpa [← Array.getElem?_toList, found] using member⟩
  · rintro ⟨list, member⟩
    cases found : plain.sequences.entries[list]? with
    | none => simp [found] at member
    | some members =>
        refine ⟨members, ?_, by simpa [found] using member⟩
        exact List.mem_iff_getElem?.mpr ⟨list, by simpa using found⟩

theorem get_modify (list : Nat) (change : List Nat → List Nat) :
    (plain.modify list change).get = Function.update plain.get list (change (plain.get list)) := by
  funext other
  rw [get, modify, Table.get_modify, Function.update_apply]
  rfl

theorem insertIdx_length_append {before after : List Nat} :
    (before ++ after).insertIdx before.length node = before ++ node :: after := by
  induction before with
  | nil => rfl
  | cons first rest ih => simp [ih]

end PlainLists

namespace LinkedLists.Spells

open PlainLists

variable {plain : PlainLists} {lists changed : LinkedLists} {list node : Nat}

theorem isLinked_eq_holds (spells : lists.Spells plain.get) (node : Nat) :
    lists.isLinked node = plain.holds node := by
  rw [Bool.eq_iff_iff, holds_iff]
  exact spells.linked node

theorem get_insert {before after : List Nat} (split : plain.get list = before ++ after)
    (spells : changed.Spells (Function.update plain.get list (before ++ node :: after))) :
    changed.Spells (plain.insert list before.length node).get := by
  rwa [PlainLists.insert, get_modify, split, insertIdx_length_append]

abbrev Agree (left : ListReply × LinkedLists) (right : ListReply × PlainLists) : Prop :=
  ListUse.Agrees (fun lists plain => lists.Spells plain.get) left right

theorem popFront_agrees (spells : lists.Spells plain.get) (list : Nat) :
    Agree (LinkedLists.perform (.popFront list) lists) (plain.behead list) := by
  cases contents : plain.get list with
  | nil =>
      have refused := spells.popFront?_eq_none contents
      have same : Function.update plain.get list [] = plain.get := by
        rw [← contents, Function.update_eq_self]
      refine ⟨by simp [PlainLists.behead, refused, contents], ?_⟩
      simpa [refused, PlainLists.behead, get_modify, contents, same] using spells
  | cons first rest =>
      obtain ⟨changed, popped, respells⟩ := spells.popFront? contents
      refine ⟨by simp [PlainLists.behead, popped, contents], ?_⟩
      simpa [popped, PlainLists.behead, get_modify, contents] using respells

private theorem pushFront_agrees (spells : lists.Spells plain.get) (list node : Nat) :
    Agree (LinkedLists.perform (.pushFront list node) lists)
      (PlainLists.perform (.pushFront list node) plain) := by
  have mark := spells.isLinked_eq_holds node
  cases held : plain.holds node with
  | true =>
      simp only [LinkedLists.perform, LinkedLists.pushFront?, PlainLists.perform, mark, held]
      exact ⟨rfl, spells⟩
  | false =>
      obtain ⟨changed, pushed, respells⟩ := spells.pushFront? list (mark.trans held)
      have split : plain.get list = [] ++ plain.get list := rfl
      have entered := get_insert split respells
      simp only [LinkedLists.perform, PlainLists.perform, pushed, held, Bool.false_eq_true,
        if_false]
      exact ⟨rfl, entered⟩

private theorem pushBack_agrees (spells : lists.Spells plain.get) (list node : Nat) :
    Agree (LinkedLists.perform (.pushBack list node) lists)
      (PlainLists.perform (.pushBack list node) plain) := by
  have mark := spells.isLinked_eq_holds node
  cases held : plain.holds node with
  | true =>
      simp only [LinkedLists.perform, LinkedLists.pushBack?, PlainLists.perform, mark, held]
      exact ⟨rfl, spells⟩
  | false =>
      obtain ⟨changed, pushed, respells⟩ := spells.pushBack? list (mark.trans held)
      have entered := get_insert (List.append_nil _).symm respells
      simp only [LinkedLists.perform, PlainLists.perform, pushed, held, Bool.false_eq_true,
        if_false]
      exact ⟨rfl, entered⟩

theorem length_ahead (members : List Nat) (order : Nat → Nat → Ordering) (node : Nat) :
    (ahead members order node).length =
      members.findIdx fun member => order node member == .lt := by
  rw [ahead, List.takeWhile_eq_take_findIdx_not, List.length_take]
  simp only [bne, Bool.not_not]
  exact Nat.min_eq_left List.findIdx_le_length

private theorem insertSorted_agrees (spells : lists.Spells plain.get) (list node : Nat)
    (order : Nat → Nat → Ordering) :
    Agree (LinkedLists.perform (.insertSorted list node order) lists)
      (PlainLists.perform (.insertSorted list node order) plain) := by
  have mark := spells.isLinked_eq_holds node
  cases held : plain.holds node with
  | true =>
      simp only [LinkedLists.perform, LinkedLists.insertSorted?, PlainLists.perform, mark, held]
      exact ⟨rfl, spells⟩
  | false =>
      obtain ⟨changed, pushed, respells⟩ := spells.insertSorted? list order (mark.trans held)
      have entered := get_insert List.takeWhile_append_dropWhile.symm respells
      simp only [LinkedLists.perform, PlainLists.perform, pushed, held, Bool.false_eq_true,
        if_false, ← length_ahead]
      exact ⟨rfl, entered⟩

private theorem popFrontIf_agrees (spells : lists.Spells plain.get) (list : Nat)
    (accepts : Nat → Bool) :
    Agree (LinkedLists.perform (.popFrontIf list accepts) lists)
      (PlainLists.perform (.popFrontIf list accepts) plain) := by
  have popped := spells.popFront_agrees list
  simp only [LinkedLists.perform, PlainLists.perform, spells.popFrontIf?_eq] at popped ⊢
  split_ifs with accepted
  · exact popped
  · exact ⟨rfl, spells⟩

private theorem remove_agrees (spells : lists.Spells plain.get) (list node : Nat) :
    Agree (LinkedLists.perform (.remove list node) lists)
      (PlainLists.perform (.remove list node) plain) := by
  by_cases member : node ∈ plain.get list
  · obtain ⟨changed, removed, respells⟩ := spells.remove? member
    simp only [LinkedLists.perform, PlainLists.perform, removed]
    refine ⟨by simp [member], ?_⟩
    change changed.Spells (plain.modify list (·.erase node)).get
    rwa [get_modify]
  · have refused := spells.remove?_eq_none member
    have same : (plain.modify list (·.erase node)).get = plain.get := by
      rw [get_modify, List.erase_of_not_mem member, Function.update_eq_self]
    simp only [LinkedLists.perform, PlainLists.perform, refused]
    refine ⟨by simp [member], ?_⟩
    change lists.Spells (plain.modify list (·.erase node)).get
    rwa [same]

private theorem release_agrees (spells : lists.Spells plain.get) (list : Nat) :
    (lists.release list).Spells (plain.modify list fun _ => []).get := by
  rw [get_modify]
  exact spells.release list

theorem perform_agrees (operation : ListOperation) (spells : lists.Spells plain.get) :
    Agree (LinkedLists.perform operation lists) (PlainLists.perform operation plain) := by
  cases operation with
  | pushFront list node => exact spells.pushFront_agrees list node
  | pushBack list node => exact spells.pushBack_agrees list node
  | insertSorted list node order => exact spells.insertSorted_agrees list node order
  | popFront list => exact spells.popFront_agrees list
  | popFrontIf list accepts => exact spells.popFrontIf_agrees list accepts
  | remove list node => exact spells.remove_agrees list node
  | find list accepts =>
      refine ⟨?_, spells⟩
      simp [LinkedLists.find?, spells.members_eq]
  | visit list stops =>
      refine ⟨?_, spells⟩
      simp [LinkedLists.find?, spells.members_eq, List.isSome_find?]
  | front list =>
      exact ⟨congrArg ListReply.node (spells.front?_eq list), spells⟩
  | contains list node =>
      refine ⟨?_, spells⟩
      simp [LinkedLists.contains, spells.members_eq]
  | length list => exact ⟨congrArg ListReply.count (spells.length list), spells⟩
  | isEmpty list =>
      refine ⟨?_, spells⟩
      have front := spells.front?_eq list
      rw [LinkedLists.front?] at front
      cases contents : plain.get list <;> simp [LinkedLists.isEmpty, front, contents]
  | isLinked node => exact ⟨congrArg ListReply.flag (spells.isLinked_eq_holds node), spells⟩
  | drop list => exact ⟨rfl, spells.release_agrees list⟩
  | create list => exact ⟨rfl, spells.release_agrees list⟩

end LinkedLists.Spells

private theorem LinkedLists.Spells.head_eq_none_iff {lists : LinkedLists} {sequence : Nat → List Nat}
    (spells : lists.Spells sequence) (list : Nat) :
    (lists.chains.get list).head = none ↔ (lists.chains.get list).length = 0 := by
  rw [spells.length, List.length_eq_zero_iff]
  exact (spells.threads list).eq_nil_iff.symm

/-- In step with plain sequences, linked lists reply alike to every operation, those inside
callbacks included, and after each of them the links spell out exactly those sequences. -/
theorem LinkedLists.runAll_refines (uses : List ListUse) :
    let linked := ListUse.runAll LinkedLists.perform uses {}
    let plain := ListUse.runAll PlainLists.perform uses {}
    let spelled (lists : LinkedLists) (plain : PlainLists) : Prop :=
      lists.Spells plain.get ∧
        ∀ list, (lists.chains.get list).head = none ↔ (lists.chains.get list).length = 0
    List.Forall₂ (fun left right => left.1 = right.1 ∧ spelled left.2 right.2)
        linked.1 plain.1 ∧
      spelled linked.2 plain.2 := by
  have start : ({} : LinkedLists).Spells ({} : PlainLists).get := by
    have bare : ({} : PlainLists).get = fun _ => [] := by
      funext list
      simp [PlainLists.get, Table.get]
    exact bare ▸ LinkedLists.spells_empty
  have step : ∀ operation (lists : LinkedLists) (plain : PlainLists),
      lists.Spells plain.get → LinkedLists.Spells.Agree (LinkedLists.perform operation lists)
        (PlainLists.perform operation plain) :=
    fun operation _ _ spells => spells.perform_agrees operation
  obtain ⟨steps, last⟩ := NestedUse.runAll_agrees (ListUse.inStep step) uses {} {} start
  refine ⟨steps.imp fun left right agrees => ?_, last, last.head_eq_none_iff⟩
  exact ⟨agrees.1, agrees.2, agrees.2.head_eq_none_iff⟩

end TimedWaits
