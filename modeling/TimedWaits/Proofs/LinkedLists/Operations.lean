import TimedWaits.Proofs.LinkedLists.Spelling

/-! What each list operation does to the sequences that are spelled: one lemma for every way an
operation can end. The links behind the sequences do not show in any of them. -/

set_option autoImplicit false

namespace TimedWaits.LinkedLists

variable {lists : LinkedLists} {sequence : Nat → List Nat}

/-- The walk for a node gives the member before it, which the first one has none of. -/
private theorem predecessor?_append {node : Nat} {found : Option Nat} {before after : List Nat}
    (absent : node ∉ before) :
    predecessor? node found (before ++ node :: after) = some (before.getLast?.or found) := by
  induction before generalizing found with
  | nil => simp [predecessor?]
  | cons first rest ih =>
      rw [List.mem_cons, not_or] at absent
      rw [List.cons_append, predecessor?, if_neg (Ne.symm absent.1), ih absent.2]
      cases rest <;> simp [List.getLast?_cons]

private theorem predecessor?_of_not_mem {node : Nat} {found : Option Nat} {nodes : List Nat}
    (absent : node ∉ nodes) : predecessor? node found nodes = none := by
  induction nodes generalizing found with
  | nil => rfl
  | cons first rest ih =>
      rw [List.mem_cons, not_or] at absent
      rw [predecessor?, if_neg (Ne.symm absent.1), ih absent.2]

namespace Spells

theorem pushFront? (spells : lists.Spells sequence) {node : Nat} (list : Nat)
    (loose : lists.isLinked node = false) :
    ∃ changed, lists.pushFront? list node = some changed ∧
      changed.Spells (Function.update sequence list (node :: sequence list)) := by
  refine ⟨lists.insertAfter list none node, by simp [LinkedLists.pushFront?, loose], ?_⟩
  have split : sequence list = [] ++ sequence list := rfl
  exact spells.insertAfter split (spells.isLinked_eq_false.mp loose)

theorem pushBack? (spells : lists.Spells sequence) {node : Nat} (list : Nat)
    (loose : lists.isLinked node = false) :
    ∃ changed, lists.pushBack? list node = some changed ∧
      changed.Spells (Function.update sequence list (sequence list ++ [node])) := by
  refine ⟨lists.insertAfter list (lists.chains.get list).tail node,
    by simp [LinkedLists.pushBack?, loose], ?_⟩
  rw [spells.tail]
  exact spells.insertAfter (List.append_nil _).symm (spells.isLinked_eq_false.mp loose)

/-- A sorted insertion parts the sequence before the first member that the node is less than. -/
theorem insertSorted? (spells : lists.Spells sequence) {node : Nat} (list : Nat)
    (order : Nat → Nat → Ordering) (loose : lists.isLinked node = false) :
    ∃ changed, lists.insertSorted? list node order =
        some ((ahead (sequence list) order node).length, changed) ∧
      changed.Spells (Function.update sequence list (ahead (sequence list) order node ++
        node :: (sequence list).dropWhile fun member => order node member != .lt)) := by
  refine ⟨lists.insertAfter list (ahead (sequence list) order node).getLast? node,
    by simp [LinkedLists.insertSorted?, loose, spells.members_eq], ?_⟩
  exact spells.insertAfter List.takeWhile_append_dropWhile.symm
    (spells.isLinked_eq_false.mp loose)

theorem popFront?_eq_none (spells : lists.Spells sequence) {list : Nat}
    (empty : sequence list = []) : lists.popFront? list = none := by
  simp [LinkedLists.popFront?, spells.front?_eq, empty]

theorem popFront? (spells : lists.Spells sequence) {list node : Nat} {rest : List Nat}
    (found : sequence list = node :: rest) :
    ∃ changed, lists.popFront? list = some (node, changed) ∧
      changed.Spells (Function.update sequence list rest) := by
  refine ⟨lists.unlink list none node,
    by simp [LinkedLists.popFront?, spells.front?_eq, found], ?_⟩
  have split : sequence list = [] ++ node :: rest := found
  exact spells.unlink split

/-- A node that was taken off the front of a list is in no list. -/
theorem not_mem_of_front (spells : lists.Spells sequence) {list node : Nat} {rest : List Nat}
    (front : sequence list = node :: rest) (other : Nat) :
    node ∉ Function.update sequence list rest other := by
  have first : node ∈ sequence list := front ▸ List.mem_cons_self
  rw [Function.update_apply]
  split
  · have nodup := spells.nodup list
    rw [front, List.nodup_cons] at nodup
    exact nodup.1
  · next differ => exact fun member => differ (spells.disjoint member first)

theorem popFrontIf?_eq (spells : lists.Spells sequence) (list : Nat) (accepts : Nat → Bool) :
    lists.popFrontIf? list accepts =
      if (sequence list).head?.any accepts then lists.popFront? list else none := by
  simp only [LinkedLists.popFrontIf?, LinkedLists.popFront?, spells.front?_eq]
  cases (sequence list).head? <;> simp

theorem remove?_eq_none (spells : lists.Spells sequence) {list node : Nat}
    (absent : node ∉ sequence list) : lists.remove? list node = none := by
  simp [LinkedLists.remove?, spells.members_eq, predecessor?_of_not_mem absent]

theorem remove? (spells : lists.Spells sequence) {list node : Nat}
    (member : node ∈ sequence list) :
    ∃ changed, lists.remove? list node = some changed ∧
      changed.Spells (Function.update sequence list ((sequence list).erase node)) := by
  obtain ⟨before, after, absent, split, erased⟩ := List.exists_erase_eq member
  refine ⟨lists.unlink list before.getLast? node, ?_, erased ▸ spells.unlink split⟩
  simp [LinkedLists.remove?, spells.members_eq, split, predecessor?_append absent]

private theorem popMany (spells : lists.Spells sequence) (list count : Nat) :
    (lists.popMany list count).Spells
      (Function.update sequence list ((sequence list).drop count)) := by
  induction count generalizing lists sequence with
  | zero => simpa [LinkedLists.popMany] using spells
  | succ count ih =>
      cases contents : sequence list with
      | nil =>
          have same : Function.update sequence list [] = sequence := by
            rw [← contents, Function.update_eq_self]
          simpa [LinkedLists.popMany, spells.popFront?_eq_none contents, same] using spells
      | cons node rest =>
          obtain ⟨changed, popped, respells⟩ := spells.popFront? contents
          simpa [LinkedLists.popMany, popped] using ih respells

theorem release (spells : lists.Spells sequence) (list : Nat) :
    (lists.release list).Spells (Function.update sequence list []) := by
  have emptied := spells.popMany list (sequence list).length
  rwa [List.drop_length, ← spells.length] at emptied

end Spells

end TimedWaits.LinkedLists
