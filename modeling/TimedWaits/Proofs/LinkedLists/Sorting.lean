import Mathlib.Data.List.Dedup
import TimedWaits.Proofs.LinkedLists.Refinement

/-! Sorted insertions keep a list stably sorted, whatever is removed between them. Nodes that tie
stand in the order in which they last arrived, so the members at any time are the stable sort of
what arrived, taken at its last arrival and cut down to what is still there. -/

set_option autoImplicit false

namespace TimedWaits

section Arranged

variable {order : Nat → Nat → Ordering} {arrivals members : List Nat} {first second node : Nat}

private theorem earlier_or_later (present : first ∈ members) (other : second ∈ members)
    (differ : first ≠ second) :
    [first, second].Sublist members ∨ [second, first].Sublist members := by
  induction members with
  | nil => cases present
  | cons head rest ih =>
      rcases List.mem_cons.mp present with rfl | inRest
      · left
        have later := (List.mem_cons.mp other).resolve_left differ.symm
        exact (List.singleton_sublist.mpr later).cons_cons _
      · rcases List.mem_cons.mp other with rfl | otherInRest
        · exact .inr ((List.singleton_sublist.mpr inRest).cons_cons _)
        · exact (ih inRest otherInRest).imp (·.cons _) (·.cons _)

theorem not_later_of_earlier (nodup : members.Nodup)
    (earlier : [first, second].Sublist members) : ¬ [second, first].Sublist members := by
  induction members with
  | nil => cases earlier
  | cons head rest ih =>
      rw [List.nodup_cons] at nodup
      intro later
      cases earlier with
      | cons _ inRest =>
          cases later with
          | cons _ laterInRest => exact ih nodup.2 inRest laterInRest
          | cons_cons _ _ => exact nodup.1 (inRest.subset (by simp))
      | cons_cons _ tail =>
          have apart := List.singleton_sublist.mp tail
          cases later with
          | cons _ laterInRest => exact nodup.1 (laterInRest.subset (by simp))
          | cons_cons _ _ => exact nodup.1 apart

/-- A node counts as no greater than one behind it, and as arrived before it if the two tie. -/
def StandsBefore (order : Nat → Nat → Ordering) (arrivals : List Nat) (first second : Nat) : Prop :=
  (order first second).isLE ∧
    ((order second first).isLE → [first, second].Sublist arrivals)

/-- Nodes stand as their last arrivals leave them: all have arrived, none stands there twice, and
any two are in order. -/
structure Arranged (order : Nat → Nat → Ordering) (arrivals members : List Nat) : Prop where
  nodup : members.Nodup
  arrived : members ⊆ arrivals
  inOrder : members.Pairwise (StandsBefore order arrivals.dedup)

/-- What arrived and is still there, in order of last arrival. -/
def remaining (arrivals members : List Nat) : List Nat :=
  arrivals.dedup.filter (· ∈ members)

theorem nodup_remaining (arrivals members : List Nat) : (remaining arrivals members).Nodup :=
  (List.nodup_dedup _).filter _

private theorem Arranged.nil : Arranged order arrivals [] :=
  ⟨List.nodup_nil, List.nil_subset _, .nil⟩

private theorem Arranged.sublist {fewer : List Nat} (arranged : Arranged order arrivals members)
    (sublist : fewer.Sublist members) : Arranged order arrivals fewer :=
  ⟨arranged.nodup.sublist sublist, List.Subset.trans sublist.subset arranged.arrived,
    arranged.inOrder.sublist sublist⟩

private theorem Arranged.perm (arranged : Arranged order arrivals members) :
    members.Perm (remaining arrivals members) := by
  refine (List.perm_ext_iff_of_nodup arranged.nodup (nodup_remaining _ _)).mpr fun node => ?_
  simp only [remaining, List.mem_filter, List.mem_dedup, decide_eq_true_eq]
  exact ⟨fun member => ⟨arranged.arrived member, member⟩, And.right⟩

private theorem dedup_concat (arrivals : List Nat) (node : Nat) :
    (arrivals ++ [node]).dedup = arrivals.dedup.filter (· ≠ node) ++ [node] := by
  induction arrivals with
  | nil => rfl
  | cons head rest ih =>
      by_cases again : head ∈ rest
      · rw [List.cons_append, List.dedup_cons_of_mem (List.mem_append_left _ again),
          List.dedup_cons_of_mem again, ih]
      · rw [List.cons_append, List.dedup_cons_of_notMem again]
        by_cases same : head = node
        · rw [List.dedup_cons_of_mem (by simp [same]), ih]
          simp [same]
        · rw [List.dedup_cons_of_notMem (by simp [same, again]), ih]
          simp [same]

theorem ahead_append_dropWhile (members : List Nat) (order : Nat → Nat → Ordering) (node : Nat) :
    LinkedLists.ahead members order node ++
      (members.dropWhile fun member => order node member != .lt) = members :=
  List.takeWhile_append_dropWhile

theorem insertIdx_ahead (members : List Nat) (order : Nat → Nat → Ordering) (node : Nat) :
    members.insertIdx (LinkedLists.ahead members order node).length node =
      LinkedLists.ahead members order node ++
        node :: members.dropWhile fun member => order node member != .lt := by
  have parted : (LinkedLists.ahead members order node ++
      (members.dropWhile fun member => order node member != .lt)).insertIdx
        (LinkedLists.ahead members order node).length node = _ := PlainLists.insertIdx_length_append
  rwa [ahead_append_dropWhile] at parted

variable [Std.TransCmp order]

theorem isLE_iff_ne_lt : (order first second).isLE ↔ order second first ≠ .lt := by
  have swapped : order second first = (order first second).swap := Std.OrientedCmp.eq_swap
  rw [swapped]
  cases order first second <;> decide

private theorem isLE_total (order : Nat → Nat → Ordering) [Std.TransCmp order] (first second : Nat) :
    (order first second).isLE || (order second first).isLE := by
  have swapped : order second first = (order first second).swap := Std.OrientedCmp.eq_swap
  rw [swapped]
  cases order first second <;> rfl

/-- Any two members of a stable sort are in order, with ties as in the list that was sorted. -/
private theorem mergeSort_inOrder (nodup : arrivals.Nodup) :
    (arrivals.mergeSort fun first second => (order first second).isLE).Pairwise
      (StandsBefore order arrivals) := by
  have trans : ∀ first second third : Nat, (order first second).isLE →
      (order second third).isLE → (order first third).isLE :=
    fun _ _ _ => Std.TransCmp.isLE_trans
  have sorted := List.pairwise_mergeSort trans (isLE_total order) arrivals
  have same := List.mergeSort_perm arrivals fun first second => (order first second).isLE
  rw [List.pairwise_iff_forall_sublist] at sorted ⊢
  intro first second earlier
  refine ⟨sorted earlier, fun tie => ?_⟩
  have sortedNodup := same.nodup_iff.mpr nodup
  have differ : first ≠ second := by
    have pair := sortedNodup.sublist earlier
    simpa using pair
  have present := same.subset (earlier.subset (by simp : first ∈ [first, second]))
  have other := same.subset (earlier.subset (by simp : second ∈ [first, second]))
  -- had the second come first before sorting, stability would have left it first
  refine (earlier_or_later present other differ).resolve_right fun later => ?_
  exact not_later_of_earlier sortedNodup earlier
    (List.pair_sublist_mergeSort trans (isLE_total order) tie later)

theorem Arranged.eq_mergeSort (arranged : Arranged order arrivals members) :
    members = (remaining arrivals members).mergeSort fun first second =>
      (order first second).isLE := by
  have unique := nodup_remaining arrivals members
  have kept : members.Pairwise (StandsBefore order (remaining arrivals members)) := by
    refine arranged.inOrder.imp_of_mem fun {first second} present other before => ?_
    refine ⟨before.1, fun tie => ?_⟩
    have filtered := (before.2 tie).filter (· ∈ members)
    simpa [remaining, present, other] using filtered
  refine List.Perm.eq_of_pairwise ?_ kept (mergeSort_inOrder unique)
    (arranged.perm.trans (List.mergeSort_perm _ _).symm)
  -- if each of two stands before the other they tie, and then each arrived before the other
  intro first second _ _ before after
  exact absurd (after.2 before.1) (not_later_of_earlier unique (before.2 after.1))

theorem isLE_of_mem_ahead {member : Nat}
    (before : member ∈ LinkedLists.ahead members order node) : (order member node).isLE := by
  have passed := List.all_eq_true.mp List.all_takeWhile member before
  exact isLE_iff_ne_lt.mpr (by simpa using passed)

theorem Arranged.lt_of_mem_behind (arranged : Arranged order arrivals members) {member : Nat}
    (behind : member ∈ members.dropWhile fun member => order node member != .lt) :
    order node member = .lt := by
  have sorted := arranged.inOrder.sublist (List.dropWhile_sublist
    fun member => order node member != .lt)
  cases split : members.dropWhile fun member => order node member != .lt with
  | nil => simp [split] at behind
  | cons next rest =>
      have stopped := List.head?_dropWhile_not (fun member => order node member != .lt) members
      have less : order node next = .lt := by simpa [split] using stopped
      rw [split] at behind sorted
      rcases List.mem_cons.mp behind with rfl | later
      · exact less
      · exact Std.TransCmp.lt_of_lt_of_isLE less ((List.pairwise_cons.mp sorted).1 member later).1

/-- The members that a new node goes behind are exactly those that are no greater. -/
private theorem Arranged.length_ahead (arranged : Arranged order arrivals members) (node : Nat) :
    (LinkedLists.ahead members order node).length =
      members.countP fun member => (order member node).isLE := by
  have split := ahead_append_dropWhile members order node
  conv_rhs => rw [← split, List.countP_append]
  have front := List.countP_eq_length.mpr fun member
    (before : member ∈ LinkedLists.ahead members order node) => isLE_of_mem_ahead before
  have back := List.countP_eq_zero.mpr fun member
    (behind : member ∈ members.dropWhile fun member => order node member != .lt) =>
      isLE_iff_ne_lt.not_left.mpr (arranged.lt_of_mem_behind behind)
  rw [front, back, Nat.add_zero]

private theorem Arranged.insert (arranged : Arranged order arrivals members) (loose : node ∉ members) :
    Arranged order (arrivals ++ [node]) (LinkedLists.ahead members order node ++
      node :: members.dropWhile fun member => order node member != .lt) := by
  have split := ahead_append_dropWhile members order node
  have entered : (LinkedLists.ahead members order node ++
      node :: members.dropWhile fun member => order node member != .lt).Perm (node :: members) := by
    conv_rhs => rw [← split]
    exact List.perm_middle
  refine ⟨entered.nodup_iff.mpr (List.nodup_cons.mpr ⟨loose, arranged.nodup⟩), ?_, ?_⟩
  · intro member present
    rcases List.mem_cons.mp (entered.subset present) with rfl | earlier
    · exact List.mem_append_right _ (List.mem_singleton_self _)
    · exact List.mem_append_left _ (arranged.arrived earlier)
  have kept : members.Pairwise (StandsBefore order (arrivals ++ [node]).dedup) := by
    refine arranged.inOrder.imp_of_mem fun {first second} present other before => ?_
    refine ⟨before.1, fun tie => ?_⟩
    have filtered := (before.2 tie).filter (· ≠ node)
    have firstStays : first ≠ node := fun same => loose (same ▸ present)
    have secondStays : second ≠ node := fun same => loose (same ▸ other)
    rw [dedup_concat]
    exact .trans (by simpa [firstStays, secondStays] using filtered)
      (List.sublist_append_left _ _)
  rw [← split, List.pairwise_append] at kept
  rw [List.pairwise_append, List.pairwise_cons]
  refine ⟨kept.1, ⟨fun member behind => ?_, kept.2.1⟩, fun member before other present => ?_⟩
  · have less := arranged.lt_of_mem_behind behind
    exact ⟨by simp [less], fun tie => absurd less (isLE_iff_ne_lt.mp tie)⟩
  · rcases List.mem_cons.mp present with rfl | behind
    · have stays : member ∈ members := split ▸ List.mem_append_left _ before
      have differ : member ≠ other := fun same => loose (same ▸ stays)
      refine ⟨isLE_of_mem_ahead before, fun _ => ?_⟩
      rw [dedup_concat]
      refine List.Sublist.append (List.singleton_sublist.mpr ?_) (.refl [other])
      simp [differ, arranged.arrived stays]
    · exact kept.2.2 member before other behind

end Arranged

/-- May stand among the sorted insertions into a list: nothing else enters that list. Other lists
over the same nodes are used freely. -/
def ListOperation.SortsInto (list : Nat) (order : Nat → Nat → Ordering) : ListOperation → Prop
  | .pushFront into _ | .pushBack into _ => into ≠ list
  | .insertSorted into _ compare => into = list → compare = order
  | _ => True

/-- The node that an operation with a reply brought into a list by a sorted insertion, if any. -/
def ListOperation.arrival (list : Nat) : ListOperation → ListReply → List Nat
  | .insertSorted into node _, .position (some _) => if into = list then [node] else []
  | _, _ => []

namespace LinkedLists

/-- Carries out operations one after the other. -/
def performAll : List ListOperation → LinkedLists → LinkedLists
  | [], lists => lists
  | operation :: rest, lists => performAll rest (perform operation lists).2

/-- The nodes that sorted insertions bring into a list while operations are carried out, in the
order of insertion. A node that comes back is there once more. -/
def arrivals (list : Nat) : List ListOperation → LinkedLists → List Nat
  | [], _ => []
  | operation :: rest, lists =>
    let (reply, left) := perform operation lists
    operation.arrival list reply ++ arrivals list rest left

end LinkedLists

section Runs

variable {order : Nat → Nat → Ordering} [Std.TransCmp order] {past : List Nat}
variable {plain : PlainLists} {lists : LinkedLists} {list node : Nat}

private theorem PlainLists.not_mem_of_holds_eq_false (loose : plain.holds node = false) (list : Nat) :
    node ∉ plain.get list := by
  intro member
  rw [holds_iff.mpr ⟨list, member⟩] at loose
  cases loose

private theorem PlainLists.get_modify_sublist {change : List Nat → List Nat}
    (shrinks : ∀ members, (change members).Sublist members) (plain : PlainLists)
    (into list : Nat) : ((plain.modify into change).get list).Sublist (plain.get list) := by
  rw [get_modify, Function.update_apply]
  split
  · next same => exact same ▸ shrinks _
  · exact .refl _

private theorem PlainLists.get_insert_of_ne {into : Nat} (differ : into ≠ list) (index : Nat) :
    (plain.insert into index node).get list = plain.get list := by
  rw [PlainLists.insert, get_modify, Function.update_of_ne differ.symm]

private theorem PlainLists.get_insertSorted (plain : PlainLists) (list node : Nat)
    (order : Nat → Nat → Ordering) :
    (plain.insert list ((plain.get list).findIdx fun member => order node member == .lt)
      node).get list = LinkedLists.ahead (plain.get list) order node ++
        node :: (plain.get list).dropWhile fun member => order node member != .lt := by
  rw [← LinkedLists.Spells.length_ahead, PlainLists.insert, get_modify, Function.update_self,
    insertIdx_ahead]

/-- Each operation keeps a list arranged by what arrived there, its own arrival included. -/
private theorem PlainLists.perform_arranged {operation : ListOperation}
    (sorts : operation.SortsInto list order) (arranged : Arranged order past (plain.get list)) :
    Arranged order (past ++ operation.arrival list (perform operation plain).1)
      ((perform operation plain).2.get list) := by
  have tails : ∀ members : List Nat, members.tail.Sublist members := List.tail_sublist
  have shrunk : ∀ {change : List Nat → List Nat} (into : Nat),
      (∀ members, (change members).Sublist members) →
      Arranged order (past ++ []) ((plain.modify into change).get list) := by
    intro change into shrinks
    rw [List.append_nil]
    exact arranged.sublist (get_modify_sublist shrinks plain into list)
  have same : Arranged order (past ++ []) (plain.get list) := by rwa [List.append_nil]
  cases operation with
  | pushFront into node | pushBack into node =>
      simp only [perform]
      split
      · exact same
      · simpa only [get_insert_of_ne sorts, ListOperation.arrival] using same
  | insertSorted into node compare =>
      simp only [perform]
      cases held : plain.holds node with
      | true => exact same
      | false =>
          by_cases here : into = list
          · subst here
            obtain rfl := sorts rfl
            have entered := arranged.insert (not_mem_of_holds_eq_false held into)
            simpa [ListOperation.arrival, get_insertSorted] using entered
          · simpa [ListOperation.arrival, here, get_insert_of_ne here] using arranged
  | popFront into => exact shrunk into tails
  | popFrontIf into accepts =>
      simp only [perform]
      split
      · exact shrunk into tails
      · exact same
  | remove into node => exact shrunk into fun _ => List.erase_sublist
  | drop into | create into => exact shrunk into fun _ => List.nil_sublist _
  | find | visit | front | contains | length | isEmpty | isLinked => exact same

private theorem LinkedLists.performAll_arranged {operations : List ListOperation}
    (sorts : ∀ operation ∈ operations, operation.SortsInto list order)
    (spells : lists.Spells plain.get) (arranged : Arranged order past (plain.get list)) :
    ∃ plain' : PlainLists, (performAll operations lists).Spells plain'.get ∧
      Arranged order (past ++ arrivals list operations lists) (plain'.get list) := by
  induction operations generalizing lists plain past with
  | nil => exact ⟨plain, spells, by simpa [arrivals] using arranged⟩
  | cons operation rest ih =>
      obtain ⟨replies, respelled⟩ := spells.perform_agrees operation
      have step := plain.perform_arranged (sorts operation List.mem_cons_self) arranged
      rw [← replies] at step
      have onward := ih (fun later member => sorts later (List.mem_cons_of_mem _ member))
        respelled step
      simpa [performAll, arrivals] using onward

end Runs

section Search

variable {order : Nat → Nat → Ordering} {lists changed : LinkedLists} {list node : Nat}
variable {sequence : Nat → List Nat}

/-- How far a sorted insertion looks: at members from the first one on, each once, going on past
each that the node is not less than, and no further than the first that it is less than. -/
structure LooksUpTo (order : Nat → Nat → Ordering) (node : Nat) (members compared : List Nat) :
    Prop where
  fromHead : compared <+: members
  once : compared.Nodup
  goesOn : ∀ member ∈ compared.dropLast, order node member ≠ .lt
  stops : compared = members ∨ ∃ last ∈ compared.getLast?, order node last = .lt

private theorem LinkedLists.Spells.compared_eq (spells : lists.Spells sequence) (list : Nat)
    (loose : lists.isLinked node = false) :
    lists.compared list node order = ahead (sequence list) order node ++
      ((sequence list).dropWhile fun member => order node member != .lt).take 1 := by
  have parted : (ahead (sequence list) order node ++
      (sequence list).dropWhile fun member => order node member != .lt).take
        ((ahead (sequence list) order node).length + 1) = _ := List.take_length_add_append 1
  rw [ahead_append_dropWhile] at parted
  rwa [compared, if_neg (by simp [loose]), spells.members_eq]

private theorem LinkedLists.Spells.compared_looks (spells : lists.Spells sequence) (list : Nat)
    (loose : lists.isLinked node = false) :
    LooksUpTo order node (sequence list) (lists.compared list node order) := by
  have split := ahead_append_dropWhile (sequence list) order node
  have passed : ∀ member ∈ ahead (sequence list) order node, order node member ≠ .lt := by
    intro member present
    simpa using List.all_eq_true.mp List.all_takeWhile member present
  have fromHead : lists.compared list node order <+: sequence list := by
    rw [compared, if_neg (by simp [loose]), spells.members_eq]
    exact List.take_prefix _ _
  have once := (spells.nodup list).sublist fromHead.sublist
  rw [spells.compared_eq list loose] at fromHead once ⊢
  cases behind : (sequence list).dropWhile fun member => order node member != .lt with
  | nil =>
      rw [behind] at split fromHead once
      rw [List.append_nil] at split
      rw [List.take_nil, List.append_nil] at fromHead once ⊢
      exact ⟨fromHead, once, fun member present => passed member (List.dropLast_subset _ present),
        .inl split⟩
  | cons next rest =>
      have stopped := List.head?_dropWhile_not (fun member => order node member != .lt)
        (sequence list)
      have less : order node next = .lt := by simpa [behind] using stopped
      rw [behind] at fromHead once
      refine ⟨fromHead, once, fun member present => passed member ?_, .inr ⟨next, ?_, less⟩⟩
      · simpa using present
      · simp

private theorem takeWhile_congr_of_take {passes agrees : Nat → Bool} {members : List Nat}
    (same : ∀ member ∈ members.take ((members.takeWhile passes).length + 1),
      agrees member = passes member) :
    members.takeWhile agrees = members.takeWhile passes := by
  induction members with
  | nil => rfl
  | cons head rest ih =>
      have first := same head (by simp)
      cases passed : passes head with
      | false => simp [first, passed]
      | true =>
          simp only [List.takeWhile_cons, first, passed, if_true]
          refine congrArg _ (ih fun member present => same member ?_)
          simp [passed, present]

/-- Any comparison that answers alike for the members a sorted insertion looks at puts the node in
the same place, after looking at the same members. -/
private theorem LinkedLists.insertSorted?_congr {other : Nat → Nat → Ordering}
    (same : ∀ member ∈ lists.compared list node order, other node member = order node member) :
    lists.insertSorted? list node other = lists.insertSorted? list node order ∧
      lists.compared list node other = lists.compared list node order := by
  cases marked : lists.isLinked node with
  | true => simp [insertSorted?, compared, marked]
  | false =>
      rw [compared, if_neg (by simp [marked])] at same
      have passed : ahead (lists.members list) other node =
          ahead (lists.members list) order node :=
        takeWhile_congr_of_take fun member present => by rw [same member present]
      simp [insertSorted?, compared, marked, passed]

/-- Where a sorted insertion puts a loose node among arranged members. -/
private theorem LinkedLists.Spells.insertSorted?_arranged [Std.TransCmp order] {past : List Nat}
    (spells : lists.Spells sequence) (arranged : Arranged order past (sequence list))
    (loose : lists.isLinked node = false) :
    let position := (sequence list).countP fun member => (order member node).isLE
    ∃ changed, lists.insertSorted? list node order = some (position, changed) ∧
      changed.members list = (sequence list).insertIdx position node ∧
      (changed.members list).idxOf node = position ∧
      (position = 0 ↔ changed.front? list = some node) := by
  intro position
  obtain ⟨changed, inserted, respells⟩ := spells.insertSorted? list order loose
  have place : (ahead (sequence list) order node).length = position := arranged.length_ahead node
  have members := respells.members_eq list
  have front := respells.front?_eq list
  have absent : node ∉ ahead (sequence list) order node := fun present =>
    spells.isLinked_eq_false.mp loose list ((List.takeWhile_subset _) present)
  rw [Function.update_self] at members front
  refine ⟨changed, place ▸ inserted, ?_, ?_, ?_⟩
  · rw [members, ← place, insertIdx_ahead]
  · rw [members, List.idxOf_append_of_notMem absent, List.idxOf_cons_self, place, Nat.add_zero]
  · rw [front, ← place, List.length_eq_zero_iff]
    cases passed : ahead (sequence list) order node with
    | nil => simp
    | cons first rest =>
        have differ : first ≠ node := fun same => absent (by simp [passed, same])
        simp [differ]

end Search

/-- Sorted insertions with one total preorder, among removals of any kind, keep a list the stable
sort of its members, with ties in the order of their last insertions. A further one puts a node
behind all members that are no greater, at the front exactly if there are none, having looked at
members from the first one on, each once, up to the first that the node is less than, and its
outcome depends on no other comparison. It refuses exactly the nodes that are in some list, and
looks at nothing then. -/
theorem LinkedLists.sorted_insertions_stable (order : Nat → Nat → Ordering) [Std.TransCmp order]
    (list : Nat) {operations : List ListOperation}
    (sorts : ∀ operation ∈ operations, operation.SortsInto list order) :
    let lists := performAll operations {}
    let members := lists.members list
    members = (remaining (arrivals list operations {}) members).mergeSort
        (fun first second => (order first second).isLE) ∧
      ∀ node,
        let position := members.countP fun member => (order member node).isLE
        let compared := lists.compared list node order
        if lists.isLinked node then
          lists.insertSorted? list node order = none ∧ compared = []
        else
          (∃ changed, lists.insertSorted? list node order = some (position, changed) ∧
            changed.members list = members.insertIdx position node ∧
            (changed.members list).idxOf node = position ∧
            (position = 0 ↔ changed.front? list = some node)) ∧
          LooksUpTo order node members compared ∧
          ∀ other : Nat → Nat → Ordering,
            (∀ member ∈ compared, other node member = order node member) →
            lists.insertSorted? list node other = lists.insertSorted? list node order ∧
              lists.compared list node other = compared := by
  intro lists members
  have bare : ({} : PlainLists).get = fun _ => [] := by
    funext list
    simp [PlainLists.get, Table.get]
  have start : ({} : LinkedLists).Spells ({} : PlainLists).get := bare ▸ spells_empty
  have empty : Arranged order [] (({} : PlainLists).get list) := bare ▸ .nil
  obtain ⟨plain, spells, arranged⟩ := performAll_arranged sorts start empty
  have same : members = plain.get list := spells.members_eq list
  rw [List.nil_append, ← same] at arranged
  refine ⟨arranged.eq_mergeSort, fun node => ?_⟩
  intro position compared
  cases marked : lists.isLinked node with
  | true => simp [insertSorted?, compared, LinkedLists.compared, marked]
  | false =>
      have looks : LooksUpTo order node (plain.get list) (lists.compared list node order) :=
        spells.compared_looks list marked
      have entry := spells.insertSorted?_arranged (same ▸ arranged) marked
      rw [← same] at looks entry
      exact ⟨entry, looks, fun other agrees => insertSorted?_congr agrees⟩

/-- Compares numbers by their tens alone. -/
def byTens : Nat → Nat → Ordering := compareOn (· / 10)

instance : Std.TransCmp byTens := inferInstanceAs (Std.TransCmp (compareOn (· / 10)))

/-- Sorted insertions into one list, with removals and with use of another list between them. -/
def comingAndGoing : List ListOperation :=
  [.insertSorted 0 21 byTens, .insertSorted 0 11 byTens, .insertSorted 0 12 byTens,
    .pushBack 1 13, .remove 0 11, .popFrontIf 0 (· < 12), .insertSorted 0 11 byTens,
    .insertSorted 0 31 byTens]

/-- A node that leaves and comes back goes behind those it ties with, and another that ties with it
behind them all, by looking one member past them. -/
theorem LinkedLists.returning_node_goes_last :
    let lists := performAll comingAndGoing {}
    (∀ operation ∈ comingAndGoing, operation.SortsInto 0 byTens) ∧
      arrivals 0 comingAndGoing {} = [21, 11, 12, 11, 31] ∧
      lists.members 0 = [12, 11, 21, 31] ∧
      lists.members 0 = [21, 12, 11, 31].mergeSort
        (fun first second => (byTens first second).isLE) ∧
      lists.compared 0 10 byTens = [12, 11, 21] ∧
      ∃ changed, lists.insertSorted? 0 10 byTens = some (2, changed) ∧
        changed.members 0 = [12, 11, 10, 21, 31] := by
  have sorts : ∀ operation ∈ comingAndGoing, operation.SortsInto 0 byTens := by
    simp [comingAndGoing, ListOperation.SortsInto]
  have members : (performAll comingAndGoing {}).members 0 = [12, 11, 21, 31] := by rfl
  have arrived : arrivals 0 comingAndGoing {} = [21, 11, 12, 11, 31] := by rfl
  have loose : (performAll comingAndGoing {}).isLinked 10 = false := by rfl
  obtain ⟨sorted, entries⟩ := sorted_insertions_stable byTens 0 sorts
  have entry := entries 10
  rw [if_neg (by simp [loose])] at entry
  obtain ⟨changed, inserted, inside, -⟩ := entry.1
  rw [members] at inserted inside
  refine ⟨sorts, arrived, members, ?_, by rfl, changed, inserted, inside⟩
  have kept : remaining [21, 11, 12, 11, 31] [12, 11, 21, 31] = [21, 12, 11, 31] := by decide
  rw [sorted, arrived, members, kept]

end TimedWaits
