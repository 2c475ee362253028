import MathQuiz.Question.Basic
import MathQuiz.Proofs.Expr.Trees
import Mathlib.Data.Finset.Basic
import Mathlib.Data.List.Forall2
import Mathlib.Data.List.Induction
import Mathlib.Data.List.Nodup

/-!
# What is asked about slots

The slots of a question are met in reading its trees, parents first and from left to right. What is
asked about identifiers is answered from this list.

* `Question.mem_secondOccurrences_iff`, `Question.secondOccurrences_append`: what stands for the
  second time in a list, and in a list with new identifiers behind it;
* **`Question.mem_duplicateIds_iff`**, **`Question.duplicateIds_eq_nil_iff`**: the identifiers that
  are repeated in a question, and when there are none;
* `Node.slot?`, `Node.slots_eq`, `slots_eq_preorder`: the slots among the nodes in reading order;
* `Question.SecondAt`, `Question.exists_places`: the places of second occurrences, in order;
* `Question.Scan`, `Question.foldl_step`: repeated identifiers found by a scan that remembers what
  it has seen and what it has found;
* **`Question.queries_agree`**: the slots, the slot of an identifier, and what is repeated.
-/

/-! ## Repeated identifiers -/

namespace MathQuiz.Question

/-- **What stands for the second time:** it came at most once before, and then often enough. -/
theorem mem_secondOccurrences_iff {before ids : List String} {id : String} :
    id ∈ secondOccurrences before ids ↔
      before.count id < 2 ∧ 2 ≤ before.count id + ids.count id := by
  induction ids generalizing before with
  | nil =>
    simp only [secondOccurrences, List.not_mem_nil, List.count_nil, false_iff]
    omega
  | cons first ids ih =>
    rw [secondOccurrences]
    by_cases heq : first = id
    · subst heq
      split
      · next hone =>
        simp only [List.mem_cons, true_or, true_iff, hone, List.count_cons_self]
        omega
      · next hnot =>
        rw [ih, List.count_cons_self, List.count_cons_self]
        omega
    · have hmem : id ∈ first :: secondOccurrences (first :: before) ids ↔
          id ∈ secondOccurrences (first :: before) ids := by
        rw [List.mem_cons, or_iff_right (Ne.symm heq)]
      split
      · rw [hmem, ih, List.count_cons_of_ne heq, List.count_cons_of_ne heq]
      · rw [ih, List.count_cons_of_ne heq, List.count_cons_of_ne heq]

theorem secondOccurrences_of_nodup {before ids : List String} (h : ids.Nodup)
    (hnew : ∀ id ∈ ids, id ∉ before) : secondOccurrences before ids = [] := by
  induction ids generalizing before with
  | nil => rfl
  | cons id ids ih =>
    obtain ⟨hid, hnodup⟩ := List.nodup_cons.1 h
    have hcount : before.count id ≠ 1 := by
      rw [List.count_eq_zero.2 (hnew id List.mem_cons_self)]
      exact Nat.zero_ne_one
    rw [secondOccurrences, if_neg hcount]
    refine ih hnodup fun id' hmem hbefore => ?_
    rcases List.mem_cons.1 hbefore with rfl | hbefore
    · exact hid hmem
    · exact hnew id' (List.mem_cons_of_mem _ hmem) hbefore

theorem secondOccurrences_append {before ids new : List String} (h : new.Nodup)
    (hnew : ∀ id ∈ new, id ∉ before ∧ id ∉ ids) :
    secondOccurrences before (ids ++ new) = secondOccurrences before ids := by
  induction ids generalizing before with
  | nil => exact secondOccurrences_of_nodup h fun id hmem => (hnew id hmem).1
  | cons id ids ih =>
    have hrest : ∀ i ∈ new, i ∉ id :: before ∧ i ∉ ids := by
      intro i hmem
      have := hnew i hmem
      simp only [List.mem_cons, not_or] at this ⊢
      exact ⟨⟨this.2.1, this.1⟩, this.2.2⟩
    rw [List.cons_append, secondOccurrences, secondOccurrences, ih hrest]

/-- **The last identifier is found** if it came exactly once before. -/
theorem secondOccurrences_concat (before ids : List String) (id : String) :
    secondOccurrences before (ids ++ [id]) =
      secondOccurrences before ids ++ if before.count id + ids.count id = 1 then [id] else [] := by
  induction ids generalizing before with
  | nil =>
    rw [List.nil_append, secondOccurrences, secondOccurrences, List.count_nil, Nat.add_zero]
    split <;> rfl
  | cons first ids ih =>
    have hcount : (first :: before).count id + ids.count id =
        before.count id + (first :: ids).count id := by
      rw [List.count_cons, List.count_cons]
      omega
    rw [List.cons_append, secondOccurrences, secondOccurrences, ih, hcount]
    split <;> rfl

/-! ### Identifiers of a question -/

variable {q : Question}

theorem mem_duplicateIds_iff {id : String} :
    id ∈ q.duplicateIds ↔ 2 ≤ q.focusOrder.count id := by
  rw [duplicateIds, mem_secondOccurrences_iff]
  simp

theorem nodup_secondOccurrences (ids : List String) : (secondOccurrences [] ids).Nodup := by
  induction ids using List.reverseRecOn with
  | nil => exact List.nodup_nil
  | append_singleton ids id ih =>
    rw [secondOccurrences_concat]
    split
    · next hone =>
      refine List.nodup_append.2 ⟨ih, List.nodup_singleton id, fun i hi j hj heq => ?_⟩
      rw [heq, List.mem_singleton.1 hj, mem_secondOccurrences_iff] at hi
      omega
    · rwa [List.append_nil]

theorem duplicateIds_eq_nil_iff : q.duplicateIds = [] ↔ q.focusOrder.Nodup := by
  rw [List.eq_nil_iff_forall_not_mem, List.nodup_iff_count_le_one]
  refine forall_congr' fun id => ?_
  rw [mem_duplicateIds_iff]
  omega

end MathQuiz.Question

namespace MathQuiz

/-! ## Slots in reading order -/

/-- The slot that a node is, if it is one. -/
def Node.slot? : Node → Option Slot
  | .leaf (.input slot) _ => some slot
  | .leaf (.text _) _ | .leaf (.decimal _) _ | .leaf (.rich _) _ | .leaf (.unrecognized _) _
  | .pair .. | .run .. => none

/-- **Slots are found below the children,** and in nodes that are slots themselves. -/
theorem Node.slots_eq (node : Node) :
    node.slots = node.slot?.toList ++ node.children.flatMap Node.slots := by
  cases node with
  | leaf content hints => cases content <;> rfl
  | pair op first second markup hints => simp [slots, slot?, children]
  | run form cs markup hints => rw [slots, slotsOf_eq_flatMap]; rfl

theorem slots_eq_preorder (node : Node) : node.slots = node.preorder.filterMap Node.slot? := by
  induction node using Node.childInduction with
  | h node ih =>
    rw [Node.slots_eq, Node.filterMap_preorder]
    exact congrArg _ (List.flatMap_congr ih)

namespace Question

/-! ## Places of second occurrences -/

/-- At this place the identifier stands for the second time. -/
structure SecondAt (ids : List String) (place : Nat) (id : String) : Prop where
  here : ids[place]? = some id
  once : (ids.take place).count id = 1

theorem SecondAt.concat {ids : List String} {place : Nat} {id : String} (h : SecondAt ids place id)
    (last : String) : SecondAt (ids ++ [last]) place id := by
  obtain ⟨hlt, -⟩ := List.getElem?_eq_some_iff.1 h.here
  exact ⟨by rw [List.getElem?_append_left hlt, h.here],
    by rw [List.take_append_of_le_length (Nat.le_of_lt hlt), h.once]⟩

theorem secondAt_concat {ids : List String} {id : String} (h : ids.count id = 1) :
    SecondAt (ids ++ [id]) ids.length id :=
  ⟨List.getElem?_concat_length, by rwa [List.take_left]⟩

/-- **Repeated identifiers are listed in the order of their second places.** -/
theorem exists_places (ids : List String) : ∃ places : List Nat,
    places.Pairwise (· < ·) ∧ (∀ place ∈ places, place < ids.length) ∧
      List.Forall₂ (SecondAt ids) places (secondOccurrences [] ids) := by
  induction ids using List.reverseRecOn with
  | nil => exact ⟨[], .nil, by simp, .nil⟩
  | append_singleton ids id ih =>
    obtain ⟨places, hincreasing, hinside, hplaces⟩ := ih
    have hkept : List.Forall₂ (SecondAt (ids ++ [id])) places (secondOccurrences [] ids) :=
      hplaces.imp fun _ _ h => h.concat id
    rw [secondOccurrences_concat, List.length_append, List.length_singleton]
    split
    · next hone =>
      have hlast : SecondAt (ids ++ [id]) ids.length id := secondAt_concat (by simpa using hone)
      refine ⟨places ++ [ids.length], ?_, ?_, List.rel_append hkept (.cons hlast .nil)⟩
      · refine List.pairwise_append.2 ⟨hincreasing, List.pairwise_singleton _ _, ?_⟩
        rintro place hplace last hlast
        rw [List.mem_singleton.1 hlast]
        exact hinside place hplace
      · intro place hplace
        rcases List.mem_append.1 hplace with hplace | hplace
        · exact Nat.lt_succ_of_lt (hinside place hplace)
        · rw [List.mem_singleton.1 hplace]
          exact Nat.lt_succ_self _
    · rw [List.append_nil]
      exact ⟨places, hincreasing, fun place hplace => Nat.lt_succ_of_lt (hinside place hplace),
        hkept⟩

/-- The second `b` stands in front of the second `a`; a third one is not listed again. -/
example : secondOccurrences [] ["a", "b", "b", "a", "c", "b"] = ["b", "a"] := by decide

/-! ## A scan -/

/-- What a scan has seen, and what it has found repeated. -/
structure Scan where
  seen : Finset String
  repeated : List String

/-- The scan looks at one more identifier. -/
def Scan.step (s : Scan) (id : String) : Scan where
  seen := insert id s.seen
  repeated := if id ∈ s.seen ∧ id ∉ s.repeated then s.repeated ++ [id] else s.repeated

/-- **A scan that remembers what it has seen and found** finds what stands for the second time. -/
theorem foldl_step (ids : List String) :
    ids.foldl Scan.step ⟨∅, []⟩ = ⟨ids.toFinset, secondOccurrences [] ids⟩ := by
  -- the invariant: both collections are determined by the identifiers looked at so far
  induction ids using List.reverseRecOn with
  | nil => rfl
  | append_singleton ids id ih =>
    have hfound : id ∈ ids.toFinset ∧ id ∉ secondOccurrences [] ids ↔
        ([] : List String).count id + ids.count id = 1 := by
      rw [List.mem_toFinset, ← List.count_pos_iff, mem_secondOccurrences_iff]
      simp only [List.count_nil]
      omega
    have hseen : insert id ids.toFinset = (ids ++ [id]).toFinset := by
      ext i
      rw [Finset.mem_insert, List.mem_toFinset, List.mem_toFinset, List.mem_append,
        List.mem_singleton, or_comm]
    rw [List.foldl_concat, ih, Scan.step, secondOccurrences_concat, ← hseen]
    simp only [hfound]
    split <;> simp

/-! ## Queries -/

variable {q : Question}

theorem slots_eq_filterMap :
    q.slots = (q.nodes.flatMap Node.preorder).filterMap Node.slot? := by
  rw [slots, slotsOf_eq_flatMap, List.filterMap_flatMap]
  exact List.flatMap_congr fun node _ => slots_eq_preorder node

theorem input?_eq_some_iff {id : String} {slot : Slot} : q.input? id = some slot ↔
    ∃ front rest, q.slots = front ++ slot :: rest ∧ slot.id = id ∧ ∀ s ∈ front, s.id ≠ id := by
  rw [input?, List.find?_eq_some_iff_append]
  simp only [beq_iff_eq, Bool.not_eq_true', beq_eq_false_iff_ne]
  constructor
  · rintro ⟨hid, front, rest, hslots, hfront⟩
    exact ⟨front, rest, hslots, hid, hfront⟩
  · rintro ⟨front, rest, hslots, hid, hfront⟩
    exact ⟨hid, front, rest, hslots, hfront⟩

/-- **Queries agree with the trees:** slots are met in reading order, an identifier has its first
slot, and repeated ones are listed by their second places. -/
theorem queries_agree (q : Question) :
    (∀ node : Node, node.preorder = node :: node.children.flatMap Node.preorder) ∧
    q.slots = (q.nodes.flatMap Node.preorder).filterMap Node.slot? ∧
    q.slots = q.nodes.flatMap Node.slots ∧
    (∀ id slot, q.input? id = some slot ↔
      ∃ front rest, q.slots = front ++ slot :: rest ∧ slot.id = id ∧ ∀ s ∈ front, s.id ≠ id) ∧
    (∀ id, q.input? id = none ↔ id ∉ q.focusOrder) ∧
    (∀ id, id ∈ q.duplicateIds ↔ 2 ≤ q.focusOrder.count id) ∧ q.duplicateIds.Nodup ∧
    (∃ places : List Nat, places.Pairwise (· < ·) ∧
      List.Forall₂ (SecondAt q.focusOrder) places q.duplicateIds) ∧
    q.duplicateIds = (q.focusOrder.foldl Scan.step ⟨∅, []⟩).repeated ∧
    (q.duplicateIds = [] ↔ q.focusOrder.Nodup) := by
  obtain ⟨places, hincreasing, -, hplaces⟩ := exists_places q.focusOrder
  exact ⟨Node.preorder_eq, slots_eq_filterMap, slotsOf_eq_flatMap q.nodes,
    fun _ _ => input?_eq_some_iff, fun _ => input?_eq_none_iff, fun _ => mem_duplicateIds_iff,
    nodup_secondOccurrences _, ⟨places, hincreasing, hplaces⟩, by rw [foldl_step, duplicateIds],
    duplicateIds_eq_nil_iff⟩

end Question

end MathQuiz
