import MathQuiz.Proofs.Expr.Trees
import MathQuiz.Proofs.Json.Kept
import Mathlib.Data.List.Forall2

/-!
# Trees and their records

* `Checked.outcome`: the result of a checked computation without its notices;
* `Record.toNode_cases`: the trees that a record can become;
* **`Record.sound_of_toNode`**, `Record.depth_of_toNode`: such a tree has sound leaves, and is not
  deeper than its record;
* **`Record.toNode_ofNode`**: a tree with sound leaves is the tree of its record.
-/

namespace MathQuiz

open Json (bind_eq_ok)

namespace Node

/-! ## Checked constructions -/

theorem pair?_eq_ok_iff {op : Pairing} {nodes : List Node} {markup : Option String} {hints : Hints}
    {node : Node} : pair? op nodes markup hints = .ok node ↔
      ∃ first second, nodes = [first, second] ∧ node = .pair op first second markup hints := by
  unfold pair?
  split
  · next first second =>
    constructor
    · intro h
      cases h
      exact ⟨first, second, rfl, rfl⟩
    · rintro ⟨a, b, heq, rfl⟩
      cases heq
      rfl
  · next hne =>
    constructor
    · intro h
      cases h
    · rintro ⟨a, b, rfl, -⟩
      exact absurd rfl (hne a b)

theorem pair?_eq_error_iff {op : Pairing} {nodes : List Node} {markup : Option String}
    {hints : Hints} {e : ShapeError} : pair? op nodes markup hints = .error e ↔
      nodes.length ≠ 2 ∧ e = .childCount op.kind nodes.length := by
  unfold pair?
  split
  · simp
  · next hne =>
    have hlength : nodes.length ≠ 2 := by
      intro h
      obtain ⟨first, second, rfl⟩ := List.length_eq_two.1 h
      exact hne first second rfl
    simp [hlength, eq_comm]

theorem input?_eq_ok_iff {id expected : String} {hints : Hints} {node : Node} :
    input? id expected hints = .ok node ↔
      Text.blankOnly id = false ∧ node = .leaf (.input ⟨id, expected⟩) hints := by
  unfold input?
  cases h : Text.blankOnly id with
  | true => simp
  | false =>
    simp only [Bool.false_eq_true, if_false, Except.ok.injEq, true_and]
    exact eq_comm

theorem input?_eq_error_iff {id expected : String} {hints : Hints} {e : ShapeError} :
    input? id expected hints = .error e ↔ Text.blankOnly id = true ∧ e = .blankInputId := by
  unfold input?
  cases Text.blankOnly id <;> simp [eq_comm]

end Node

namespace Record

/-! ## Checked computations -/

variable {α β : Type}

/-- The result of a checked computation, its notices aside. -/
def Checked.outcome (x : Checked α) : Except ShapeError α := x.run.value

namespace Checked

@[simp] theorem outcome_pure (a : α) : outcome (pure a) = .ok a := rfl

@[simp] theorem outcome_bind (x : Checked α) (f : α → Checked β) :
    outcome (x >>= f) = outcome x >>= fun a => outcome (f a) := by
  unfold outcome
  rw [ExceptT.run_bind, Logged.value_bind]
  cases x.run.value <;> rfl

@[simp] theorem outcome_lift (e : Except ShapeError α) : outcome (liftM e) = e := by
  cases e <;> rfl

@[simp] theorem outcome_tell (n : Notice) : outcome (liftM (Logged.tell n)) = .ok () := rfl

end Checked

open Checked

theorem forall₂_exists_left {R : α → β → Prop} {as : List α} {bs : List β} {b : β}
    (h : List.Forall₂ R as bs) (hb : b ∈ bs) : ∃ a ∈ as, R a b := by
  induction h with
  | nil => cases hb
  | cons hab _ ih =>
    rcases List.mem_cons.1 hb with rfl | hb
    · exact ⟨_, List.mem_cons_self, hab⟩
    · obtain ⟨a, ha, hr⟩ := ih hb
      exact ⟨a, List.mem_cons_of_mem _ ha, hr⟩

theorem toNodes_eq_ok_iff {rs : List Record} {nodes : List Node} :
    outcome (toNodes rs) = .ok nodes ↔
      List.Forall₂ (fun r node => outcome (toNode r) = .ok node) rs nodes := by
  induction rs generalizing nodes with
  | nil => cases nodes <;> simp [toNodes]
  | cons r rs ih =>
    rw [toNodes, outcome_bind, bind_eq_ok]
    simp only [outcome_bind, outcome_pure, bind_eq_ok, ih]
    constructor
    · rintro ⟨node, hnode, nodes', hnodes, heq⟩
      cases heq
      exact .cons hnode hnodes
    · intro h
      cases h with
      | cons hnode hnodes => exact ⟨_, hnode, _, hnodes, rfl⟩

/-! ## From a record to a tree -/

/-- **The trees that a record can become:** a sound leaf, or the node of its kind with the
children's trees. -/
theorem toNode_cases {r : Record} {node : Node} (h : outcome (toNode r) = .ok node) :
    (∃ leaf : Leaf, leaf.Sound ∧ node = .leaf leaf r.hints) ∨
    (∃ op first second, outcome (toNodes r.children) = .ok [first, second] ∧
      node = .pair op first second r.markup r.hints) ∨
    (∃ form nodes, outcome (toNodes r.children) = .ok nodes ∧
      node = .run form nodes r.markup r.hints) := by
  obtain ⟨kind, value, children, markup, id, expected, payload, placement, continuation⟩ := r
  rw [toNode] at h
  split at h
  all_goals
    simp only [outcome_bind, outcome_pure, outcome_lift, outcome_tell, bind_eq_ok] at h
  · obtain ⟨v, -, heq⟩ := h
    cases heq
    exact .inl ⟨.text v, trivial, rfl⟩
  · obtain ⟨v, -, heq⟩ := h
    cases heq
    exact .inl ⟨.decimal v, trivial, rfl⟩
  · obtain ⟨nodes, hnodes, hpair⟩ := h
    obtain ⟨first, second, rfl, rfl⟩ := Node.pair?_eq_ok_iff.1 hpair
    exact .inr (.inl ⟨.fraction, first, second, hnodes, rfl⟩)
  · obtain ⟨nodes, hnodes, hpair⟩ := h
    obtain ⟨first, second, rfl, rfl⟩ := Node.pair?_eq_ok_iff.1 hpair
    exact .inr (.inl ⟨.exponent, first, second, hnodes, rfl⟩)
  · obtain ⟨nodes, hnodes, heq⟩ := h
    cases heq
    exact .inr (.inr ⟨.algebraic, nodes, hnodes, rfl⟩)
  · obtain ⟨nodes, hnodes, heq⟩ := h
    cases heq
    exact .inr (.inr ⟨.equation, nodes, hnodes, rfl⟩)
  · obtain ⟨i, -, e, -, hinput⟩ := h
    obtain ⟨hblank, rfl⟩ := Node.input?_eq_ok_iff.1 hinput
    exact .inl ⟨.input ⟨i, e⟩, hblank, rfl⟩
  · obtain ⟨v, -, heq⟩ := h
    cases heq
    exact .inl ⟨.rich v, trivial, rfl⟩
  · next hkind =>
    obtain ⟨-, -, heq⟩ := h
    cases heq
    exact .inl ⟨.unrecognized kind, hkind, rfl⟩

/-- **A tree read from a record has sound leaves.** -/
theorem sound_of_toNode {r : Record} {node : Node} (h : outcome (toNode r) = .ok node) :
    ∀ leaf ∈ node.leaves, leaf.Sound := by
  induction r using Record.induction generalizing node with
  | h r ih =>
    have hnodes : ∀ nodes, outcome (toNodes r.children) = .ok nodes →
        ∀ node ∈ nodes, ∀ leaf ∈ node.leaves, leaf.Sound := by
      intro nodes hnodes node hmem
      obtain ⟨c, hc, hnode⟩ := forall₂_exists_left (toNodes_eq_ok_iff.1 hnodes) hmem
      exact ih c hc hnode
    rcases toNode_cases h with ⟨leaf, hleaf, rfl⟩ | ⟨op, first, second, hpair, rfl⟩ |
      ⟨form, nodes, hrun, rfl⟩
    · simpa [Node.leaves] using hleaf
    · intro leaf hmem
      rcases List.mem_append.1 hmem with hmem | hmem
      · exact hnodes _ hpair first (by simp) leaf hmem
      · exact hnodes _ hpair second (by simp) leaf hmem
    · intro leaf hmem
      obtain ⟨node, hnode, hleaf⟩ := mem_leavesOf.1 hmem
      exact hnodes _ hrun node hnode leaf hleaf

/-- **A tree read from a record is not deeper than the record.** -/
theorem depth_of_toNode {r : Record} {node : Node} (h : outcome (toNode r) = .ok node) :
    node.depth ≤ r.depth := by
  induction r using Record.induction generalizing node with
  | h r ih =>
    have hlevels : ∀ nodes, outcome (toNodes r.children) = .ok nodes →
        MathQuiz.levels nodes ≤ r.depth := by
      intro nodes hnodes
      refine MathQuiz.levels_le_iff.2 fun node hmem => ?_
      obtain ⟨c, hc, hnode⟩ := forall₂_exists_left (toNodes_eq_ok_iff.1 hnodes) hmem
      have hle := ih c hc hnode
      have hlt := levels_le_iff.1 (Nat.le_of_eq r.depth_eq.symm) c hc
      omega
    rcases toNode_cases h with ⟨leaf, -, rfl⟩ | ⟨op, first, second, hpair, rfl⟩ |
      ⟨form, nodes, hrun, rfl⟩
    · simp [Node.depth]
    · have := hlevels _ hpair
      simp only [MathQuiz.levels, Node.depth] at this ⊢
      omega
    · exact hlevels _ hrun

/-! ## From a tree to its record -/

theorem depth_ofNode (node : Node) : (ofNode node).depth = node.depth := by
  induction node using Node.induction with
  | leaf content hints => cases content <;> rfl
  | pair op first second markup hints ih₁ ih₂ =>
    rw [depth_eq]
    simp only [ofNode, levels, ih₁, ih₂, Node.depth]
    omega
  | run form children markup hints ih =>
    rw [depth_eq, Node.depth]
    simp only [ofNode]
    induction children with
    | nil => rfl
    | cons child children ihl =>
      rw [ofNodes, levels, MathQuiz.levels, ih child List.mem_cons_self,
        ihl fun c hc => ih c (List.mem_cons_of_mem _ hc)]

theorem toNodes_ofNodes {nodes : List Node}
    (h : ∀ node ∈ nodes, outcome (toNode (ofNode node)) = .ok node) :
    outcome (toNodes (ofNodes nodes)) = .ok nodes := by
  rw [toNodes_eq_ok_iff, ofNodes_eq_map, List.forall₂_map_left_iff, List.forall₂_same]
  exact h

/-- **A tree with sound leaves is the tree of its record.** -/
theorem toNode_ofNode (node : Node) (h : ∀ leaf ∈ node.leaves, leaf.Sound) :
    outcome (toNode (ofNode node)) = .ok node := by
  induction node using Node.induction with
  | leaf content hints =>
    have hsound : content.Sound := h content (by simp [Node.leaves])
    rw [ofNode]
    cases content with
    | text content | decimal content | rich payload =>
      simp only [ofLeaf, bare, toNode, Kind.ofTag?_tag, outcome_bind, outcome_lift, required]
      rfl
    | input slot =>
      simp only [ofLeaf, bare, toNode, Kind.ofTag?_tag, outcome_bind, outcome_lift, required]
      exact Node.input?_eq_ok_iff.2 ⟨hsound, rfl⟩
    | unrecognized kind =>
      have hkind : Kind.ofTag? kind = none := hsound
      simp only [ofLeaf, bare, toNode, hkind]
      rfl
  | pair op first second markup hints ih₁ ih₂ =>
    have hchildren : outcome (toNodes [ofNode first, ofNode second]) = .ok [first, second] :=
      toNodes_eq_ok_iff.2 (.cons (ih₁ fun leaf hl => h leaf (List.mem_append_left _ hl))
        (.cons (ih₂ fun leaf hl => h leaf (List.mem_append_right _ hl)) .nil))
    rw [ofNode]
    cases op <;>
      · simp only [bare, toNode, Pairing.kind, Kind.ofTag?_tag, outcome_bind, outcome_lift,
          hchildren]
        rfl
  | run form children markup hints ih =>
    have hchildren : outcome (toNodes (ofNodes children)) = .ok children :=
      toNodes_ofNodes fun c hc => ih c hc fun leaf hl => h leaf (mem_leavesOf.2 ⟨c, hc, hl⟩)
    rw [ofNode]
    cases form <;>
      · simp only [bare, toNode, Sequence.kind, Kind.ofTag?_tag, outcome_bind, hchildren]
        rfl

end Record

end MathQuiz
