import MathQuiz.Expr.Record
import MathQuiz.Expr.Node
import Mathlib.Data.List.Basic

/-!
# Trees

Trees by induction, their depth, their leaves, and their nodes in reading order: parents first and
from left to right, down through the children of each node only.

* `Node.induction`, `Record.induction`, `Node.childInduction`: a property of all children is one of
  their parent;
* `Node.depth`, `Record.depth`, `Node.leaves`: the levels below a tree or a record, and the leaves;
* `Leaf.Sound`: the leaf has a form that its kind allows;
* `Node.Below`: a node lies so many levels below another one, counted along children;
* **`Node.depth_le_iff_below`**, **`Node.mem_leaves_iff_below`**: the depth is the largest number of
  levels, and the leaves of a tree are those below its root;
* `Visit`, `Node.visits_eq`: a node met on the way, with the nodes it lies below;
* `Node.preorder`, `Node.preorder_eq`, `Node.filterMap_preorder`: the nodes alone.
-/

namespace MathQuiz

/-! ## Induction -/

mutual

/-- **Induction over trees.** -/
theorem Node.induction {P : Node → Prop} (leaf : ∀ content hints, P (.leaf content hints))
    (pair : ∀ op first second markup hints, P first → P second →
      P (.pair op first second markup hints))
    (run : ∀ form children markup hints, (∀ child ∈ children, P child) →
      P (.run form children markup hints)) : ∀ node, P node
  | .leaf content hints => leaf content hints
  | .pair op first second markup hints =>
    pair op first second markup hints (Node.induction leaf pair run first)
      (Node.induction leaf pair run second)
  | .run form children markup hints =>
    run form children markup hints (Node.inductionList leaf pair run children)

theorem Node.inductionList {P : Node → Prop} (leaf : ∀ content hints, P (.leaf content hints))
    (pair : ∀ op first second markup hints, P first → P second →
      P (.pair op first second markup hints))
    (run : ∀ form children markup hints, (∀ child ∈ children, P child) →
      P (.run form children markup hints)) : ∀ nodes : List Node, ∀ node ∈ nodes, P node
  | [] => by simp
  | node :: nodes =>
    List.forall_mem_cons.2 ⟨Node.induction leaf pair run node,
      Node.inductionList leaf pair run nodes⟩

end

mutual

/-- **Induction over records.** -/
theorem Record.induction {P : Record → Prop} (h : ∀ r, (∀ child ∈ r.children, P child) → P r) :
    ∀ r, P r
  | ⟨_, _, children, _, _, _, _, _, _⟩ => h _ (Record.inductionList h children)

theorem Record.inductionList {P : Record → Prop}
    (h : ∀ r, (∀ child ∈ r.children, P child) → P r) : ∀ rs : List Record, ∀ r ∈ rs, P r
  | [] => by simp
  | r :: rs => List.forall_mem_cons.2 ⟨Record.induction h r, Record.inductionList h rs⟩

end

/-! ## Depth -/

mutual

/-- How many levels lie below the root. -/
def Node.depth : Node → Nat
  | .leaf .. => 0
  | .pair _ first second _ _ => max first.depth second.depth + 1
  | .run _ children _ _ => levels children

/-- How many levels some trees have, their roots included. -/
def levels : List Node → Nat
  | [] => 0
  | node :: nodes => max (node.depth + 1) (levels nodes)

end

theorem levels_le_iff {nodes : List Node} {n : Nat} :
    levels nodes ≤ n ↔ ∀ node ∈ nodes, node.depth < n := by
  induction nodes with
  | nil => simp [levels]
  | cons node nodes ih => rw [levels, Nat.max_le, ih, List.forall_mem_cons, Nat.succ_le_iff]

namespace Record

mutual

/-- How many levels lie below a record. -/
def depth : Record → Nat
  | ⟨_, _, children, _, _, _, _, _, _⟩ => levels children

/-- How many levels some records have, they themselves included. -/
def levels : List Record → Nat
  | [] => 0
  | r :: rs => max (depth r + 1) (levels rs)

end

theorem depth_eq (r : Record) : r.depth = levels r.children := by
  cases r
  rw [depth]

theorem levels_le_iff {rs : List Record} {n : Nat} : levels rs ≤ n ↔ ∀ r ∈ rs, r.depth < n := by
  induction rs with
  | nil => simp [levels]
  | cons r rs ih => rw [levels, Nat.max_le, ih, List.forall_mem_cons, Nat.succ_le_iff]

end Record

/-! ## Leaves -/

mutual

/-- The leaves of a tree from left to right. -/
def Node.leaves : Node → List Leaf
  | .leaf content _ => [content]
  | .pair _ first second _ _ => first.leaves ++ second.leaves
  | .run _ children _ _ => leavesOf children

def leavesOf : List Node → List Leaf
  | [] => []
  | node :: nodes => node.leaves ++ leavesOf nodes

end

theorem leavesOf_eq_flatMap (nodes : List Node) : leavesOf nodes = nodes.flatMap Node.leaves := by
  induction nodes with
  | nil => rfl
  | cons node nodes ih => rw [leavesOf, ih, List.flatMap_cons]

theorem mem_leavesOf {leaf : Leaf} {nodes : List Node} :
    leaf ∈ leavesOf nodes ↔ ∃ node ∈ nodes, leaf ∈ node.leaves := by
  rw [leavesOf_eq_flatMap, List.mem_flatMap]

theorem slots_eq_flatMap (node : Node) : node.slots = node.leaves.flatMap Leaf.slots := by
  induction node using Node.induction with
  | leaf content hints => simp [Node.slots, Node.leaves]
  | pair op first second markup hints ih₁ ih₂ =>
    rw [Node.slots, Node.leaves, List.flatMap_append, ih₁, ih₂]
  | run form children markup hints ih =>
    rw [Node.slots, Node.leaves, slotsOf_eq_flatMap, leavesOf_eq_flatMap, List.flatMap_assoc]
    exact List.flatMap_congr ih

/-- **The slots of some trees** are their input leaves. -/
theorem mem_slotsOf {slot : Slot} {nodes : List Node} :
    slot ∈ slotsOf nodes ↔ .input slot ∈ leavesOf nodes := by
  have hleaf : ∀ leaf : Leaf, slot ∈ leaf.slots ↔ leaf = .input slot := by
    intro leaf
    cases leaf <;> simp [Leaf.slots, eq_comm]
  rw [slotsOf_eq_flatMap, leavesOf_eq_flatMap]
  simp [slots_eq_flatMap, hleaf]

/-- The identifier of an input is not blank, and an unrecognized kind is not one of the known. -/
def Leaf.Sound : Leaf → Prop
  | input slot => Text.blankOnly slot.id = false
  | unrecognized kind => Kind.ofTag? kind = none
  | text _ | decimal _ | rich _ => True

end MathQuiz

/-! ## Nodes below a node -/

namespace MathQuiz.Node

/-- The node lies `n` levels below the root. -/
inductive Below : Node → Nat → Node → Prop
  | self (node : Node) : Below node 0 node
  | under {root child node : Node} {n : Nat} : child ∈ root.children → Below child n node →
    Below root (n + 1) node

theorem childInduction {P : Node → Prop} (h : ∀ node, (∀ child ∈ node.children, P child) → P node)
    (node : Node) : P node := by
  induction node using Node.induction with
  | leaf content hints => exact h _ (by simp [children])
  | pair op first second markup hints ih₁ ih₂ => exact h _ (by simp [children, ih₁, ih₂])
  | run form cs markup hints ih => exact h _ ih

theorem depth_le_iff {node : Node} {k : Nat} :
    node.depth ≤ k ↔ ∀ child ∈ node.children, child.depth < k := by
  cases node with
  | leaf content hints => simp [depth, children]
  | pair op first second markup hints =>
    rw [depth, Nat.succ_le_iff, Nat.max_lt]
    simp [children]
  | run form cs markup hints => exact levels_le_iff

theorem mem_leaves_iff {leaf : Leaf} {node : Node} : leaf ∈ node.leaves ↔
    (∃ hints, node = .leaf leaf hints) ∨ ∃ child ∈ node.children, leaf ∈ child.leaves := by
  cases node with
  | leaf content hints => simp [leaves, children, eq_comm]
  | pair op first second markup hints => simp [leaves, children]
  | run form cs markup hints => simp [leaves, children, mem_leavesOf]

/-- **The depth of a tree** is the number of levels that nodes lie below its root. -/
theorem depth_le_iff_below {root : Node} {k : Nat} :
    root.depth ≤ k ↔ ∀ n node, root.Below n node → n ≤ k := by
  induction root using childInduction generalizing k with
  | h root ih =>
    rw [depth_le_iff]
    constructor
    · intro h n node hbelow
      cases hbelow with
      | self => exact Nat.zero_le k
      | @under _ child _ n hchild hbelow =>
        have hlt := h child hchild
        have := (ih child hchild).1 (Nat.le_sub_one_of_lt hlt) n node hbelow
        omega
    · intro h child hchild
      have hle : ∀ n node, child.Below n node → n + 1 ≤ k :=
        fun n node hbelow => h _ node (.under hchild hbelow)
      have hpos := hle 0 child (.self child)
      have := (ih child hchild).2 fun n node hbelow => Nat.le_sub_one_of_lt (hle n node hbelow)
      omega

/-- **The leaves of a tree** are those that lie below its root. -/
theorem mem_leaves_iff_below {leaf : Leaf} {root : Node} :
    leaf ∈ root.leaves ↔ ∃ n hints, root.Below n (.leaf leaf hints) := by
  induction root using childInduction with
  | h root ih =>
    rw [mem_leaves_iff]
    constructor
    · rintro (⟨hints, rfl⟩ | ⟨child, hchild, hleaf⟩)
      · exact ⟨0, hints, .self _⟩
      · obtain ⟨n, hints, hbelow⟩ := (ih child hchild).1 hleaf
        exact ⟨n + 1, hints, .under hchild hbelow⟩
    · rintro ⟨n, hints, hbelow⟩
      cases hbelow with
      | self => exact .inl ⟨hints, rfl⟩
      | under hchild hbelow => exact .inr ⟨_, hchild, (ih _ hchild).2 ⟨_, hints, hbelow⟩⟩

end MathQuiz.Node

/-! ## Nodes in reading order -/

namespace MathQuiz

/-- A node that is met in reading, and the nodes it lies below, the nearest one first. -/
structure Visit where
  above : List Node
  node : Node
  deriving DecidableEq

mutual

/-- What is met in reading a tree that lies below the nodes `above`. -/
def Node.visits (above : List Node) : Node → List Visit
  | .leaf content hints => [⟨above, .leaf content hints⟩]
  | .pair op first second markup hints =>
    let node := .pair op first second markup hints
    ⟨above, node⟩ :: (Node.visits (node :: above) first ++ Node.visits (node :: above) second)
  | .run form children markup hints =>
    let node := .run form children markup hints
    ⟨above, node⟩ :: visitsAll (node :: above) children

/-- What is met in reading some trees that lie below the nodes `above`. -/
def visitsAll (above : List Node) : List Node → List Visit
  | [] => []
  | node :: nodes => Node.visits above node ++ visitsAll above nodes

end

theorem visitsAll_eq_flatMap (above nodes : List Node) :
    visitsAll above nodes = nodes.flatMap (Node.visits above) := by
  induction nodes with
  | nil => rw [visitsAll, List.flatMap_nil]
  | cons node nodes ih => rw [visitsAll, ih, List.flatMap_cons]

namespace Node

/-- **Reading goes down through the children,** and each node lies above what is met below it. -/
theorem visits_eq (above : List Node) (node : Node) : node.visits above =
    ⟨above, node⟩ :: node.children.flatMap (visits (node :: above)) := by
  cases node with
  | leaf content hints => simp [visits, children]
  | pair op first second markup hints => simp [visits, children]
  | run form cs markup hints => rw [visits, visitsAll_eq_flatMap, children]

/-- The nodes of a tree in reading order. -/
def preorder (node : Node) : List Node := (node.visits []).map Visit.node

theorem map_node_visits (above : List Node) (node : Node) :
    (node.visits above).map Visit.node = node.preorder := by
  have hany : ∀ above above',
      (node.visits above).map Visit.node = (node.visits above').map Visit.node := by
    induction node using childInduction with
    | h node ih =>
      intro above above'
      rw [visits_eq, visits_eq above', List.map_cons, List.map_cons, List.map_flatMap,
        List.map_flatMap]
      exact congrArg _ (List.flatMap_congr fun child hchild => ih child hchild _ _)
  exact hany above []

theorem preorder_eq (node : Node) : node.preorder = node :: node.children.flatMap preorder := by
  rw [preorder, visits_eq, List.map_cons, List.map_flatMap]
  exact congrArg _ (List.flatMap_congr fun child _ => map_node_visits _ child)

theorem filterMap_preorder {α : Type} (f : Node → Option α) (node : Node) :
    node.preorder.filterMap f =
      (f node).toList ++ node.children.flatMap fun child => child.preorder.filterMap f := by
  rw [preorder_eq, List.filterMap_cons, List.filterMap_flatMap]
  cases f node <;> rfl

theorem forall_mem_preorder {P : Node → Prop} {node : Node} : (∀ n ∈ node.preorder, P n) ↔
    P node ∧ ∀ child ∈ node.children, ∀ n ∈ child.preorder, P n := by
  rw [preorder_eq]
  simp only [List.forall_mem_cons, List.forall_mem_flatMap]

end Node

end MathQuiz
