import MathQuiz.Expr.Kind
import MathQuiz.Text.Basic

/-!
# Expression trees

A question is made of nodes. Leaves are text, numbers, answer slots and rich content; a fraction or
an exponent holds exactly two nodes, an algebraic expression or an equation any number of them. A
node of a kind that is not known stands in the tree as a leaf with the name of its kind.

* `Placement`, `Continuation`, `Hints`: where a node asks to be laid out;
* `Slot`: an answer slot with its identifier and the answer expected;
* `Node`: the trees, with `Node.children`, `Node.markup`, `Node.kindName`;
* `Node.pair?`, `Node.input?`: the constructions that check the shape;
* `Node.decEq`: equality of trees is decidable;
* `Node.slots`, `slotsOf`: the slots in canonical order;
* `tokens`, `tokenize`: the pieces of an expression, and the nodes of them.
-/

namespace MathQuiz

/-! ## Layout hints -/

/-- Whether a node stands in line or on a new line. -/
inductive Placement
  | inline
  | newLine
  deriving DecidableEq, Repr

/-- Whether layout goes on behind a node or breaks. -/
inductive Continuation
  | goOn
  | breakAfter
  deriving DecidableEq, Repr

/-- Where a node asks to be laid out. -/
structure Hints where
  placement : Placement
  continuation : Continuation
  deriving DecidableEq, Repr

namespace Hints

/-- In line, and going on. -/
def default : Hints := ⟨.inline, .goOn⟩

/-- No other node is laid out with the ones up to a node with these hints. -/
def closes (h : Hints) : Bool := h.placement == .newLine || h.continuation == .breakAfter

end Hints

/-! ## Nodes -/

/-- An answer slot: its identifier and the answer expected. -/
structure Slot where
  id : String
  expected : String
  deriving DecidableEq, Repr

/-- The nodes without children. -/
inductive Leaf
  | text (content : String)
  | decimal (content : String)
  | input (slot : Slot)
  | rich (payload : String)
  | unrecognized (kind : String)
  deriving DecidableEq, Repr

/-- The kinds with exactly two children. -/
inductive Pairing
  | fraction
  | exponent
  deriving DecidableEq, Repr

/-- The kinds with any number of children. -/
inductive Sequence
  | algebraic
  | equation
  deriving DecidableEq, Repr

/-- **An expression tree.** The markup of an inner node, if it has any, stands for its rendering. -/
inductive Node
  | leaf (content : Leaf) (hints : Hints)
  | pair (op : Pairing) (first second : Node) (markup : Option String) (hints : Hints)
  | run (form : Sequence) (children : List Node) (markup : Option String) (hints : Hints)

def Pairing.kind : Pairing → Kind
  | fraction => .fraction
  | exponent => .exponent

def Sequence.kind : Sequence → Kind
  | algebraic => .algebraic
  | equation => .equation

def Leaf.kindName : Leaf → String
  | text _ => Kind.text.tag
  | decimal _ => Kind.decimal.tag
  | input _ => Kind.input.tag
  | rich _ => Kind.rich.tag
  | unrecognized kind => kind

namespace Node

def kindName : Node → String
  | leaf content _ => content.kindName
  | pair op .. => op.kind.tag
  | run form .. => form.kind.tag

def children : Node → List Node
  | leaf .. => []
  | pair _ first second .. => [first, second]
  | run _ children .. => children

/-- The markup that stands for the rendering of a node. -/
def markup : Node → Option String
  | leaf .. => none
  | pair _ _ _ markup _ | run _ _ markup _ => markup

def hints : Node → Hints
  | leaf _ hints | pair _ _ _ _ hints | run _ _ _ hints => hints

/-- The same node with other hints. -/
def withHints (h : Hints) : Node → Node
  | leaf content _ => leaf content h
  | pair op first second markup _ => pair op first second markup h
  | run form children markup _ => run form children markup h

/-! ### Checked construction -/

/-- The pair of exactly two children. -/
def pair? (op : Pairing) (children : List Node) (markup : Option String) (hints : Hints) :
    Except ShapeError Node :=
  match children with
  | [first, second] => .ok (pair op first second markup hints)
  | _ => .error (.childCount op.kind children.length)

/-- The answer slot with an identifier that is not blank. -/
def input? (id expected : String) (hints : Hints) : Except ShapeError Node :=
  if Text.blankOnly id then .error .blankInputId else .ok (leaf (.input ⟨id, expected⟩) hints)

/-! ### Equality -/

mutual

def decEq : (a b : Node) → Decidable (a = b)
  | leaf c h, leaf c' h' =>
    if e : c = c' ∧ h = h' then isTrue (by rw [e.1, e.2])
    else isFalse fun eq => e (by injection eq; exact ⟨‹_›, ‹_›⟩)
  | pair o a b m h, pair o' a' b' m' h' =>
    if e : o = o' ∧ m = m' ∧ h = h' then
      match decEq a a' with
      | isFalse n => isFalse fun eq => n (by injection eq)
      | isTrue ea =>
        match decEq b b' with
        | isFalse n => isFalse fun eq => n (by injection eq)
        | isTrue eb => isTrue (by rw [e.1, e.2.1, e.2.2, ea, eb])
    else isFalse fun eq => e (by injection eq; exact ⟨‹_›, ‹_›, ‹_›⟩)
  | run f cs m h, run f' cs' m' h' =>
    if e : f = f' ∧ m = m' ∧ h = h' then
      match decEqList cs cs' with
      | isFalse n => isFalse fun eq => n (by injection eq)
      | isTrue ec => isTrue (by rw [e.1, e.2.1, e.2.2, ec])
    else isFalse fun eq => e (by injection eq; exact ⟨‹_›, ‹_›, ‹_›⟩)
  | leaf .., pair .. | leaf .., run .. | pair .., leaf .. | pair .., run .. | run .., leaf ..
  | run .., pair .. => isFalse nofun

def decEqList : (as bs : List Node) → Decidable (as = bs)
  | [], [] => isTrue rfl
  | [], _ :: _ | _ :: _, [] => isFalse nofun
  | a :: as, b :: bs =>
    match decEq a b with
    | isFalse n => isFalse fun eq => n (by injection eq)
    | isTrue ea =>
      match decEqList as bs with
      | isFalse n => isFalse fun eq => n (by injection eq)
      | isTrue es => isTrue (by rw [ea, es])

end

instance : DecidableEq Node := decEq

end Node

/-! ## Answer slots

The canonical order is from left to right at every depth. Markup hides no slot, and the payload of
rich content holds none. -/

/-- The slot that a leaf is. -/
def Leaf.slots : Leaf → List Slot
  | input slot => [slot]
  | text _ | decimal _ | rich _ | unrecognized _ => []

mutual

/-- The slots of a tree from left to right. -/
def Node.slots : Node → List Slot
  | .leaf content _ => content.slots
  | .pair _ first second _ _ => first.slots ++ second.slots
  | .run _ children _ _ => slotsOf children

/-- The slots of some trees from left to right. -/
def slotsOf : List Node → List Slot
  | [] => []
  | node :: nodes => node.slots ++ slotsOf nodes

end

theorem slotsOf_eq_flatMap (nodes : List Node) : slotsOf nodes = nodes.flatMap Node.slots := by
  induction nodes with
  | nil => rfl
  | cons node nodes ih => rw [slotsOf, ih, List.flatMap_cons]

/-! ## Splitting an expression

An expression is split the way it is typed on a calculator: a run of digits and points is one
number, every other character is a text of its own, and blanks are dropped. -/

/-- The character is part of a number. -/
def isNumeric (c : Char) : Bool := c.isDigit || c == '.'

/-- The pieces of an expression that are not blank. -/
def tokens (cs : List Char) : List (List Char) :=
  (Text.runs isNumeric cs).filter (!·.all Text.isBlank)

/-- The node of a piece: a number if it begins like one, otherwise a text. -/
def Node.ofToken (piece : List Char) : Node :=
  let content := String.ofList piece
  if piece.head?.any isNumeric then .leaf (.decimal content) .default
  else .leaf (.text content) .default

/-- **The nodes of an expression,** from left to right. -/
def tokenize (expression : String) : List Node := (tokens expression.toList).map Node.ofToken

end MathQuiz
