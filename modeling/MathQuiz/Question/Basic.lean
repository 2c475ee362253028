import MathQuiz.Expr.Node
import MathQuiz.Expr.Record

/-!
# Questions

A question is a list of expression trees. Its answer slots, from left to right at every depth, are
the order in which focus moves and in which answers are checked.

* `Question`: the trees, `Question.slots`, `Question.focusOrder`: the slots and their identifiers;
* `Question.input?`, `Question.duplicateIds`: the first slot with an identifier, and the identifiers
  that occur again;
* `Snapshot`: a question as one value in memory, told apart from equal copies by its stamp;
* `groupSpans`, `Question.groups`: the layout groups, by position and with their nodes;
* `Question.load`, `LoadError`: the question of a text, or what is wrong with it;
* `Question.json`: the written form.
-/

namespace MathQuiz

/-- The expression trees of one question. -/
structure Question where
  nodes : List Node
  deriving DecidableEq

namespace Question

def empty : Question := ⟨[]⟩

/-- The answer slots in canonical order. -/
def slots (q : Question) : List Slot := slotsOf q.nodes

/-- The identifiers of the slots, in the order in which focus moves. -/
def focusOrder (q : Question) : List String := q.slots.map Slot.id

/-- The first slot with this identifier. -/
def input? (q : Question) (id : String) : Option Slot := q.slots.find? (·.id == id)

/-- The question with one more node at its end. -/
def push (q : Question) (node : Node) : Question := ⟨q.nodes ++ [node]⟩

theorem slotsOf_append (as bs : List Node) : slotsOf (as ++ bs) = slotsOf as ++ slotsOf bs := by
  simp [slotsOf_eq_flatMap]

theorem slots_push (q : Question) (node : Node) : (q.push node).slots = q.slots ++ node.slots := by
  simp [push, slots, slotsOf_append, slotsOf]

theorem input?_eq_none_iff {q : Question} {id : String} :
    q.input? id = none ↔ id ∉ q.focusOrder := by
  simp [input?, focusOrder]

/-- The identifiers that stand for the second time, where `before` came earlier. -/
def secondOccurrences (before : List String) : List String → List String
  | [] => []
  | id :: ids =>
    if before.count id = 1 then id :: secondOccurrences (id :: before) ids
    else secondOccurrences (id :: before) ids

/-- The identifiers of more than one slot, in the order of their second slots. -/
def duplicateIds (q : Question) : List String := secondOccurrences [] q.focusOrder

end Question

/-! ## Snapshots -/

/-- A question as one value in memory. Every value that is made gets a stamp of its own, so an
equal copy is another snapshot. -/
structure Snapshot where
  stamp : Nat
  question : Question
  deriving DecidableEq

/-! ## Layout groups

The top-level nodes of a question are laid out in groups. A group ends behind a node that stands on
a new line, that breaks after itself, or that is the last one. The first group is a row; behind a
node on a new line a group is a column, behind any other node a row. -/

/-- The direction in which the nodes of a group are laid out. -/
inductive Direction
  | row
  | column
  deriving DecidableEq, Repr

/-- A group by position: the nodes from `start` up to, but not including, `stop`. -/
structure Span where
  direction : Direction
  start : Nat
  stop : Nat
  deriving DecidableEq, Repr

/-- The direction of the group behind a node with these hints. -/
def Hints.next (h : Hints) : Direction :=
  match h.placement with
  | .newLine => .column
  | .inline => .row

/-- The groups of the nodes from position `index` on, the first of them begun at `start`. -/
def spansFrom (direction : Direction) (start index : Nat) : List Node → List Span
  | [] => []
  | node :: nodes =>
    if node.hints.closes || nodes.isEmpty then
      ⟨direction, start, index + 1⟩ :: spansFrom node.hints.next (index + 1) (index + 1) nodes
    else spansFrom direction start (index + 1) nodes

/-- **The groups of a list of nodes by position.** -/
def groupSpans (nodes : List Node) : List Span := spansFrom .row 0 0 nodes

/-! ### Groups with their nodes -/

/-- Neighbouring nodes laid out together. -/
structure LayoutGroup where
  direction : Direction
  nodes : List Node
  deriving DecidableEq

/-- The group at this position in a list of nodes. -/
def Span.resolve (nodes : List Node) (s : Span) : LayoutGroup :=
  ⟨s.direction, (nodes.drop s.start).take (s.stop - s.start)⟩

def Question.groups (q : Question) : List LayoutGroup :=
  (groupSpans q.nodes).map (Span.resolve q.nodes)

/-! ## Questions as JSON text

A question is written as the list of the records of its nodes. Reading goes through the text once:
each record is read to its end and turned into a node before the next one is looked at, so a broken
shape is reported even if something is wrong further on. -/

/-- Why a text is no question. -/
inductive LoadError
  | text (fault : Json.Fault)
  | shape (error : ShapeError)
  deriving DecidableEq, Repr

namespace Question

/-- The records of a text up to its first fault, and that fault or the text behind the list. -/
def records (text : String) : Json.Progress (List Record) :=
  match Json.skipBlanks text.toList with
  | '[' :: rest => Json.bracketed ']' (Json.nextItem (Record.read (Json.maxOpen - 1))) [] rest
  | cs => ⟨[], .error (Json.wrongType .sequence cs)⟩

/-- **The question of a text.** -/
def load (text : String) : Logged (Except LoadError Question) := do
  let found := records text
  match ← (Record.toNodes found.state).run with
  | .error e => return .error (.shape e)
  | .ok nodes =>
    match found.ending.bind (Json.finish ⟨nodes⟩) with
    | .error f => return .error (.text f)
    | .ok question => return .ok question

/-- **The written form.** -/
def json (q : Question) : String :=
  String.ofList (Json.array (Record.jsons (Record.ofNodes q.nodes)))

end Question

/-- Reads one record with nothing behind it. -/
def Record.ofText (text : String) : Except Json.Fault Record :=
  Json.wholly (Record.read Json.maxOpen) text

def Record.text (r : Record) : String := String.ofList r.json

end MathQuiz
