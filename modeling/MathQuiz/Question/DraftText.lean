import MathQuiz.Expr.Node
import MathQuiz.Notice
import MathQuiz.Numeral.Quantity
import MathQuiz.Question.Basic
import MathQuiz.Expr.Record

/-!
# Drafts of nodes

An author hands in the values of a new node as a draft. It is checked against its kind before
anything is built: the number of values, that none is blank, and that only the kinds that can carry
markup have some. The node goes to the end of a new question; the old one stays as it was.

* `Draft`: kind, values, markup and hints;
* `Arity.Values`, `Draft.check`: as many values as the kind takes, from a draft that passes;
* `Node.build`: the node of checked values;
* `Question.append`: the question with the node of a draft at its end, or why the draft is refused;
* `Draft.ofText`, `Draft.text`: the draft of a JSON text, and its written form.
-/

namespace MathQuiz

/-- The pending values of a node. -/
structure Draft where
  kind : Kind
  values : List String
  markup : Option String
  hints : Hints
  deriving DecidableEq, Repr

/-! ## Checking -/

/-- As many values as an arity says. -/
def Arity.Values : Arity → Type
  | single => String
  | dual => String × String

/-- The values of a list, if it has as many as the arity says. -/
def Arity.ofList? : (a : Arity) → List String → Option a.Values
  | single, [v] => some v
  | dual, [v, w] => some (v, w)
  | _, _ => none

/-- The values of a draft that keeps the rules of its kind, or the first rule that it breaks. -/
def Draft.check (d : Draft) : Except ShapeError d.kind.arity.Values :=
  match d.kind.arity.ofList? d.values with
  | none => .error (.valueCount d.kind d.values.length)
  | some values =>
    match d.values.findIdx? Text.blankOnly with
    | some i => .error (.blankValue d.kind i)
    | none =>
      if d.markup.isSome && !d.kind.acceptsMarkup then .error (.markupNotSupported d.kind)
      else .ok values

/-! ## Building -/

/-- The operand that a value writes: a number if it is one, otherwise a text. -/
def Node.operand (value : String) : Node :=
  let content := Text.trim value
  .leaf (if isDecimal content then .decimal content else .text content) .default

/-- The node of checked values, where `q` has the identifiers already in use. -/
def Node.build (q : Question) (markup : Option String) (hints : Hints) :
    (kind : Kind) → kind.arity.Values → Except ShapeError Node
  | .text, v => .ok (.leaf (.text v) hints)
  | .decimal, v =>
    if isDecimal v then .ok (.leaf (.decimal (Text.trim v)) hints) else .error (.notADecimal v)
  | .fraction, (a, b) => .ok (.pair .fraction (.operand a) (.operand b) markup hints)
  | .exponent, (a, b) => .ok (.pair .exponent (.operand a) (.operand b) markup hints)
  | .algebraic, v => .ok (.run .algebraic (tokenize v) markup hints)
  | .equation, v => .ok (.run .equation (tokenize v) markup hints)
  | .input, (id, expected) =>
    let id := Text.trim id
    if (q.input? id).isSome then .error (.duplicateInputId id) else Node.input? id expected hints
  | .rich, v => .ok (.leaf (.rich v) hints)

def Draft.node (q : Question) (d : Draft) : Except ShapeError Node :=
  d.check.bind (Node.build q d.markup d.hints d.kind)

/-- **The question with the node of a draft at its end.** A refusal leaves a notice. -/
def Question.append (q : Question) (d : Draft) : Logged (Except ShapeError Question) :=
  match d.node q with
  | .ok node => pure (.ok (q.push node))
  | .error e => do
    Logged.tell (.refusedDraft d.kind e)
    return .error e

/-! ## Drafts as JSON text

Kind and values are required; every field is written. -/

namespace Draft

/-- The fields of a draft, where `room` brackets can still be opened. -/
def schema (room : Nat) : Json.Schema Draft where
  name := "Draft"
  defaults := ⟨.text, [], none, .default⟩
  fields := [
    .needed "kind" (Json.oneOf (Kind.all.map fun k => (k.tag, k)) room) fun d v =>
      { d with kind := v },
    .needed "values" (Json.list room fun _ => Json.string) fun d v => { d with values := v },
    .optional "markup" Json.optionalString fun d v => { d with markup := v },
    .optional "placement" (Json.oneOf placements room) fun d v =>
      { d with hints := { d.hints with placement := v } },
    .optional "continuation" (Json.oneOf continuations room) fun d v =>
      { d with hints := { d.hints with continuation := v } }]

/-- Reads a draft with nothing behind it. -/
def ofText (text : String) : Except Json.Fault Draft :=
  Json.wholly (Json.Schema.read schema Json.maxOpen) text

/-- **The written form.** -/
def text (d : Draft) : String :=
  String.ofList <| Json.object [
    ("kind", Json.quote d.kind.tag),
    ("values", Json.array (d.values.map Json.quote)),
    ("markup", Json.ofOption d.markup),
    ("placement", Json.quote d.hints.placement.name),
    ("continuation", Json.quote d.hints.continuation.name)]

end Draft

end MathQuiz
