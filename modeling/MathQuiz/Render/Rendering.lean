import MathQuiz.Expr.Node
import MathQuiz.Notice
import MathQuiz.Text.Basic
import MathQuiz.Question.Basic

/-!
# Renderings

A question is rendered as LaTeX and as speech, node by node, and a cache keeps the rendering that
was asked for last.

* `LatexSettings`, `SpeechSettings`: the words of both renderings;
* `escapeText`: an identifier as LaTeX text;
* `Node.latex`, `latexAll`: the LaTeX of a node, and of nodes in a row;
* `Node.speech`, `speechAll`, `Node.fragments`: the speech of a node and of nodes in a row, and all
  that is read out in one flat list;
* `Rendering`, `Rendering.compute`: the groups of a question with the LaTeX and the speech of each
  of its nodes;
* `RenderCache`: the rendering of the snapshot asked for last, made anew only for another one.
-/

/-! ## LaTeX

Inner nodes that carry markup are rendered as that markup, and nothing below them is looked at. An
answer slot is a box with its identifier, never with the answer expected. -/

namespace MathQuiz

/-- The words of the LaTeX rendering. -/
structure LatexSettings where
  multiplicationSign : Char
  timesToken : String
  displayOpen : String
  displayClose : String
  richPlaceholder : String
  deriving DecidableEq, Repr

/-- The words in use unless others are set. -/
def LatexSettings.default : LatexSettings where
  multiplicationSign := '*'
  timesToken := "\\times "
  displayOpen := "\\["
  displayClose := "\\]"
  richPlaceholder := "\\text\x7b[rich]\x7d"

/-- A character as LaTeX text. -/
def escapeChar (c : Char) : List Char :=
  if c = '\\' then "\\textbackslash\x7b\x7d".toList
  else if c = '~' then "\\textasciitilde\x7b\x7d".toList
  else if c = '^' then "\\textasciicircum\x7b\x7d".toList
  else if c ∈ ['{', '}', '$', '&', '#', '_', '%'] then ['\\', c]
  else [c]

/-- A text as LaTeX text. -/
def escapeText (s : String) : String := String.ofList (s.toList.flatMap escapeChar)

def braced (s : String) : String := "\x7b" ++ s ++ "\x7d"

/-- The LaTeX of a pair from that of its children. -/
def Pairing.latex (op : Pairing) (first second : String) : String :=
  match op with
  | fraction => "\\frac" ++ braced first ++ braced second
  | exponent => braced first ++ "^" ++ braced second

namespace LatexSettings

variable (w : LatexSettings)

/-- A text with the word for each multiplication sign. -/
def text (content : String) : String :=
  String.ofList (content.toList.flatMap fun c =>
    if c = w.multiplicationSign then w.timesToken.toList else [c])

/-- The LaTeX of a leaf. -/
def leaf : Leaf → Logged String
  | .text content => pure (w.text content)
  | .decimal content => pure content
  | .input slot => pure ("\\boxed" ++ braced ("\\text" ++ braced (escapeText slot.id)))
  | .rich _ => pure w.richPlaceholder
  | .unrecognized kind => do
    Logged.tell (.renderedAsNothing .latex kind)
    return ""

/-- The markup of a sequence, which an equation displays on its own. -/
def displayed (form : Sequence) (markup : String) : String :=
  match form with
  | .algebraic => markup
  | .equation => w.displayOpen ++ markup ++ w.displayClose

end LatexSettings

mutual

/-- **The LaTeX of a node.** -/
def Node.latex (w : LatexSettings) : Node → Logged String
  | .leaf content _ => w.leaf content
  | .pair _ _ _ (some markup) _ => pure markup
  | .pair op first second none _ => do
    let a ← Node.latex w first
    let b ← Node.latex w second
    return op.latex a b
  | .run form _ (some markup) _ => pure (w.displayed form markup)
  | .run _ children none _ => latexAll w children

def latexAll (w : LatexSettings) : List Node → Logged String
  | [] => pure ""
  | node :: nodes => do
    let a ← Node.latex w node
    let b ← latexAll w nodes
    return a ++ b

end

/-! ## Speech

A tree is read out from left to right, a word standing for the bar of a fraction, for the step up to
an exponent, and for each answer slot. Markup is never spoken; rich content is spoken as its visible
text. -/

/-- The words of the speech rendering. -/
structure SpeechSettings where
  fractionWord : String
  powerWord : String
  inputWord : String
  deriving DecidableEq, Repr

namespace SpeechSettings

/-- The words in use unless others are set. -/
def default : SpeechSettings := ⟨"over", "to the power", "input"⟩

variable (w : SpeechSettings)

/-- The word between the two parts of a pair. -/
def between : Pairing → String
  | .fraction => w.fractionWord
  | .exponent => w.powerWord

/-- What is read out for a leaf. -/
def fragment : Leaf → String
  | .text content => content
  | .decimal content => content
  | .input _ => w.inputWord
  | .rich payload => Text.visible payload
  | .unrecognized _ => ""

/-- The speech of a leaf. -/
def leaf (content : Leaf) : Logged String :=
  match content with
  | .unrecognized kind => do
    Logged.tell (.renderedAsNothing .speech kind)
    return w.fragment content
  | _ => pure (w.fragment content)

end SpeechSettings

mutual

/-- **The speech of a node.** -/
def Node.speech (w : SpeechSettings) : Node → Logged String
  | .leaf content _ => w.leaf content
  | .pair op first second _ _ => do
    let a ← Node.speech w first
    let b ← Node.speech w second
    return Text.joinWords [a, w.between op, b]
  | .run _ children _ _ => do
    let parts ← speeches w children
    return Text.joinWords parts

def speeches (w : SpeechSettings) : List Node → Logged (List String)
  | [] => pure []
  | node :: nodes => do
    let a ← Node.speech w node
    let rest ← speeches w nodes
    return a :: rest

end

def speechAll (w : SpeechSettings) (nodes : List Node) : Logged String := do
  return Text.joinWords (← speeches w nodes)

mutual

/-- All that is read out for a node, from left to right. -/
def Node.fragments (w : SpeechSettings) : Node → List String
  | .leaf content _ => [w.fragment content]
  | .pair op first second _ _ =>
    Node.fragments w first ++ w.between op :: Node.fragments w second
  | .run _ children _ _ => fragmentsAll w children

/-- All that is read out for some nodes, from left to right. -/
def fragmentsAll (w : SpeechSettings) : List Node → List String
  | [] => []
  | node :: nodes => Node.fragments w node ++ fragmentsAll w nodes

end

/-! ## Rendered questions -/

/-- All that is needed to draw a question: its groups, and both texts of each node. -/
structure Rendering where
  spans : List Span
  latex : List String
  speech : List String
  deriving DecidableEq, Repr

def latexes (w : LatexSettings) : List Node → Logged (List String)
  | [] => pure []
  | node :: nodes => do
    let a ← node.latex w
    let rest ← latexes w nodes
    return a :: rest

/-- **The rendering of a question.** -/
def Rendering.compute (latex : LatexSettings) (speech : SpeechSettings) (q : Question) :
    Logged Rendering := do
  let l ← latexes latex q.nodes
  let s ← speeches speech q.nodes
  return ⟨groupSpans q.nodes, l, s⟩

def Rendering.groups (r : Rendering) (q : Question) : List LayoutGroup :=
  r.spans.map (Span.resolve q.nodes)

def Question.latex (w : LatexSettings) (q : Question) : Logged String := latexAll w q.nodes

def Question.speech (w : SpeechSettings) (q : Question) : Logged String := speechAll w q.nodes

/-! ### Cache -/

/-- The rendering of one snapshot, and how many renderings were computed so far. -/
structure RenderCache where
  latex : LatexSettings
  speech : SpeechSettings
  entry : Option (Snapshot × Rendering)
  computed : Nat

namespace RenderCache

/-- A cache that holds nothing yet. -/
def new (latex : LatexSettings) (speech : SpeechSettings) : RenderCache :=
  ⟨latex, speech, none, 0⟩

/-- The rendering that is held for this snapshot. -/
def lookup? (c : RenderCache) (s : Snapshot) : Option Rendering :=
  match c.entry with
  | some (held, rendering) => if held = s then some rendering else none
  | none => none

def holds (c : RenderCache) (s : Snapshot) : Bool := (c.lookup? s).isSome

/-- **The rendering of a snapshot,** computed unless it is held, and the cache that holds it. -/
def get (c : RenderCache) (s : Snapshot) : Logged (Rendering × RenderCache) :=
  match c.lookup? s with
  | some rendering => pure (rendering, c)
  | none => do
    let rendering ← Rendering.compute c.latex c.speech s.question
    return (rendering, { c with entry := some (s, rendering), computed := c.computed + 1 })

/-- The cache with nothing in it. -/
def invalidate (c : RenderCache) : RenderCache := { c with entry := none }

end RenderCache

end MathQuiz
