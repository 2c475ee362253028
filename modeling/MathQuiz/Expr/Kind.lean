/-!
# Kinds of nodes

Eight kinds of nodes can be authored. Each has a tag, under which records and drafts name it, and an
arity, which says how many values a draft of it takes.

* `Kind`, `Kind.tag`, `Kind.ofTag?`: the kinds and their tags;
* `Arity`, `Kind.arity`: the number of values of a draft;
* `Kind.acceptsMarkup`: the kinds whose nodes can carry markup in place of their own rendering;
* `ShapeError`, `ShapeError.message`: how a node or a draft can fail to have the shape of its kind.
-/

namespace MathQuiz

/-- The kinds of nodes that can be authored. -/
inductive Kind
  | text
  | decimal
  | fraction
  | exponent
  | algebraic
  | equation
  | input
  | rich
  deriving DecidableEq, Repr

/-- How many values a draft takes. -/
inductive Arity
  | single
  | dual
  deriving DecidableEq, Repr

def Arity.count : Arity → Nat
  | single => 1
  | dual => 2

def Arity.describe : Arity → String
  | single => "single-value"
  | dual => "dual-value"

namespace Kind

def all : List Kind := [text, decimal, fraction, exponent, algebraic, equation, input, rich]

/-- The tag under which records and drafts name the kind. -/
def tag : Kind → String
  | text => "text"
  | decimal => "decimal"
  | fraction => "fraction"
  | exponent => "exponent"
  | algebraic => "algebraic"
  | equation => "equation"
  | input => "input"
  | rich => "rich"

/-- The kind with this tag. -/
def ofTag? (s : String) : Option Kind := all.find? (·.tag == s)

theorem ofTag?_tag (k : Kind) : ofTag? k.tag = some k := by cases k <;> decide

theorem ofTag?_eq_some_iff {s : String} {k : Kind} : ofTag? s = some k ↔ s = k.tag := by
  constructor
  · intro h
    have := List.find?_some h
    simp_all
  · rintro rfl
    exact ofTag?_tag k

/-- The two operands of a fraction or an exponent, and the identifier and the expected answer of an
input, make two values; every other kind takes one. -/
def arity : Kind → Arity
  | fraction | exponent | input => .dual
  | text | decimal | algebraic | equation | rich => .single

/-- Nodes of this kind can carry markup. -/
def acceptsMarkup : Kind → Bool
  | fraction | exponent | algebraic | equation => true
  | text | decimal | input | rich => false

end Kind

/-! ## Broken shapes -/

/-- The fields that records of some kinds must have. -/
inductive RequiredField
  | value
  | payload
  | id
  | expected
  deriving DecidableEq, Repr

def RequiredField.name : RequiredField → String
  | value => "value"
  | payload => "payload"
  | id => "id"
  | expected => "expected"

/-- How a node or a draft can fail to have the shape of its kind. -/
inductive ShapeError
  | childCount (kind : Kind) (got : Nat)
  | valueCount (kind : Kind) (got : Nat)
  | blankValue (kind : Kind) (index : Nat)
  | blankInputId
  | duplicateInputId (id : String)
  | notADecimal (value : String)
  | markupNotSupported (kind : Kind)
  | missingField (kind : Kind) (field : RequiredField)
  deriving DecidableEq, Repr

/-- The broken rule in words. -/
def ShapeError.message : ShapeError → String
  | childCount kind got =>
    kind.tag ++ " requires exactly two children, but got " ++ toString got
  | valueCount kind got =>
    kind.tag ++ " is " ++ kind.arity.describe ++ " and takes " ++ toString kind.arity.count ++
      " value(s), but got " ++ toString got
  | blankValue kind index =>
    kind.tag ++ " is " ++ kind.arity.describe ++ ", but value " ++ toString index ++ " is blank"
  | blankInputId => "input id must not be blank"
  | duplicateInputId id => "input id `" ++ id ++ "` is already used in this document"
  | notADecimal value => "`" ++ value ++ "` is not a decimal number"
  | markupNotSupported kind => "override markup is not supported by " ++ kind.tag
  | missingField kind field => kind.tag ++ " record is missing `" ++ field.name ++ "`"

end MathQuiz
