import MathQuiz.Expr.Node
import MathQuiz.Notice
import MathQuiz.Json.Schema
import MathQuiz.Json.Quoted

/-!
# Records of nodes

Content is stored as records: loose bags of optional fields under a tag. Reading a tree from a
record goes through the checked constructions, so a shape is enforced for every kind that is known;
a record of an unknown kind becomes an unrecognized leaf, and its children are not looked at.

* `Record`: the loose form;
* `Record.toNode`: the tree of a record, or the first shape that is broken, with a notice for each
  unknown kind met before;
* `Record.ofNode`: the record of a tree, which has no field that its kind does not use;
* `Record.schema`, `Record.read`: the fields of a record, and its reader, where only so many
  brackets can be opened;
* `Record.json`: the written form.
-/

namespace MathQuiz

/-- The loose form of a node. -/
structure Record where
  kind : String
  value : Option String
  children : List Record
  markup : Option String
  id : Option String
  expected : Option String
  payload : Option String
  placement : Placement
  continuation : Continuation

namespace Record

def hints (r : Record) : Hints := ⟨r.placement, r.continuation⟩

/-- The record of a kind with its hints and no other field. -/
def bare (kind : String) (hints : Hints) : Record :=
  ⟨kind, none, [], none, none, none, none, hints.placement, hints.continuation⟩

/-! ### Equality -/

mutual

def decEq : (a b : Record) → Decidable (a = b)
  | ⟨k, v, cs, m, i, e, p, pl, co⟩, ⟨k', v', cs', m', i', e', p', pl', co'⟩ =>
    if h : (k = k' ∧ v = v' ∧ m = m' ∧ i = i') ∧ e = e' ∧ p = p' ∧ pl = pl' ∧ co = co' then
      match decEqList cs cs' with
      | isFalse n => isFalse fun eq => n (by injection eq)
      | isTrue ec =>
        isTrue (by
          obtain ⟨⟨rfl, rfl, rfl, rfl⟩, rfl, rfl, rfl, rfl⟩ := h
          rw [ec])
    else isFalse fun eq => h (by injection eq; simp_all)

def decEqList : (as bs : List Record) → Decidable (as = bs)
  | [], [] => isTrue rfl
  | [], _ :: _ | _ :: _, [] => isFalse nofun
  | a :: as, b :: bs =>
    match decEq a b with
    | isFalse n => isFalse fun eq => n (by injection eq)
    | isTrue ea =>
      match decEqList as bs with
      | isFalse n => isFalse fun eq => n (by injection eq)
      | isTrue es => isTrue (by rw [ea, es])

end

instance : DecidableEq Record := decEq

/-! ### From records to trees -/

/-- A result that notices are made for, and that a broken shape can prevent. -/
abbrev Checked := ExceptT ShapeError Logged

/-- The value of a field that a record of this kind must have. -/
def required (kind : Kind) (field : RequiredField) : Option String → Except ShapeError String
  | some value => .ok value
  | none => .error (.missingField kind field)

mutual

/-- **The tree of a record.** Children come before the count of them, and an identifier before the
expected answer before the check that the identifier is not blank. -/
def toNode : Record → Checked Node
  | ⟨kind, value, children, markup, id, expected, payload, placement, continuation⟩ =>
    let hints : Hints := ⟨placement, continuation⟩
    match Kind.ofTag? kind with
    | some .text => do return .leaf (.text (← required .text .value value)) hints
    | some .decimal => do return .leaf (.decimal (← required .decimal .value value)) hints
    | some .fraction => do Node.pair? .fraction (← toNodes children) markup hints
    | some .exponent => do Node.pair? .exponent (← toNodes children) markup hints
    | some .algebraic => do return .run .algebraic (← toNodes children) markup hints
    | some .equation => do return .run .equation (← toNodes children) markup hints
    | some .input => do
      let id ← required .input .id id
      let expected ← required .input .expected expected
      Node.input? id expected hints
    | some .rich => do return .leaf (.rich (← required .rich .payload payload)) hints
    | none => do
      Logged.tell (.unknownRecord kind)
      return .leaf (.unrecognized kind) hints

/-- The trees of some records from left to right, up to the first broken shape. -/
def toNodes : List Record → Checked (List Node)
  | [] => pure []
  | record :: records => do
    let node ← toNode record
    let nodes ← toNodes records
    return node :: nodes

end

/-! ### From trees to records -/

def ofLeaf (hints : Hints) : Leaf → Record
  | .text content => { bare Kind.text.tag hints with value := some content }
  | .decimal content => { bare Kind.decimal.tag hints with value := some content }
  | .input slot =>
    { bare Kind.input.tag hints with id := some slot.id, expected := some slot.expected }
  | .rich payload => { bare Kind.rich.tag hints with payload := some payload }
  | .unrecognized kind => bare kind hints

mutual

/-- **The record of a tree.** -/
def ofNode : Node → Record
  | .leaf content hints => ofLeaf hints content
  | .pair op first second markup hints =>
    { bare op.kind.tag hints with children := [ofNode first, ofNode second], markup := markup }
  | .run form children markup hints =>
    { bare form.kind.tag hints with children := ofNodes children, markup := markup }

def ofNodes : List Node → List Record
  | [] => []
  | node :: nodes => ofNode node :: ofNodes nodes

end

theorem ofNodes_eq_map (nodes : List Node) : ofNodes nodes = nodes.map ofNode := by
  induction nodes with
  | nil => rfl
  | cons node nodes ih => rw [ofNodes, ih, List.map_cons]

end Record

/-! ## Records as JSON text

A record is written as an object of its fields in the order of their declaration. Absent fields, an
empty list of children and the default hints are left out. -/

/-- The names of the placements. -/
def placements : List (String × Placement) := [("inline", .inline), ("new-line", .newLine)]

/-- The names of the continuations. -/
def continuations : List (String × Continuation) :=
  [("continue", .goOn), ("break-after", .breakAfter)]

def Placement.name : Placement → String
  | inline => "inline"
  | newLine => "new-line"

def Continuation.name : Continuation → String
  | goOn => "continue"
  | breakAfter => "break-after"

namespace Record

/-! ### Reading -/

/-- The fields of a record, where `room` brackets can still be opened and `child` reads a record
inside the list of children. -/
def schema (child : Json.Reader Record) (room : Nat) : Json.Schema Record where
  name := "NodeRecord"
  defaults := bare "" .default
  fields := [
    .needed "kind" Json.string fun r v => { r with kind := v },
    .optional "value" Json.optionalString fun r v => { r with value := v },
    .optional "children" (Json.list room fun _ => child) fun r v => { r with children := v },
    .optional "markup" Json.optionalString fun r v => { r with markup := v },
    .optional "id" Json.optionalString fun r v => { r with id := v },
    .optional "expected" Json.optionalString fun r v => { r with expected := v },
    .optional "payload" Json.optionalString fun r v => { r with payload := v },
    .optional "placement" (Json.oneOf placements room) fun r v => { r with placement := v },
    .optional "continuation" (Json.oneOf continuations room) fun r v =>
      { r with continuation := v }]

/-- Reads a record with a given reader for its children. -/
def readWith (child : Json.Reader Record) (room : Nat) : Json.Reader Record :=
  Json.Schema.read (schema child) room

/-- Reads a record where `room` brackets can be opened. A child has two less: its record and the
list around it take one each. -/
def read : Nat → Json.Reader Record
  | 0 => readWith (fun _ => .error .malformed) 0
  | 1 => readWith (fun _ => .error .malformed) 1
  | room + 2 => readWith (read room) (room + 2)

/-! ### Writing -/

/-- A member for a text, if it is there. -/
def textMember (key : String) : Option String → List (String × List Char)
  | none => []
  | some s => [(key, Json.quote s)]

/-- The member for the placement, unless it is the default. -/
def placementMember : Placement → List (String × List Char)
  | .inline => []
  | p => [("placement", Json.quote p.name)]

/-- The member for the continuation, unless it is the default. -/
def continuationMember : Continuation → List (String × List Char)
  | .goOn => []
  | c => [("continuation", Json.quote c.name)]

/-- The member for the children, if there are any, from their written forms. -/
def childrenMember (children : List (List Char)) : List (String × List Char) :=
  if children.isEmpty then [] else [("children", Json.array children)]

mutual

/-- **The written form of a record.** -/
def json : Record → List Char
  | ⟨kind, value, children, markup, id, expected, payload, placement, continuation⟩ =>
    Json.object <|
      ("kind", Json.quote kind) :: textMember "value" value ++ childrenMember (jsons children) ++
        textMember "markup" markup ++ textMember "id" id ++ textMember "expected" expected ++
        textMember "payload" payload ++ placementMember placement ++ continuationMember continuation

def jsons : List Record → List (List Char)
  | [] => []
  | record :: records => json record :: jsons records

end

theorem jsons_eq_map (records : List Record) : jsons records = records.map json := by
  induction records with
  | nil => rfl
  | cons record records ih => rw [jsons, ih, List.map_cons]

end Record

end MathQuiz
