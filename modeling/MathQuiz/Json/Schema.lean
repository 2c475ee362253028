import MathQuiz.Json.Quoted
import MathQuiz.Json.Scalar

/-!
# Structures in JSON text

A structure is written as an object of its fields in any order, or as an array of them in the order
of their declaration. Unknown keys are skipped, a known key may stand once, and a field left out
keeps its default unless it is required.

* `skip`: from a text to the text behind its first value;
* `SchemaField`, `Schema`: the fields of a structure, each with the reader that stores its value;
* `Schema.ofObject`, `Schema.ofArray`: the two written forms;
* `Schema.read`: either of them.
-/

/-! ## Skipping values

The value of an unknown key is not wanted, but it must still be JSON. It may nest without bound, and
its texts may hold lone surrogates. -/

namespace MathQuiz.Json

/-- Skips a text and its closing quote, behind the opening one. -/
def skipQuoted (cs : List Char) : Except Fault (List Char) := (quoted codeUnit cs).map (·.2)

/-- Skips a number. A number that is cut short is malformed, even at the end of the text. -/
def skipNumber (cs : List Char) : Except Fault (List Char) :=
  match numberText cs with
  | .error _ => .error .malformed
  | .ok (_, rest) => .ok rest

/-- Skips a key and its colon, and goes on with the value. -/
def skipMember (value : List Char → Except Fault (List Char)) : Unit → Reader Unit := fun _ cs => do
  let (_, rest) ← key codeUnit cs
  let rest ← expect ':' rest
  return ((), ← value rest)

/-- Skips a value nested less than `depth` deep. -/
def skipNested : Nat → List Char → Except Fault (List Char)
  | 0, _ => .error .endOfText
  | depth + 1, cs =>
    match skipBlanks cs with
    | [] => .error .endOfText
    | 'n' :: rest => (literal () "ull".toList rest).map (·.2)
    | 't' :: rest => (literal () "rue".toList rest).map (·.2)
    | 'f' :: rest => (literal () "alse".toList rest).map (·.2)
    | '"' :: rest => skipQuoted rest
    | '[' :: rest =>
      (bracketed ']' (fun _ cs => (skipNested depth cs).map ((), ·)) () rest).ending
    | '{' :: rest => (bracketed '}' (skipMember (skipNested depth)) () rest).ending
    | c :: rest =>
      if c = '-' ∨ (Numeral.digit? c).isSome then skipNumber (c :: rest) else .error .malformed

/-- **Skips a value.** Each level of nesting takes a character, so the length bounds the depth. -/
def skip (cs : List Char) : Except Fault (List Char) := skipNested (cs.length + 1) cs

/-! ## Fields -/

/-- A field of a structure `σ`, and how its value is read and stored. -/
structure SchemaField (σ : Type) where
  name : String
  required : Bool
  store : σ → Reader σ

/-- A field whose value is optional and read by `read`. -/
def SchemaField.optional {σ α : Type} (name : String) (read : Reader α) (set : σ → α → σ) :
    SchemaField σ :=
  ⟨name, false, fun s cs => (read cs).map fun (a, rest) => (set s a, rest)⟩

/-- A field whose value is required and read by `read`. -/
def SchemaField.needed {σ α : Type} (name : String) (read : Reader α) (set : σ → α → σ) :
    SchemaField σ :=
  { SchemaField.optional name read set with required := true }

/-- A structure with its defaults and its fields in the order of declaration. -/
structure Schema (σ : Type) where
  name : String
  defaults : σ
  fields : List (SchemaField σ)

namespace Schema

variable {σ : Type} (schema : Schema σ)

/-! ### Objects -/

/-- Reads a key with its value: stores that of a known key, which is new, and skips any other. -/
def member (s : σ × List String) : Reader (σ × List String) := fun cs => do
  let (name, rest) ← key codePoint cs
  match schema.fields.find? (·.name == name) with
  | some field =>
    if name ∈ s.2 then .error (.mismatch (.duplicateField name))
    else
      let rest ← expect ':' rest
      let (value, rest) ← field.store s.1 rest
      return ((value, name :: s.2), rest)
  | none =>
    let rest ← expect ':' rest
    return (s, ← skip rest)

/-- The first required field that is not among the given ones. -/
def missing? (given : List String) : Option (SchemaField σ) :=
  schema.fields.find? fun f => f.required && !given.contains f.name

/-- Reads an object behind its opening bracket. -/
def ofObject (cs : List Char) : Except Fault (σ × List Char) :=
  match (bracketed '}' schema.member (schema.defaults, []) cs).toExcept with
  | .error f => .error f
  | .ok ((s, given), rest) =>
    match schema.missing? given with
    | some field => .error (.mismatch (.missingField field.name))
    | none => .ok (s, rest)

/-! ### Arrays -/

/-- Reads the value of the next field. There is none behind the last. -/
def element (s : σ × List (SchemaField σ)) : Reader (σ × List (SchemaField σ)) := fun cs =>
  match s.2 with
  | [] => .error .malformed
  | field :: fields => (field.store s.1 cs).map fun (value, rest) => ((value, fields), rest)

/-- Reads an array behind its opening bracket. -/
def ofArray (cs : List Char) : Except Fault (σ × List Char) :=
  match (bracketed ']' element (schema.defaults, schema.fields) cs).toExcept with
  | .error f => .error f
  | .ok ((s, left), rest) =>
    let size := schema.fields.length
    if left.any (·.required) then
      .error (.mismatch (.invalidLength (size - left.length) schema.name size))
    else .ok (s, rest)

end Schema

/-- **Reads a structure,** where `room` brackets can still be opened; `schema` is given the room
inside. -/
def Schema.read {σ : Type} (schema : Nat → Schema σ) (room : Nat) : Reader σ := fun cs =>
  match skipBlanks cs with
  | '{' :: rest => opening room fun room => (schema room).ofObject rest
  | '[' :: rest => opening room fun room => (schema room).ofArray rest
  | cs => .error (wrongType (.fieldsOf (schema room).name) cs)

end MathQuiz.Json
