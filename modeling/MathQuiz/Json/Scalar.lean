import MathQuiz.Numeral.Decimal
import MathQuiz.Json.Reader
import MathQuiz.Json.Quoted

/-!
# Numbers, texts, names and lists in JSON text

Each reader first looks at one character. If it cannot begin the value wanted, the reader says what
begins there instead. No value of this library is a JSON number, so numbers are read only to be
named in a fault.

* `NumberText`, `numberText`, `NumberText.value`: the grammar of numbers, and the number found;
* `found`, `wrongType`: the value that stands where another was wanted;
* `string`, `optionalString`, `boolean`, `character`: the scalar values;
* `maxOpen`, `opening`, `list`: brackets, of which only so many may be open at once, and lists;
* `oneOf`: one of several names, alone or as the key of an object that holds `null`.
-/

/-! ## Numbers

A number is found as an integer if it is written as one and fits into 64 bits, and otherwise as a
floating-point number. -/

namespace MathQuiz.Json

open Numeral

/-- The digits of a number: before the point, behind it, and in the exponent with its sign. -/
structure NumberText where
  negative : Bool
  whole : List Nat
  fraction : Option (List Nat)
  exponent : Option (Bool × List Nat)
  deriving DecidableEq, Repr

/-! ### Grammar -/

/-- Takes digits off the front of a text. -/
def takeDigits : List Char → List Nat × List Char
  | [] => ([], [])
  | c :: cs =>
    match digit? c with
    | some d => (d :: (takeDigits cs).1, (takeDigits cs).2)
    | none => ([], c :: cs)

/-- Takes at least one digit. -/
def someDigits (cs : List Char) : Except Fault (List Nat × List Char) :=
  match takeDigits cs with
  | ([], []) => .error .endOfText
  | ([], _ :: _) => .error .malformed
  | (ds, rest) => .ok (ds, rest)

/-- The digits before the point, among which a zero can only stand alone. -/
def wholePart (cs : List Char) : Except Fault (List Nat × List Char) :=
  match someDigits cs with
  | .ok (0 :: _ :: _, _) => .error .malformed
  | result => result

/-- The digits behind the point, if there is one. -/
def fractionPart : List Char → Except Fault (Option (List Nat) × List Char)
  | '.' :: cs => (someDigits cs).map fun (ds, rest) => (some ds, rest)
  | cs => .ok (none, cs)

/-- The sign and the digits of the exponent. -/
def exponentDigits : List Char → Except Fault ((Bool × List Nat) × List Char)
  | '-' :: cs => (someDigits cs).map fun (ds, rest) => ((true, ds), rest)
  | '+' :: cs => (someDigits cs).map fun (ds, rest) => ((false, ds), rest)
  | cs => (someDigits cs).map fun (ds, rest) => ((false, ds), rest)

/-- The exponent, if there is one. -/
def exponentPart : List Char → Except Fault (Option (Bool × List Nat) × List Char)
  | c :: cs =>
    if c = 'e' ∨ c = 'E' then (exponentDigits cs).map fun (e, rest) => (some e, rest)
    else .ok (none, c :: cs)
  | [] => .ok (none, [])

/-- Reads a number without its sign. -/
def unsignedText (negative : Bool) (cs : List Char) : Except Fault (NumberText × List Char) := do
  let (whole, cs) ← wholePart cs
  let (fraction, cs) ← fractionPart cs
  let (exponent, cs) ← exponentPart cs
  return (⟨negative, whole, fraction, exponent⟩, cs)

/-- **Reads the digits of a number.** -/
def numberText : Reader NumberText
  | '-' :: cs => unsignedText true cs
  | cs => unsignedText false cs

/-! ### Value -/

/-- The leading digits that keep the number below `2 ^ 64`, appended to those of `n`, and the digits
from the first one that does not. -/
def fill (n : Nat) : List Nat → Nat × List Nat
  | [] => (n, [])
  | d :: ds => if 10 * n + d < Nat.pow 2 64 then fill (10 * n + d) ds else (n, d :: ds)

/-- A magnitude divided by `10 ^ 308` until its power of ten is one of the table. -/
def scaleDown : Nat → Binary64 → Int → Option (Binary64 × Int)
  | 0, x, e => some (x, e)
  | steps + 1, x, e =>
    if x.isZero ∨ -308 ≤ e then some (x, e)
    else
      (Binary64.powerOfTen? 308).bind fun p =>
        (x.over? p).bind fun y => scaleDown steps y (e + 308)

/-- The magnitude nearest to `n`, then multiplied or divided by a power of ten. There is none if the
product is too large. -/
def scaleByTen (n : Nat) (e : Int) : Option Binary64 :=
  (Binary64.ofNat? n).bind fun x =>
    if 308 < e then if x.isZero then some x else none
    else if 0 ≤ e then (Binary64.powerOfTen? e.toNat).bind x.times?
    else
      (scaleDown 3 x e).bind fun (x, e) =>
        if x.isZero then some x else (Binary64.powerOfTen? (-e).toNat).bind x.over?

/-- The power of ten that the exponent's digits write. Beyond 31 bits only its sign counts. -/
def exponentValue : Option (Bool × List Nat) → Int
  | none => 0
  | some (negative, ds) => signed negative (min (ofDigits ds) (Nat.pow 2 31))

/-- The magnitude of a number that is no 64-bit integer. Digits of the whole part that do not fit
into 64 bits count as zeros, digits of the fraction that do not fit are left out. -/
def NumberText.magnitude? (t : NumberText) : Option Binary64 :=
  let (n, dropped) := fill 0 t.whole
  let fraction := t.fraction.getD []
  let (m, unused) := fill n fraction
  let e : Int := dropped.length - (fraction.length - unused.length : Nat) + exponentValue t.exponent
  scaleByTen m e

/-- The number that was found, unless it is too large for a floating-point number. -/
def NumberText.value (t : NumberText) : Option Found :=
  let n := signed t.negative (ofDigits t.whole)
  let isInteger := t.fraction.isNone && t.exponent.isNone
  if isInteger && !t.negative && n < Nat.pow 2 64 then some (.integer n)
  else if isInteger && n < 0 && -(Nat.pow 2 63 : Int) ≤ n then some (.integer n)
  else t.magnitude?.map (.float t.negative)

/-! ## The wrong type -/

/-- What a text, free of blanks in front, begins with. Of a list or an object only the opening
bracket is looked at. -/
def found : List Char → Except Fault Found
  | [] => .error .endOfText
  | 'n' :: cs => (literal Found.null "ull".toList cs).map (·.1)
  | 't' :: cs => (literal (Found.boolean true) "rue".toList cs).map (·.1)
  | 'f' :: cs => (literal (Found.boolean false) "alse".toList cs).map (·.1)
  | '"' :: cs => (quoted codePoint cs).map fun (s, _) => .string s
  | '[' :: _ => .ok .sequence
  | '{' :: _ => .ok .map
  | c :: cs =>
    if c = '-' ∨ (Numeral.digit? c).isSome then
      match numberText (c :: cs) with
      | .error f => .error f
      | .ok (t, _) =>
        match t.value with
        | some n => .ok n
        | none => .error .malformed
    else .error .malformed

/-- The fault of a text that does not begin with what was expected. -/
def wrongType (expected : Expected) (cs : List Char) : Fault :=
  match found cs with
  | .error f => f
  | .ok f => .mismatch (.invalidType f expected)

/-! ## Scalars -/

/-- Reads a text where `expected` names what it stands for. -/
def stringAs (expected : Expected) : Reader String := fun cs =>
  match skipBlanks cs with
  | '"' :: rest => quoted codePoint rest
  | cs => .error (wrongType expected cs)

def string : Reader String := stringAs .string

/-- Reads a text, or `null` for none. -/
def optionalString : Reader (Option String) := fun cs =>
  match skipBlanks cs with
  | 'n' :: rest => literal none "ull".toList rest
  | cs => (string cs).map fun (s, rest) => (some s, rest)

def boolean : Reader Bool := fun cs =>
  match skipBlanks cs with
  | 't' :: rest => literal true "rue".toList rest
  | 'f' :: rest => literal false "alse".toList rest
  | cs => .error (wrongType .boolean cs)

def character : Reader Char := fun cs =>
  match stringAs .character cs with
  | .error f => .error f
  | .ok (s, rest) =>
    match s.toList with
    | [c] => .ok (c, rest)
    | _ => .error (.mismatch (.notOneCharacter s))

/-! ## Lists -/

/-- How many brackets can be open at once while a text is read. -/
def maxOpen : Nat := 127

/-- Goes on behind an opening bracket with one bracket less to open, if there is one left. -/
def opening {α : Type} (room : Nat) (inside : Nat → Except Fault α) : Except Fault α :=
  match room with
  | 0 => .error .malformed
  | room + 1 => inside room

/-- Reads one more item of a list. -/
def nextItem {α : Type} (item : Reader α) (items : List α) : Reader (List α) := fun cs =>
  (item cs).map fun (a, rest) => (items ++ [a], rest)

/-- Reads a list, where `room` brackets can still be opened; `item` is given the room inside. -/
def list {α : Type} (room : Nat) (item : Nat → Reader α) : Reader (List α) := fun cs =>
  match skipBlanks cs with
  | '[' :: rest =>
    opening room fun room => (bracketed ']' (nextItem (item room)) [] rest).toExcept
  | cs => .error (wrongType .sequence cs)

/-! ## Names -/

/-- The value that a name stands for. -/
def named {α : Type} (names : List (String × α)) (name : String) : Except Fault α :=
  match names.find? (·.1 == name) with
  | some (_, a) => .ok a
  | none => .error (.mismatch (.unknownName name (names.map (·.1))))

/-- Reads the value `null` of the key of a name. -/
def nothing : Reader Unit := fun cs =>
  match skipBlanks cs with
  | 'n' :: rest => literal () "ull".toList rest
  | cs => .error (wrongType .nothing cs)

/-- Reads one of the names, as a text or as the only key of an object that holds `null`. As in any
object, what stands for the key must be a text, and anything else is malformed. -/
def oneOf {α : Type} (names : List (String × α)) (room : Nat) : Reader α := fun cs =>
  match skipBlanks cs with
  | [] => .error .endOfText
  | '"' :: rest => do
    let (name, rest) ← quoted codePoint rest
    return (← named names name, rest)
  | '{' :: rest => opening room fun _ => do
    let (name, rest) ← key codePoint rest
    let a ← named names name
    let rest ← expect ':' rest
    let ((), rest) ← nothing rest
    let rest ← expect '}' rest
    return (a, rest)
  | _ => .error .malformed

end MathQuiz.Json
