import MathQuiz.Text.Shown
import MathQuiz.Numeral.Binary64

/-!
# Readers of JSON text

A reader takes a value off the front of a text and leaves the rest. It works strictly from left to
right and reports the first fault it meets.

* `Expected`, `Found`, `Mismatch`: what a place in the text should hold, what it does hold, and how
  JSON can have the wrong shape;
* `Fault`, `Mismatch.message`: all faults of a text, and the words for a wrong shape;
* `Reader`: from a text to a value and the text behind it;
* `Progress`, `bracketed`: items between brackets, with all that was read before a fault;
* `finish`, `wholly`: a value with nothing but blanks behind it.
-/

/-! ## Faults

A text can break the grammar, end too early, or be JSON of another shape than the one wanted. Only
the last kind of fault is worth words: it says what was found and what was expected. -/

namespace MathQuiz.Json

/-- What a place in the text should hold. -/
inductive Expected
  | string
  | boolean
  | character
  | sequence
  | map
  | fieldsOf (owner : String)
  | nothing
  deriving DecidableEq, Repr

/-- What a place in the text does hold. -/
inductive Found
  | null
  | boolean (b : Bool)
  | integer (n : Int)
  | float (negative : Bool) (magnitude : Numeral.Binary64)
  | string (s : String)
  | sequence
  | map
  deriving DecidableEq, Repr

/-- JSON of another shape than the one wanted. -/
inductive Mismatch
  /-- A value of one type where another was expected. -/
  | invalidType (found : Found) (expected : Expected)
  /-- A text of other than one character where a character was expected. -/
  | notOneCharacter (s : String)
  /-- A name that is none of the known ones. -/
  | unknownName (name : String) (known : List String)
  /-- A field that the object gave before. -/
  | duplicateField (name : String)
  /-- A field that the object should give. -/
  | missingField (name : String)
  /-- An array too short for the fields that it should list. -/
  | invalidLength (length : Nat) (owner : String) (size : Nat)
  deriving DecidableEq, Repr

/-- What is wrong with a text. -/
inductive Fault
  /-- The grammar does not allow what stands here. -/
  | malformed
  /-- The text ends inside a value. -/
  | endOfText
  /-- The text is JSON of the wrong shape. -/
  | mismatch (m : Mismatch)
  deriving DecidableEq, Repr

/-! ### Wording -/

def Expected.describe : Expected → String
  | string => "a string"
  | boolean => "a boolean"
  | character => "a character"
  | sequence => "a sequence"
  | map => "a map"
  | fieldsOf owner => "struct " ++ owner
  | nothing => "unit"

def Found.describe : Found → String
  | null => "null"
  | boolean b => "boolean `" ++ (if b then "true" else "false") ++ "`"
  | integer n => "integer `" ++ toString n ++ "`"
  | float negative x => "floating point `" ++ Numeral.plainLayout.write negative x ++ "`"
  | string s => "string " ++ Text.shown s
  | sequence => "sequence"
  | map => "map"

/-- The known names in words: two of them as an alternative, more as a list. -/
def describeNames : List String → String
  | [a] => "`" ++ a ++ "`"
  | [a, b] => "`" ++ a ++ "` or `" ++ b ++ "`"
  | names => "one of " ++ ", ".intercalate (names.map fun n => "`" ++ n ++ "`")

def Mismatch.message : Mismatch → String
  | invalidType found expected =>
    "invalid type: " ++ found.describe ++ ", expected " ++ expected.describe
  | notOneCharacter s =>
    "invalid value: " ++ (Found.string s).describe ++ ", expected " ++ Expected.character.describe
  | unknownName name known =>
    "unknown variant `" ++ name ++ "`, expected " ++ describeNames known
  | duplicateField name => "duplicate field `" ++ name ++ "`"
  | missingField name => "missing field `" ++ name ++ "`"
  | invalidLength length owner size =>
    "invalid length " ++ toString length ++ ", expected " ++ (Expected.fieldsOf owner).describe ++
      " with " ++ toString size ++ " elements"

/-! ## Readers -/

/-- Takes a value off the front of a text. -/
abbrev Reader (α : Type) := List Char → Except Fault (α × List Char)

/-- JSON's blanks: space, tab, line feed and carriage return. -/
def isSpace (c : Char) : Bool := c == ' ' || c == '\t' || c == '\n' || c == '\r'

/-- The text from its first character that is not blank. -/
def skipBlanks (cs : List Char) : List Char := cs.dropWhile isSpace

/-- Reads a fixed word and gives the value that it stands for. -/
def literal {α : Type} (a : α) : List Char → Reader α
  | [], cs => .ok (a, cs)
  | _ :: _, [] => .error .endOfText
  | w :: word, c :: cs => if c = w then literal a word cs else .error .malformed

/-- Reads one given character behind blanks. -/
def expect (c : Char) (cs : List Char) : Except Fault (List Char) :=
  match skipBlanks cs with
  | [] => .error .endOfText
  | d :: rest => if d = c then .ok rest else .error .malformed

/-! ### Items between brackets -/

/-- What was read of some items, and the text behind them or the fault that ended the reading. -/
structure Progress (σ : Type) where
  state : σ
  ending : Except Fault (List Char)

/-- The state, if the reading came to its end. -/
def Progress.toExcept {σ : Type} (p : Progress σ) : Except Fault (σ × List Char) :=
  p.ending.map (p.state, ·)

section Items

variable {σ : Type} (close : Char) (item : σ → Reader σ)

/-- Reads an item and, as long as commas follow, further items; at most `limit` of them. -/
def separated : Nat → σ → List Char → Progress σ
  | 0, s, _ => ⟨s, .error .endOfText⟩
  | limit + 1, s, cs =>
    match item s cs with
    | .error f => ⟨s, .error f⟩
    | .ok (s, rest) =>
      match skipBlanks rest with
      | [] => ⟨s, .error .endOfText⟩
      | c :: rest =>
        if c = ',' then separated limit s rest
        else if c = close then ⟨s, .ok rest⟩
        else ⟨s, .error .malformed⟩

/-- **Reads items and the closing bracket,** behind an opening bracket. Each item takes at least one
character, so their number is at most the length of the text. -/
def bracketed (s : σ) (cs : List Char) : Progress σ :=
  match skipBlanks cs with
  | [] => ⟨s, .error .endOfText⟩
  | c :: rest =>
    if c = close then ⟨s, .ok rest⟩ else separated close item cs.length s (c :: rest)

end Items

/-- The value, if only blanks follow. -/
def finish {α : Type} (a : α) (rest : List Char) : Except Fault α :=
  if (skipBlanks rest).isEmpty then .ok a else .error .malformed

/-- Reads a value and sees to it that only blanks follow. -/
def wholly {α : Type} (read : Reader α) (text : String) : Except Fault α :=
  match read text.toList with
  | .error f => .error f
  | .ok (a, rest) => finish a rest

end MathQuiz.Json
