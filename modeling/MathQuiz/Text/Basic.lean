/-!
# Texts

What the rest of the library asks of texts: which characters are blank, and how a text is trimmed,
joined, cut, split and rewritten.

* `isBlank`, `trim`, `joinWords`: blanks, texts without them at their ends, and fragments joined by
  single spaces;
* `cut`, `runs`, `words`: a text cut at a separator, and the pieces that it falls into;
* `substitute`, `decodeEntities`, `decodeOnce`: words of a table replaced in one pass, and the five
  character entities;
* `withoutTags`, `visible`: what is heard of markup.
-/

/-! ## Blank characters

A character is blank when Unicode gives it the property `White_Space`. Answers are trimmed of
blanks, spoken text is joined by single spaces, and an identifier of blanks only is none. -/

namespace MathQuiz.Text

/-- Unicode's property `White_Space`. -/
def isBlank (c : Char) : Bool :=
  let n := c.toNat
  (0x09 ≤ n && n ≤ 0x0D) || n == 0x20 || n == 0x85 || n == 0xA0 || n == 0x1680 ||
    (0x2000 ≤ n && n ≤ 0x200A) || n == 0x2028 || n == 0x2029 || n == 0x202F || n == 0x205F ||
    n == 0x3000

/-- The text has no character that is not blank. -/
def blankOnly (s : String) : Bool := s.toList.all isBlank

/-! ### Trimming -/

/-- The characters from the first to the last one that is not blank. -/
def trimChars (cs : List Char) : List Char :=
  ((cs.dropWhile isBlank).reverse.dropWhile isBlank).reverse

/-- The text without the blanks at its two ends. -/
def trim (s : String) : String := String.ofList (trimChars s.toList)

theorem toList_trim (s : String) : (trim s).toList = trimChars s.toList := by simp [trim]

/-! ### Joining -/

/-- The words with one space between neighbours. -/
def spaced (words : List (List Char)) : List Char := [' '].intercalate words

/-- The trimmed fragments that are not blank, joined by single spaces. -/
def joinWords (fragments : List String) : String :=
  String.ofList (spaced ((fragments.map (trimChars ·.toList)).filter (!·.isEmpty)))

/-! ## Cutting a text in two -/

/-- The text before the first `sep`, and the text behind it if there is one. -/
def cut (sep : Char) : List Char → List Char × Option (List Char)
  | [] => ([], none)
  | c :: cs => if c = sep then ([], some cs) else (c :: (cut sep cs).1, (cut sep cs).2)

theorem cut_of_not_mem {sep : Char} {cs : List Char} (h : sep ∉ cs) : cut sep cs = (cs, none) := by
  induction cs with
  | nil => rfl
  | cons c cs ih =>
    obtain ⟨hc, hcs⟩ := not_or.1 fun hmem => h (List.mem_cons.2 hmem)
    rw [cut, if_neg (Ne.symm hc), ih hcs]

theorem cut_append {sep : Char} {front : List Char} (h : sep ∉ front) (back : List Char) :
    cut sep (front ++ sep :: back) = (front, some back) := by
  induction front with
  | nil => simp [cut]
  | cons c front ih =>
    obtain ⟨hc, hfront⟩ := not_or.1 fun hmem => h (List.mem_cons.2 hmem)
    rw [List.cons_append, cut, if_neg (Ne.symm hc), ih hfront]

/-! ## Runs of a class of characters

A text falls into pieces: each maximal run of characters of a class is one piece, and every other
character is a piece of its own. Words are the runs of characters that are not blank. -/

/-- The maximal runs of characters in `p`, every other character standing alone. -/
def runs (p : Char → Bool) : List Char → List (List Char)
  | [] => []
  | c :: cs =>
    match runs p cs with
    | (d :: run) :: rest =>
      if p c && p d then (c :: d :: run) :: rest else [c] :: (d :: run) :: rest
    | rest => [c] :: rest

/-- **Nothing is lost or reordered.** -/
theorem flatten_runs (p : Char → Bool) (cs : List Char) : (runs p cs).flatten = cs := by
  induction cs with
  | nil => rfl
  | cons c cs ih =>
    rw [runs]
    split
    · next h => rw [h] at ih; split <;> simp [← ih]
    · simp [ih]

/-- The pieces of a text between its blanks. -/
def words (cs : List Char) : List (List Char) :=
  (runs (!isBlank ·) cs).filter (!·.all isBlank)

/-! ## Substitution of fixed words

A table lists words and what stands in for them. The text is read from left to right; where a word
of the table begins, its substitute is written and reading goes on behind the word, so what was
written is never looked at again. Where two words begin, the one listed first counts. -/

/-- A word and what stands in for it. -/
structure Entry where
  word : List Char
  substitute : List Char
  deriving DecidableEq, Repr

/-- The first entry of the table whose word begins the text. -/
def Entry.at? (table : List Entry) (cs : List Char) : Option Entry :=
  table.find? (·.word.isPrefixOf cs)

/-- The pass, where the next `skip` characters belong to a word already substituted. -/
def substituteFrom (table : List Entry) : Nat → List Char → List Char
  | _, [] => []
  | skip + 1, _ :: cs => substituteFrom table skip cs
  | 0, c :: cs =>
    match Entry.at? table (c :: cs) with
    | some e => e.substitute ++ substituteFrom table (e.word.length - 1) cs
    | none => c :: substituteFrom table 0 cs

/-- The text with every word of the table replaced, in one pass. -/
def substitute (table : List Entry) (cs : List Char) : List Char := substituteFrom table 0 cs

/-! ## Character entities

Five entities are read in rich text: a space that does not break, the two angle brackets, the
double quote and the ampersand. The ampersand comes last, so that `&amp;lt;` reads as the text
`&lt;` and not as a bracket. -/

/-- The entities with their characters, in the order of decoding. -/
def entities : List Entry :=
  [⟨"&nbsp;".toList, [' ']⟩, ⟨"&lt;".toList, ['<']⟩, ⟨"&gt;".toList, ['>']⟩,
   ⟨"&quot;".toList, ['"']⟩, ⟨"&amp;".toList, ['&']⟩]

/-- The text after substituting each entity in turn. -/
def decodeEntities (cs : List Char) : List Char :=
  entities.foldl (fun text e => substitute [e] text) cs

/-- The text after one pass that substitutes every entity where it stands. -/
def decodeOnce (cs : List Char) : List Char := substitute entities cs

/-! ## The visible text of markup

Rich content is opaque markup; what a reader hears of it is its text. Tags are dropped, entities
are decoded, and blanks shrink to single spaces. A `<` begins a tag only in front of a letter, `/`,
`!` or `?`, so that `1 < 2` keeps its sign; a tag that is never closed hides the rest. -/

/-- A tag begins where this character follows `<`. -/
def opensTag (c : Char) : Bool := c.isAlpha || c == '/' || c == '!' || c == '?'

/-- The characters outside tags, with a space for each closed tag. -/
def outsideTags (inTag : Bool) : List Char → List Char
  | [] => []
  | c :: cs =>
    if inTag then
      if c = '>' then ' ' :: outsideTags false cs else outsideTags true cs
    else if c = '<' && cs.head?.any opensTag then outsideTags true cs
    else c :: outsideTags false cs

/-- The text with a space in place of each tag. -/
def withoutTags (cs : List Char) : List Char := outsideTags false cs

/-- **The visible text of a payload:** its words outside tags, entities decoded. -/
def visible (payload : String) : String :=
  String.ofList (spaced (words (decodeEntities (withoutTags payload.toList))))

end MathQuiz.Text
