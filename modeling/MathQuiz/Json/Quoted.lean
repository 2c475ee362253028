import MathQuiz.Json.Reader

/-!
# Quoted texts, and the written form of JSON

* `quote`: the written form of a text, which escapes quotes, backslashes and controls only;
* `quoted`, `key`: reads the characters up to the closing quote, and a text where only a text can
  stand;
* `codePoint`, `codeUnit`: the two ways to read `\u` with four hexadecimal digits, as a character
  (a pair of surrogates is one character, a lone one is a fault) or just as digits;
* **`quoted_quote`**: what is written is read back;
* `array`, `object`, `ofOption`: the written form of other values, which has no blanks.
-/

namespace MathQuiz.Json

/-! ## Writing -/

/-- The short escapes: the character behind the backslash, and the character that it stands for. -/
def shortEscapes : List (Char × Char) :=
  [('"', '"'), ('\\', '\\'), ('b', '\x08'), ('t', '\t'), ('n', '\n'), ('f', '\x0c'), ('r', '\r')]

def hexDigit (n : Nat) : Char := Nat.digitChar n

/-- The character as it stands between quotes. -/
def escaped (c : Char) : List Char :=
  match shortEscapes.find? (·.2 == c) with
  | some (e, _) => ['\\', e]
  | none =>
    if c.toNat < 0x20 then
      ['\\', 'u', '0', '0', hexDigit (c.toNat / 16), hexDigit (c.toNat % 16)]
    else [c]

/-- The text between quotes. -/
def quote (s : String) : List Char := '"' :: s.toList.flatMap escaped ++ ['"']

/-! ## Reading -/

/-- The value of a hexadecimal digit. -/
def hexValue? (c : Char) : Option Nat :=
  let n := c.toNat
  if 48 ≤ n ∧ n ≤ 57 then some (n - 48)
  else if 65 ≤ n ∧ n ≤ 70 then some (n - 55)
  else if 97 ≤ n ∧ n ≤ 102 then some (n - 87)
  else none

/-- Reads four hexadecimal digits. The text ends too early if fewer than four bytes are left. -/
def fourDigits (cs : List Char) : Except Fault (Nat × List Char) :=
  match cs with
  | a :: b :: c :: d :: rest =>
    match hexValue? a, hexValue? b, hexValue? c, hexValue? d with
    | some a, some b, some c, some d => .ok (((a * 16 + b) * 16 + c) * 16 + d, rest)
    | _, _, _, _ => .error .malformed
  | short => if (String.ofList short).utf8ByteSize < 4 then .error .endOfText else .error .malformed

/-- The code unit is the first half of a pair of surrogates. -/
def isHighSurrogate (n : Nat) : Bool := 0xD800 ≤ n && n ≤ 0xDBFF

/-- The code unit is the second half of a pair of surrogates. -/
def isLowSurrogate (n : Nat) : Bool := 0xDC00 ≤ n && n ≤ 0xDFFF

/-- The character of a pair of surrogates. -/
def ofSurrogates (high low : Nat) : Char :=
  Char.ofNat (0x10000 + (high - 0xD800) * 0x400 + (low - 0xDC00))

/-- Reads `\u` and the second half of a pair of surrogates. -/
def lowSurrogate (cs : List Char) : Except Fault (Nat × List Char) :=
  match literal () ['\\', 'u'] cs with
  | .error f => .error f
  | .ok (_, cs) =>
    match fourDigits cs with
    | .error f => .error f
    | .ok (n, rest) => if isLowSurrogate n then .ok (n, rest) else .error .malformed

/-- Reads a character behind `\u`, given by one code unit or by a pair of surrogates. -/
def codePoint : Reader Char := fun cs =>
  match fourDigits cs with
  | .error f => .error f
  | .ok (n, rest) =>
    if isLowSurrogate n then .error .malformed
    else if isHighSurrogate n then (lowSurrogate rest).map fun (m, rest) => (ofSurrogates n m, rest)
    else .ok (Char.ofNat n, rest)

/-- Reads any code unit behind `\u`, for a text that is only skipped. -/
def codeUnit : Reader Char := fun cs =>
  (fourDigits cs).map fun (_, rest) => (Char.ofNat 0xFFFD, rest)

/-- Reads one character, or the closing quote. -/
def nextChar (point : Reader Char) : Reader (Option Char)
  | [] => .error .endOfText
  | '"' :: cs => .ok (none, cs)
  | ['\\'] => .error .endOfText
  | '\\' :: 'u' :: cs => (point cs).map fun (c, rest) => (some c, rest)
  | '\\' :: '/' :: cs => .ok (some '/', cs)
  | '\\' :: e :: cs =>
    match shortEscapes.find? (·.1 == e) with
    | some (_, c) => .ok (some c, cs)
    | none => .error .malformed
  | c :: cs => if c.toNat < 0x20 then .error .malformed else .ok (some c, cs)

/-- Reads at most `limit` characters and the closing quote. -/
def quotedChars (point : Reader Char) : Nat → Reader (List Char)
  | 0, _ => .error .endOfText
  | limit + 1, cs =>
    match nextChar point cs with
    | .error f => .error f
    | .ok (none, rest) => .ok ([], rest)
    | .ok (some c, rest) => (quotedChars point limit rest).map fun (s, rest) => (c :: s, rest)

/-- **Reads a text and its closing quote,** behind the opening one. -/
def quoted (point : Reader Char) : Reader String := fun cs =>
  (quotedChars point (cs.length + 1) cs).map fun (s, rest) => (String.ofList s, rest)

/-- Reads a key behind blanks. Only a text can stand here, so anything else breaks the grammar. -/
def key (point : Reader Char) : Reader String := fun cs =>
  match skipBlanks cs with
  | [] => .error .endOfText
  | '"' :: rest => quoted point rest
  | _ => .error .malformed

/-! ## Reading what was written -/

theorem hexValue?_hexDigit {n : Nat} (h : n < 16) : hexValue? (hexDigit n) = some n := by
  revert n
  decide

theorem escaped_cases (c : Char) :
    (∃ e, escaped c = ['\\', e] ∧ shortEscapes.find? (·.1 == e) = some (e, c) ∧ e ≠ 'u' ∧ e ≠ '/') ∨
      (c.toNat < 0x20 ∧ escaped c =
        ['\\', 'u', '0', '0', hexDigit (c.toNat / 16), hexDigit (c.toNat % 16)]) ∨
      (¬ c.toNat < 0x20 ∧ escaped c = [c] ∧ c ≠ '"' ∧ c ≠ '\\') := by
  unfold escaped
  cases h : shortEscapes.find? (·.2 == c) with
  | some ec =>
    obtain ⟨e, c'⟩ := ec
    have hc := List.find?_some h
    have hmem := List.mem_of_find?_eq_some h
    simp only [shortEscapes, List.mem_cons, Prod.mk.injEq, List.not_mem_nil, or_false,
      beq_iff_eq] at hc hmem
    subst hc
    rcases hmem with ⟨rfl, rfl⟩ | ⟨rfl, rfl⟩ | ⟨rfl, rfl⟩ | ⟨rfl, rfl⟩ | ⟨rfl, rfl⟩ | ⟨rfl, rfl⟩ |
      ⟨rfl, rfl⟩ <;> exact .inl ⟨_, rfl, by decide, by decide, by decide⟩
  | none =>
    right
    simp only
    split
    · exact .inl ⟨‹_›, rfl⟩
    · refine .inr ⟨‹_›, rfl, ?_, ?_⟩ <;> rintro rfl <;> simp [shortEscapes] at h

theorem nextChar_escaped (c : Char) (rest : List Char) :
    nextChar codePoint (escaped c ++ rest) = .ok (some c, rest) := by
  rcases escaped_cases c with ⟨e, h, hfind, hu, hs⟩ | ⟨hlt, h⟩ | ⟨hlt, h, hq, hb⟩
  · rw [h]
    simp only [List.cons_append, List.nil_append]
    unfold nextChar
    split <;> grind
  · have hdigits : c.toNat / 16 * 16 + c.toNat % 16 = c.toNat := by omega
    rw [h]
    simp only [List.cons_append, List.nil_append, nextChar, codePoint, fourDigits,
      hexValue?_hexDigit (show c.toNat / 16 < 16 by omega),
      hexValue?_hexDigit (show c.toNat % 16 < 16 by omega),
      show hexValue? '0' = some 0 from by decide]
    simp only [Nat.zero_mul, Nat.zero_add, hdigits, isLowSurrogate, isHighSurrogate]
    rw [if_neg (by simp; omega), if_neg (by simp; omega)]
    simp [Except.map, Char.ofNat_toNat]
  · rw [h]
    simp only [List.cons_append, List.nil_append]
    unfold nextChar
    split <;> simp_all

theorem quotedChars_escaped {s rest : List Char} {limit : Nat} (h : s.length < limit) :
    quotedChars codePoint limit (s.flatMap escaped ++ '"' :: rest) = .ok (s, rest) := by
  induction s generalizing limit with
  | nil =>
    cases limit with
    | zero => simp at h
    | succ limit => simp [quotedChars, nextChar]
  | cons c s ih =>
    cases limit with
    | zero => simp at h
    | succ limit =>
      rw [List.flatMap_cons, List.append_assoc, quotedChars, nextChar_escaped]
      simp only [ih (Nat.lt_of_succ_lt_succ h)]
      rfl

theorem length_le_flatMap_escaped (s : List Char) : s.length ≤ (s.flatMap escaped).length := by
  induction s with
  | nil => simp
  | cons c s ih =>
    have : 1 ≤ (escaped c).length := by
      rcases escaped_cases c with ⟨e, h, _⟩ | ⟨_, h⟩ | ⟨_, h, _⟩ <;> simp [h]
    rw [List.flatMap_cons, List.length_append, List.length_cons]
    omega

/-- **What is written is read back,** whatever follows. -/
theorem quoted_quote (s : String) (rest : List Char) :
    quote s ++ rest = '"' :: (s.toList.flatMap escaped ++ '"' :: rest) ∧
      quoted codePoint (s.toList.flatMap escaped ++ '"' :: rest) = .ok (s, rest) := by
  refine ⟨by simp [quote], ?_⟩
  have := length_le_flatMap_escaped s.toList
  rw [quoted, quotedChars_escaped (by simp only [List.length_append]; omega)]
  simp [Except.map]

/-! ## Other values -/

def null : List Char := "null".toList

def ofBool (b : Bool) : List Char := if b then "true".toList else "false".toList

/-- The text of a text that may be absent. -/
def ofOption : Option String → List Char
  | none => null
  | some s => quote s

/-- The items with commas between them. -/
def commaSeparated : List (List Char) → List Char
  | [] => []
  | [item] => item
  | item :: items => item ++ ',' :: commaSeparated items

def array (items : List (List Char)) : List Char := '[' :: commaSeparated items ++ [']']

def pair (key : String) (value : List Char) : List Char := quote key ++ ':' :: value

def object (members : List (String × List Char)) : List Char :=
  '{' :: commaSeparated (members.map fun (key, value) => pair key value) ++ ['}']

end MathQuiz.Json
