import MathQuiz.Numeral.Decimal
import Mathlib.Data.Nat.Digits.Defs
import Mathlib.Data.Rat.Defs

/-!
# Written numbers

Texts that write numbers in base ten, apart from how they are read: a row of digits, an integer with
an optional sign, and a decimal with an optional fraction.

* `Digits`, `IntegerText`, `DecimalText`: the texts `d+`, `[+-]?d+` and `-?d+(.d+)?`, each with its
  characters and the number it writes;
* `digits?_eq_some_iff`, `ofDigits_values`: rows of digits, and nothing else, are read as digits;
* **`readInteger?_eq_some_iff`**: the integers that are read are those written;
* **`Decimal.read?_chars`**, `Decimal.exists_text_of_read?`: what is read as a decimal is a decimal
  text, of which its digits are kept as far as they fit.
-/

namespace MathQuiz

open Text

namespace Numeral

/-! ## Rows of digits -/

/-- A row of ASCII digits, at least one. -/
structure Digits where
  chars : List Char
  chars_ne_nil : chars ≠ []
  isDigit : ∀ c ∈ chars, c.isDigit = true

namespace Digits

/-- The values of the digits from left to right. -/
def values (w : Digits) : List ℕ := w.chars.map fun c => c.toNat - '0'.toNat

/-- The number that the digits write in base ten. -/
def number (w : Digits) : ℕ := Nat.ofDigits 10 w.values.reverse

theorem values_lt (w : Digits) : ∀ n ∈ w.values, n < 10 := by
  rw [values, List.forall_mem_map]
  intro c hc
  have hdigit := Char.isDigit_iff_toNat.1 (w.isDigit c hc)
  simp only [Char.reduceToNat] at hdigit ⊢
  omega

theorem not_mem_chars (w : Digits) {c : Char} (h : c.isDigit = false) : c ∉ w.chars := by
  intro hmem
  rw [w.isDigit c hmem] at h
  cases h

theorem exists_cons (w : Digits) : ∃ c cs, w.chars = c :: cs ∧ c.isDigit = true := by
  obtain ⟨c, cs, hchars⟩ := List.exists_cons_of_ne_nil w.chars_ne_nil
  exact ⟨c, cs, hchars, w.isDigit c (by rw [hchars]; exact List.mem_cons_self)⟩

end Digits

theorem digit?_eq_some_iff {c : Char} {n : ℕ} :
    digit? c = some n ↔ c.isDigit = true ∧ n = c.toNat - '0'.toNat := by
  rw [Char.isDigit_iff_toNat, digit?]
  simp only [Char.reduceToNat]
  split
  · next h => rw [Option.some.injEq, eq_comm, and_iff_right h]
  · next h => simp [h]

theorem mapM_digit?_eq_some_iff {cs : List Char} {ds : List ℕ} : cs.mapM digit? = some ds ↔
    (∀ c ∈ cs, c.isDigit = true) ∧ ds = cs.map fun c => c.toNat - '0'.toNat := by
  induction cs generalizing ds with
  | nil =>
    rw [List.mapM_nil, Option.pure_def, Option.some.injEq, eq_comm]
    simp
  | cons c cs ih =>
    rw [List.mapM_cons, List.forall_mem_cons, List.map_cons]
    constructor
    · intro h
      obtain ⟨n, hn, h⟩ := Option.bind_eq_some_iff.1 h
      obtain ⟨ns, hns, h⟩ := Option.bind_eq_some_iff.1 h
      cases h
      obtain ⟨hc, rfl⟩ := digit?_eq_some_iff.1 hn
      obtain ⟨hcs, rfl⟩ := ih.1 hns
      exact ⟨⟨hc, hcs⟩, rfl⟩
    · rintro ⟨⟨hc, hcs⟩, rfl⟩
      rw [digit?_eq_some_iff.2 ⟨hc, rfl⟩, ih.2 ⟨hcs, rfl⟩]
      rfl

/-- **Rows of digits,** and nothing else, are read as digits. -/
theorem digits?_eq_some_iff {cs : List Char} {ds : List ℕ} :
    digits? cs = some ds ↔ ∃ w : Digits, w.chars = cs ∧ w.values = ds := by
  unfold digits?
  split
  · next hempty =>
    simp only [reduceCtorEq, false_iff]
    rintro ⟨w, rfl, -⟩
    exact w.chars_ne_nil (List.isEmpty_iff.1 hempty)
  · next hne =>
    rw [mapM_digit?_eq_some_iff]
    constructor
    · rintro ⟨hdigits, rfl⟩
      exact ⟨⟨cs, fun h => hne (List.isEmpty_iff.2 h), hdigits⟩, rfl, rfl⟩
    · rintro ⟨w, rfl, rfl⟩
      exact ⟨w.isDigit, rfl⟩

theorem digits?_chars (w : Digits) : digits? w.chars = some w.values :=
  digits?_eq_some_iff.2 ⟨w, rfl, rfl⟩

theorem foldl_digits (n : ℕ) (ds : List ℕ) : ds.foldl (fun n d => 10 * n + d) n =
    Nat.ofDigits 10 ds.reverse + 10 ^ ds.length * n := by
  induction ds generalizing n with
  | nil => simp
  | cons d ds ih =>
    rw [List.foldl_cons, ih, Nat.ofDigits_reverse_cons, List.length_cons, pow_succ]
    ring

theorem ofDigits_values (w : Digits) : ofDigits w.values = w.number := by
  rw [ofDigits, foldl_digits, Nat.mul_zero, Nat.add_zero, Digits.number]

/-! ## Integers -/

/-- What may stand in front of the digits of an integer. -/
inductive Sign
  | none
  | plus
  | minus
  deriving DecidableEq

def Sign.chars : Sign → List Char
  | none => []
  | plus => ['+']
  | minus => ['-']

/-- An integer in base ten, with or without a sign. -/
structure IntegerText where
  sign : Sign
  digits : Digits

namespace IntegerText

def chars (w : IntegerText) : List Char := w.sign.chars ++ w.digits.chars

def value (w : IntegerText) : ℤ :=
  match w.sign with
  | .minus => -w.digits.number
  | .none | .plus => w.digits.number

theorem not_mem_chars (w : IntegerText) {c : Char} (hdigit : c.isDigit = false) (hplus : c ≠ '+')
    (hminus : c ≠ '-') : c ∉ w.chars := by
  have hsign : c ∉ w.sign.chars := by cases w.sign <;> simp [Sign.chars, hplus, hminus]
  exact fun h => (List.mem_append.1 h).elim hsign (w.digits.not_mem_chars hdigit)

end IntegerText

theorem readInteger?_of_digit {c : Char} {cs : List Char} (h : c.isDigit = true) :
    readInteger? (c :: cs) = (digits? (c :: cs)).map (signed false <| ofDigits ·) := by
  unfold readInteger?
  split
  · next heq => cases heq; cases h
  · next heq => cases heq; cases h
  · rfl

theorem readInteger?_chars (w : IntegerText) : readInteger? w.chars = some w.value := by
  obtain ⟨sign, digits⟩ := w
  have hread (negative : Bool) : (digits? digits.chars).map (signed negative <| ofDigits ·) =
      some (signed negative digits.number) := by
    rw [digits?_chars, Option.map_some, ofDigits_values]
  cases sign with
  | none =>
    obtain ⟨c, cs, hchars, hdigit⟩ := digits.exists_cons
    rw [IntegerText.chars, Sign.chars, List.nil_append, hchars, readInteger?_of_digit hdigit,
      ← hchars]
    exact hread false
  | plus => exact hread false
  | minus => exact hread true

/-- **The integers that are read** are those that are written. -/
theorem readInteger?_eq_some_iff {cs : List Char} {n : ℤ} :
    readInteger? cs = some n ↔ ∃ w : IntegerText, w.chars = cs ∧ w.value = n := by
  constructor
  · intro h
    have hsigned {cs : List Char} {f : List ℕ → ℤ} (sign : Sign)
        (h : (digits? cs).map f = some n) : ∃ w : IntegerText, w.chars = sign.chars ++ cs := by
      obtain ⟨ds, hds, -⟩ := Option.map_eq_some_iff.1 h
      obtain ⟨digits, rfl, -⟩ := digits?_eq_some_iff.1 hds
      exact ⟨⟨sign, digits⟩, rfl⟩
    have hwritten : ∃ w : IntegerText, w.chars = cs := by
      unfold readInteger? at h
      split at h
      · exact hsigned .minus h
      · exact hsigned .plus h
      · exact hsigned .none h
    obtain ⟨w, rfl⟩ := hwritten
    exact ⟨w, rfl, Option.some.inj ((readInteger?_chars w).symm.trans h)⟩
  · rintro ⟨w, rfl, rfl⟩
    exact readInteger?_chars w

/-! ## Decimals -/

/-- The number below one that is written by the digits behind a point. -/
def places : List ℕ → ℚ
  | [] => 0
  | d :: ds => (d + places ds) / 10

/-- A decimal in base ten, with or without a minus sign and a fraction. -/
structure DecimalText where
  negative : Bool
  whole : Digits
  fraction : Option Digits

namespace DecimalText

def chars (w : DecimalText) : List Char :=
  (if w.negative then ['-'] else []) ++ w.whole.chars ++
    match w.fraction with
    | none => []
    | some fraction => '.' :: fraction.chars

/-- The digits behind the point. -/
def fractionDigits (w : DecimalText) : List ℕ :=
  match w.fraction with
  | none => []
  | some fraction => fraction.values

/-- The number without its sign. -/
def size (w : DecimalText) : ℚ := w.whole.number + places w.fractionDigits

def value (w : DecimalText) : ℚ := if w.negative then -w.size else w.size

theorem fractionDigits_lt (w : DecimalText) : ∀ n ∈ w.fractionDigits, n < 10 := by
  obtain ⟨negative, whole, fraction⟩ := w
  cases fraction with
  | none => simp [fractionDigits]
  | some fraction => exact fraction.values_lt

theorem not_mem_chars (w : DecimalText) {c : Char} (hdigit : c.isDigit = false) (hminus : c ≠ '-')
    (hpoint : c ≠ '.') : c ∉ w.chars := by
  obtain ⟨negative, whole, fraction⟩ := w
  have hsign : c ∉ (if negative then ['-'] else []) := by cases negative <;> simp [hminus]
  have hwhole := whole.not_mem_chars hdigit
  cases fraction with
  | none => simp [chars, hsign, hwhole]
  | some fraction => simp [chars, hsign, hwhole, hpoint, fraction.not_mem_chars hdigit]

end DecimalText

end Numeral

namespace Decimal

open Numeral

theorem readUnsigned?_of_whole (negative : Bool) (whole : Digits) :
    readUnsigned? negative whole.chars = ofDigits? negative whole.values [] := by
  rw [readUnsigned?, cut_of_not_mem (whole.not_mem_chars rfl)]
  dsimp only
  rw [digits?_chars, Option.bind_some]

theorem readUnsigned?_of_fraction (negative : Bool) (whole fraction : Digits) :
    readUnsigned? negative (whole.chars ++ '.' :: fraction.chars) =
      ofDigits? negative whole.values fraction.values := by
  rw [readUnsigned?, cut_append (whole.not_mem_chars rfl)]
  dsimp only
  rw [digits?_chars, digits?_chars, Option.bind_some, Option.bind_some]

theorem exists_text_of_readUnsigned? {negative : Bool} {cs : List Char} {d : Decimal}
    (h : readUnsigned? negative cs = some d) :
    ∃ w : DecimalText, w.negative = false ∧ w.chars = cs := by
  by_cases hpoint : '.' ∈ cs
  · obtain ⟨front, back, rfl, hfront⟩ := List.eq_append_cons_of_mem hpoint
    rw [readUnsigned?, cut_append hfront] at h
    obtain ⟨ds, hwhole, h⟩ := Option.bind_eq_some_iff.1 h
    obtain ⟨es, hfraction, -⟩ := Option.bind_eq_some_iff.1 h
    obtain ⟨whole, rfl, -⟩ := digits?_eq_some_iff.1 hwhole
    obtain ⟨fraction, rfl, -⟩ := digits?_eq_some_iff.1 hfraction
    exact ⟨⟨false, whole, some fraction⟩, rfl, rfl⟩
  · rw [readUnsigned?, cut_of_not_mem hpoint] at h
    obtain ⟨ds, hwhole, -⟩ := Option.bind_eq_some_iff.1 h
    obtain ⟨whole, rfl, -⟩ := digits?_eq_some_iff.1 hwhole
    exact ⟨⟨false, whole, none⟩, rfl, by simp [DecimalText.chars]⟩

theorem read?_of_digit {c : Char} {cs : List Char} (h : c.isDigit = true) :
    read? (c :: cs) = readUnsigned? false (c :: cs) := by
  unfold read?
  split
  · next heq => cases heq; cases h
  · rfl

/-- **A decimal text is read** from its sign and its digits before and behind the point. -/
theorem read?_chars (w : DecimalText) :
    read? w.chars = ofDigits? w.negative w.whole.values w.fractionDigits := by
  obtain ⟨negative, whole, fraction⟩ := w
  have hunsigned : ∀ negative, readUnsigned? negative (DecimalText.chars ⟨false, whole, fraction⟩) =
      ofDigits? negative whole.values (DecimalText.fractionDigits ⟨negative, whole, fraction⟩) := by
    intro negative
    cases fraction with
    | none =>
      simpa [DecimalText.chars, DecimalText.fractionDigits] using
        readUnsigned?_of_whole negative whole
    | some fraction => exact readUnsigned?_of_fraction negative whole fraction
  cases negative with
  | true => exact hunsigned true
  | false =>
    obtain ⟨c, cs, hchars, hdigit⟩ := whole.exists_cons
    rw [← hunsigned false, DecimalText.chars, hchars]
    exact read?_of_digit hdigit

theorem exists_text_of_read? {cs : List Char} {d : Decimal} (h : read? cs = some d) :
    ∃ w : DecimalText, w.chars = cs := by
  unfold read? at h
  split at h
  · obtain ⟨⟨_, whole, fraction⟩, rfl, rfl⟩ := exists_text_of_readUnsigned? h
    exact ⟨⟨true, whole, fraction⟩, rfl⟩
  · obtain ⟨w, -, hw⟩ := exists_text_of_readUnsigned? h
    exact ⟨w, hw⟩

end Decimal

end MathQuiz
