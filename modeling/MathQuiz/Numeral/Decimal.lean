import MathQuiz.Text.Basic

/-!
# Decimal numbers of 96 bits

A decimal is an integer below `2 ^ 96` in size, divided by a power of ten up to `10 ^ 28`. It keeps
the zeros it was written with, so `1.50` and `1.5` are two decimals of one value.

* `digits?`, `ofDigits`, `readInteger?`: digits, and the numbers that they write;
* `roundHalfEven`, `roundHalfEven_error`: a quotient rounded to the nearest integer;
* `Decimal`, `Decimal.read?`, `Decimal.text`: the numbers, read from `-?d+(.d+)?` with the fraction
  rounded where it does not fit, and written with all digits that are kept;
* `Decimal.normalize`, `Decimal.SameValue`: without final zeros, and equality of values;
* `Decimal.times?`: the product with an integer, with fewer fraction digits where it must.
-/

/-! ## Digits -/

namespace MathQuiz.Numeral

/-- The value of an ASCII digit. -/
def digit? (c : Char) : Option Nat :=
  if 48 ≤ c.toNat ∧ c.toNat ≤ 57 then some (c.toNat - 48) else none

/-- The digits of a text of digits, at least one. -/
def digits? (cs : List Char) : Option (List Nat) :=
  if cs.isEmpty then none else cs.mapM digit?

/-- The number with these decimal digits, the first one highest. -/
def ofDigits (ds : List Nat) : Nat := ds.foldl (fun n d => 10 * n + d) 0

/-- The value with a minus sign if `negative`. -/
def signed (negative : Bool) (n : Nat) : Int := if negative then -(n : Int) else n

/-- Reads `+` or `-`, if there is one, and at least one digit. -/
def readInteger? : List Char → Option Int
  | '-' :: cs => (digits? cs).map (signed true <| ofDigits ·)
  | '+' :: cs => (digits? cs).map (signed false <| ofDigits ·)
  | cs => (digits? cs).map (signed false <| ofDigits ·)

/-! ## Rounding a quotient -/

/-- The integer nearest to `p / q`; halfway between two integers, the even one. -/
def roundHalfEven (p q : Nat) : Nat :=
  let floor := p / q
  let twice := 2 * (p % q)
  if twice > q ∨ (twice = q ∧ floor % 2 = 1) then floor + 1 else floor

theorem roundHalfEven_error {p q : Nat} (hq : 0 < q) :
    2 * (roundHalfEven p q * q) ≤ 2 * p + q ∧ 2 * p ≤ 2 * (roundHalfEven p q * q) + q := by
  have hdiv := Nat.div_add_mod' p q
  have hlt := Nat.mod_lt p hq
  simp only [roundHalfEven]
  split
  · have : (p / q + 1) * q = p / q * q + q := Nat.succ_mul _ _
    omega
  · omega

theorem roundHalfEven_one (p : Nat) : roundHalfEven p 1 = p := by
  simp [roundHalfEven, Nat.mod_one]

end MathQuiz.Numeral

/-! ## Decimals -/

namespace MathQuiz

open Numeral

/-- The number `mantissa / 10 ^ scale`. -/
structure Decimal where
  mantissa : Int
  scale : Nat
  mantissa_lt : mantissa.natAbs < Nat.pow 2 96
  scale_le : scale ≤ 28
  deriving DecidableEq, Repr

namespace Decimal

/-- The decimal of a mantissa and a scale, if they are in range. -/
def ofParts? (mantissa : Int) (scale : Nat) : Option Decimal :=
  if h : mantissa.natAbs < Nat.pow 2 96 ∧ scale ≤ 28 then some ⟨mantissa, scale, h.1, h.2⟩ else none

theorem ofParts?_eq_some_iff {m : Int} {s : Nat} {d : Decimal} :
    ofParts? m s = some d ↔ d.mantissa = m ∧ d.scale = s := by
  unfold ofParts?
  split
  · next h =>
    obtain ⟨m', s', hm, hs⟩ := d
    simp only [Option.some.injEq, mk.injEq]
    exact ⟨fun h => ⟨h.1.symm, h.2.symm⟩, fun h => ⟨h.1.symm, h.2.symm⟩⟩
  · next h =>
    simp only [reduceCtorEq, false_iff]
    rintro ⟨rfl, rfl⟩
    exact h ⟨d.mantissa_lt, d.scale_le⟩

/-! ### Reading and writing -/

/-- Takes fraction digits into the mantissa while it stays in range and has a place for them. The
first digit without a place rounds the mantissa, half upwards, and ends the reading. -/
def absorb (mantissa scale : Nat) : List Nat → Nat × Nat
  | [] => (mantissa, scale)
  | d :: ds =>
    if scale < 28 ∧ 10 * mantissa + d < Nat.pow 2 96 then absorb (10 * mantissa + d) (scale + 1) ds
    else (if 5 ≤ d then mantissa + 1 else mantissa, scale)

/-- The decimal of a mantissa that was rounded. One that rounding has brought to `2 ^ 96` gives up
its last digit, if that is a fraction digit, and is rounded once more. -/
def ofRounded? (negative : Bool) (mantissa scale : Nat) : Option Decimal :=
  if mantissa < Nat.pow 2 96 then ofParts? (signed negative mantissa) scale
  else if scale = 0 then none
  else ofParts? (signed negative ((mantissa + 4) / 10)) (scale - 1)

/-- The decimal written with these digits before and behind the point. The whole part must fit. -/
def ofDigits? (negative : Bool) (whole fraction : List Nat) : Option Decimal :=
  if ofDigits whole < Nat.pow 2 96 then
    let (m, s) := absorb (ofDigits whole) 0 fraction
    ofRounded? negative m s
  else none

/-- Reads digits, and a point with further digits if there is one. -/
def readUnsigned? (negative : Bool) (cs : List Char) : Option Decimal :=
  match Text.cut '.' cs with
  | (whole, none) => (digits? whole).bind (ofDigits? negative · [])
  | (whole, some fraction) =>
    (digits? whole).bind fun w => (digits? fraction).bind fun f => ofDigits? negative w f

/-- **Reads `-?d+(.d+)?`.** -/
def read? : List Char → Option Decimal
  | '-' :: cs => readUnsigned? true cs
  | cs => readUnsigned? false cs

/-- The digits of the mantissa with the point before the last `scale` of them. -/
def text (d : Decimal) : String :=
  let digits := (Nat.toDigits 10 d.mantissa.natAbs).leftpad (d.scale + 1) '0'
  let whole := digits.take (digits.length - d.scale)
  let fraction := digits.drop (digits.length - d.scale)
  String.ofList <|
    (if d.mantissa < 0 then ['-'] else []) ++ whole ++ (if d.scale = 0 then [] else '.' :: fraction)

/-! ### Values -/

/-- Drops final zeros of the mantissa, at most `scale` of them. -/
def dropZeros (mantissa : Int) : Nat → Int × Nat
  | 0 => (mantissa, 0)
  | s + 1 => if mantissa % 10 = 0 then dropZeros (mantissa / 10) s else (mantissa, s + 1)

theorem dropZeros_natAbs_le (m : Int) (s : Nat) : (dropZeros m s).1.natAbs ≤ m.natAbs := by
  induction s generalizing m with
  | zero => simp [dropZeros]
  | succ s ih =>
    rw [dropZeros]
    split
    · have := ih (m / 10); omega
    · simp

theorem dropZeros_scale_le (m : Int) (s : Nat) : (dropZeros m s).2 ≤ s := by
  induction s generalizing m with
  | zero => simp [dropZeros]
  | succ s ih =>
    rw [dropZeros]
    split
    · exact Nat.le_succ_of_le (ih _)
    · simp

/-- The same value without final fraction zeros. -/
def normalize (d : Decimal) : Decimal where
  mantissa := (dropZeros d.mantissa d.scale).1
  scale := (dropZeros d.mantissa d.scale).2
  mantissa_lt := Nat.lt_of_le_of_lt (dropZeros_natAbs_le _ _) d.mantissa_lt
  scale_le := Nat.le_trans (dropZeros_scale_le _ _) d.scale_le

/-- Both decimals denote one number. -/
def SameValue (a b : Decimal) : Prop :=
  a.mantissa * Nat.pow 10 b.scale = b.mantissa * Nat.pow 10 a.scale

instance : DecidableRel SameValue := fun a b => by unfold SameValue; infer_instance

/-- An integer, as a decimal without fraction digits. -/
def ofInt? (n : Int) : Option Decimal := ofParts? n 0

/-- How many final digits a product of this size has to give up to stay below `2 ^ 96`, if that is
at most `scale`. -/
def surplus? (size scale : Nat) : Option Nat :=
  (List.range (scale + 1)).find? fun n => size / Nat.pow 10 n < Nat.pow 2 96

/-- The product with an integer. A mantissa out of range gives up as few fraction digits as
possible, rounded half to even; there is no product if those do not suffice. -/
def times? (d : Decimal) (k : Int) : Option Decimal :=
  let product := d.mantissa * k
  (surplus? product.natAbs d.scale).bind fun n =>
    ofRounded? (product < 0) (roundHalfEven product.natAbs (Nat.pow 10 n)) (d.scale - n)

end Decimal

end MathQuiz
