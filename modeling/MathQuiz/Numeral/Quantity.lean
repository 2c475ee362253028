import MathQuiz.Text.Basic
import MathQuiz.Numeral.Decimal

/-!
# Quantities

An answer that reads as a number is a decimal or a fraction of two integers of 64 bits. Two such
answers are equivalent when they have one value, whichever way they are written.

* `InWord`, `Fraction`, `Fraction.ofInts?`: two integers of 64 bits, the second one possibly zero;
* `Fraction.reduce`: lowest terms with the sign on top, unless a part would leave the range;
* `Quantity.read?`, `isDecimal`: the quantity that a text writes, blanks at its ends aside;
* `Quantity.simplify`, `Quantity.equivalent`: the normal form of either kind, and equality of
  values.
-/

/-! ## Fractions of two 64-bit integers -/

namespace MathQuiz

/-- The integer fits into a signed word of 64 bits. -/
abbrev InWord (n : Int) : Prop := -(Nat.pow 2 63 : Int) ≤ n ∧ n < Nat.pow 2 63

theorem inWord_of_lt {n : Nat} (h : n < Nat.pow 2 63) : InWord n ∧ InWord (-n) := by
  simp only [InWord]; omega

/-- Two integers of 64 bits, written one over the other. -/
structure Fraction where
  num : Int
  den : Int
  num_inWord : InWord num
  den_inWord : InWord den
  deriving DecidableEq, Repr

namespace Fraction

/-- The fraction of two integers, if both are in range. -/
def ofInts? (num den : Int) : Option Fraction :=
  if h : InWord num ∧ InWord den then some ⟨num, den, h.1, h.2⟩ else none

def zero : Fraction := ⟨0, 1, by decide, by decide⟩

/-- The fraction in lowest terms, with any minus sign on top. It stays as it is where a reduced part
would have the size `2 ^ 63`, which has no positive form in 64 bits. -/
def reduce (f : Fraction) : Fraction :=
  let g := Int.gcd f.num f.den
  if f.num = 0 then zero
  else
    let top := f.num.natAbs / g
    let bottom := f.den.natAbs / g
    if h : top < Nat.pow 2 63 ∧ bottom < Nat.pow 2 63 then
      { num := if f.num < 0 ↔ f.den < 0 then top else -top
        den := bottom
        num_inWord := by
          split
          · exact (inWord_of_lt h.1).1
          · exact (inWord_of_lt h.1).2
        den_inWord := (inWord_of_lt h.2).1 }
    else f

end Fraction

/-! ## Numbers of either kind -/

open Numeral Text

/-- A number that an answer writes. -/
inductive Quantity
  | decimal (d : Decimal)
  | fraction (f : Fraction)
  deriving DecidableEq, Repr

namespace Quantity

/-- The normal form: no final fraction zeros, or lowest terms. -/
def simplify : Quantity → Quantity
  | decimal d => decimal d.normalize
  | fraction f => fraction f.reduce

/-- Reads two integers over each other, the lower one not zero, in lowest terms. -/
def readFraction? (num den : List Char) : Option Fraction :=
  (readInteger? (trimChars num)).bind fun n =>
    (readInteger? (trimChars den)).bind fun d =>
      if d = 0 then none else (Fraction.ofInts? n d).map Fraction.reduce

/-- **The quantity that a text writes:** two integers with a `/` between, or a decimal. -/
def read? (s : String) : Option Quantity :=
  match cut '/' (trimChars s.toList) with
  | (num, some den) => (readFraction? num den).map fraction
  | (whole, none) => (Decimal.read? whole).map decimal

/-- The decimal times the denominator is the numerator. -/
def decimalIsFraction (d : Decimal) (f : Fraction) : Bool :=
  match d.times? f.den, Decimal.ofInt? f.num with
  | some product, some num => decide (product.SameValue num)
  | _, _ => false

/-- Both quantities have one value, up to the rounding of `Decimal.times?`. -/
def equivalent (a b : Quantity) : Bool :=
  match a.simplify, b.simplify with
  | fraction f, fraction g => f = g
  | decimal d, decimal e => decide (d.SameValue e)
  | decimal d, fraction f | fraction f, decimal d => decimalIsFraction d f

end Quantity

/-- The text writes a decimal, blanks at its ends aside. -/
def isDecimal (s : String) : Bool := (Decimal.read? (trimChars s.toList)).isSome

end MathQuiz
