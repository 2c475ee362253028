import MathQuiz.Numeral.Decimal

/-!
# Floating-point numbers of 64 bits

A finite magnitude is a significand below `2 ^ 53` times a power of two, the least of which is
`2 ^ -1074`. Results are rounded to the nearest such number, a tie going to the even significand.

* `Binary64`, `Binary64.nearest?`: the magnitudes, and the nearest one to a quotient;
* `Binary64.ofNat?`, `Binary64.powerOfTen?`: the nearest ones to an integer and to `10 ^ n`;
* `Binary64.times?`, `Binary64.over?`: rounded products and quotients;
* `Binary64.shortest`: the shortest decimal that is read back as the number;
* `FloatLayout`, `FloatLayout.write`: where the point goes and when there is an exponent.
-/

namespace MathQuiz.Numeral

/-- The magnitude `significand * 2 ^ exponent`. -/
structure Binary64 where
  significand : Nat
  exponent : Int
  deriving DecidableEq, Repr

namespace Binary64

def zero : Binary64 := ⟨0, -1074⟩

def isZero (x : Binary64) : Bool := x.significand == 0

/-- The pair `(p * base ^ e, q)`, in integers. -/
def scaled (base p q : Nat) (e : Int) : Nat × Nat :=
  if 0 ≤ e then (p * base.pow e.toNat, q) else (p, q * base.pow (-e).toNat)

/-- The exponent at which `p / q` has a significand of 53 bits, or the least exponent. -/
def exponentFor (p q : Nat) : Int :=
  let e := max ((p.log2 : Int) - q.log2 - 53) (-1074)
  let (top, bottom) := scaled 2 p q (-e)
  if top < bottom * Nat.pow 2 53 then e else e + 1

/-- The magnitude nearest to `p / q`, unless it is too large for one. -/
def nearest? (p q : Nat) : Option Binary64 :=
  if p = 0 then some zero
  else
    let e := exponentFor p q
    let (top, bottom) := scaled 2 p q (-e)
    let m := roundHalfEven top bottom
    let (m, e) := if m = Nat.pow 2 53 then (Nat.pow 2 52, e + 1) else (m, e)
    if e ≤ 971 then some ⟨m, e⟩ else none

def ofNat? (n : Nat) : Option Binary64 := nearest? n 1

def powerOfTen? (n : Nat) : Option Binary64 := nearest? (Nat.pow 10 n) 1

def times? (x y : Binary64) : Option Binary64 :=
  let (p, q) := scaled 2 (x.significand * y.significand) 1 (x.exponent + y.exponent)
  nearest? p q

/-- The rounded quotient of a magnitude by one that is not zero. -/
def over? (x y : Binary64) : Option Binary64 :=
  let (p, q) := scaled 2 x.significand y.significand (x.exponent - y.exponent)
  nearest? p q

end Binary64

/-! ## Shortest decimal text

Of the decimals that are read back as the number, the one with the fewest digits is written; of two
with as few digits, the nearer one. -/

/-- The decimals `digits * 10 ^ power`. -/
structure Scientific where
  digits : Nat
  power : Int
  deriving DecidableEq, Repr

namespace Scientific

/-- The same value without final zeros among at most `limit` digits. -/
def dropZeros : Nat → Scientific → Scientific
  | 0, x => x
  | limit + 1, x =>
    if x.digits ≠ 0 ∧ x.digits % 10 = 0 then dropZeros limit ⟨x.digits / 10, x.power + 1⟩ else x

end Scientific

namespace Binary64

/-- Four times the significand, with the ends of the interval that rounds to the number, in units of
a quarter of the last place. -/
def interval (x : Binary64) : Nat × Nat × Nat :=
  let v := 4 * x.significand
  let gap := if x.significand = Nat.pow 2 52 ∧ x.exponent ≠ -1074 then 1 else 2
  (v - gap, v, v + 2)

/-- The power of ten of the first digit of `p / q`. -/
def leadingPower (p q : Nat) : Int :=
  if q ≤ p then ((Nat.toDigits 10 (p / q)).length : Int) - 1
  else -((Nat.toDigits 10 ((q + p - 1) / p - 1)).length : Int)

/-- The decimal with `n` digits that is read back as the number, if there is one; the nearer of two,
and of two equally near the even one. -/
def decimalOf? (x : Binary64) (n : Nat) : Option Scientific :=
  let (low, mid, high) := x.interval
  let (unit, den) := scaled 2 1 1 (x.exponent - 2)
  let power := leadingPower (mid * unit) den - (n - 1)
  let (p, q) := scaled 10 (mid * unit) den (-power)
  let (lowP, _) := scaled 10 (low * unit) den (-power)
  let (highP, _) := scaled 10 (high * unit) den (-power)
  let inside (c : Nat) : Bool :=
    if x.significand % 2 = 0 then lowP ≤ c * q && c * q ≤ highP else lowP < c * q && c * q < highP
  let near := roundHalfEven p q
  let far := if near = p / q then near + 1 else near - 1
  if inside near then some ⟨near, power⟩
  else if inside far then some ⟨far, power⟩
  else none

/-- **The shortest decimal that is read back as the number.** -/
def shortest (x : Binary64) : Scientific :=
  match (List.range 17).findSome? fun n => x.decimalOf? (n + 1) with
  | some d => d.dropZeros 17
  | none => ⟨0, 0⟩

end Binary64

/-- Which powers of ten of the first digit are written with a plain point, and the sign in front of
a positive exponent. -/
structure FloatLayout where
  least : Int
  most : Int
  plus : String

/-- The text with a plain point if the layout says so, otherwise with an exponent. -/
def FloatLayout.write (layout : FloatLayout) (negative : Bool) (x : Binary64) : String :=
  let sign := if negative then "-" else ""
  if x.isZero then sign ++ "0.0"
  else
    let d := x.shortest
    let digits := Nat.toDigits 10 d.digits
    let first : Int := d.power + digits.length - 1
    let body : List Char :=
      if layout.least ≤ first ∧ first ≤ layout.most then
        if 0 ≤ d.power then digits ++ List.replicate d.power.toNat '0' ++ ['.', '0']
        else if 0 ≤ first then
          digits.take (first.toNat + 1) ++ '.' :: digits.drop (first.toNat + 1)
        else ['0', '.'] ++ List.replicate (-first - 1).toNat '0' ++ digits
      else
        let exponent := (if first < 0 then "-" else layout.plus) ++ toString first.natAbs
        digits.take 1 ++ (if digits.length = 1 then [] else '.' :: digits.drop 1) ++
          'e' :: exponent.toList
    sign ++ String.ofList body

/-- A point stands in numbers from `10 ^ -5` to below `10 ^ 16`, and exponents carry their sign. -/
def plainLayout : FloatLayout := ⟨-5, 15, "+"⟩

end MathQuiz.Numeral
