import MathQuiz.Numeral.Quantity
import MathQuiz.Proofs.Numeral.Values
import Mathlib.Algebra.Order.Field.Basic

/-!
# Equivalence of quantities

Two decimals, and two fractions, are equivalent exactly if they have one value. A decimal and a
fraction are compared by a product that may have been rounded: equal values are always found
equivalent, and what is found equivalent differs by a small part at most.

* `Quantity.value`: the number that a quantity denotes;
* `Quantity.decimalIsFraction_iff`: what the comparison of a decimal and a fraction looks at;
* `Quantity.decimalIsFraction_of_eq`, `Quantity.error_of_decimalIsFraction`: it misses nothing, and
  errs by little;
* **`Quantity.equivalent_bounded`**: both for all quantities that are read;
* **`Quantity.equivalent_iff_of_fits`**: the comparison is exact while the product has 96 bits;
* `Fraction.reduceInWords?`, **`Fraction.reduceInWords?_eq`**: reducing by steps in words of 64
  bits, none of which fails;
* **`Quantity.fractions_canonical`**: fractions have one reduced form.
-/

namespace MathQuiz

open Numeral

def Fraction.value (f : Fraction) : ℚ := f.num / f.den

namespace Quantity

/-- The number that a quantity denotes. -/
def value : Quantity → ℚ
  | decimal d => d.value
  | fraction f => f.value

/-! ## A decimal and a fraction -/

/-- **A decimal is compared with a fraction** by its product with the denominator, if it has one. -/
theorem decimalIsFraction_iff {d : Decimal} {f : Fraction} : decimalIsFraction d f = true ↔
    ∃ product, d.times? f.den = some product ∧ product.mantissa = f.num * 10 ^ product.scale := by
  obtain ⟨num, hnum, hmantissa, hscale⟩ := Decimal.ofInt?_of_inWord f.num_inWord
  have hsame (product : Decimal) : product.SameValue num ↔
      product.mantissa = f.num * 10 ^ product.scale := by
    rw [Decimal.sameValue_iff_mul, hmantissa, hscale, pow_zero, mul_one]
  rw [decimalIsFraction, hnum]
  cases d.times? f.den with
  | none => simp
  | some product => simp [hsame]

section Comparison

variable {d : Decimal} {f : Fraction}

/-- **No equal value is missed,** as only zeros are given up where the product is an integer of 64
bits. -/
theorem decimalIsFraction_of_eq (h : d.mantissa * f.den = f.num * 10 ^ d.scale) :
    decimalIsFraction d f = true := by
  have hsize : (d.mantissa * f.den).natAbs = f.num.natAbs * 10 ^ d.scale := by
    rw [h, Int.natAbs_mul, Int.natAbs_pow]
    rfl
  have hpos (n : ℕ) : 0 < 10 ^ n := Nat.pow_pos (by decide)
  have hfits : (d.mantissa * f.den).natAbs / 10 ^ d.scale < 2 ^ 96 := by
    rw [hsize, Nat.mul_div_cancel _ (hpos _)]
    obtain ⟨hlow, hhigh⟩ := inWord_iff.1 f.num_inWord
    omega
  obtain ⟨n, hn⟩ := Decimal.exists_surplus? hfits
  obtain ⟨hle, hlt, -⟩ := Decimal.surplus?_eq_some_iff.1 hn
  have hsplit : (d.mantissa * f.den).natAbs = f.num.natAbs * 10 ^ (d.scale - n) * 10 ^ n := by
    rw [hsize, Nat.mul_assoc, ← pow_add, Nat.sub_add_cancel hle]
  rw [hsplit, Nat.mul_div_cancel _ (hpos n)] at hlt
  have hsign : decide (d.mantissa * f.den < 0) = decide (f.num < 0) := by
    rw [h]
    exact decide_eq_decide.2 (by simp [mul_neg_iff])
  have hmantissa : (f.num * 10 ^ (d.scale - n)).natAbs < 2 ^ 96 := by
    rwa [Int.natAbs_mul, Int.natAbs_pow]
  -- the numerator with zeros behind it is what rounding leaves, as only zeros are given up
  refine decimalIsFraction_iff.2 ⟨⟨f.num * 10 ^ (d.scale - n), d.scale - n, hmantissa,
    (Nat.sub_le _ _).trans d.scale_le⟩, ?_, rfl⟩
  refine Decimal.times?_eq_some_iff.2 ⟨n, hn, ?_⟩
  rw [hsplit, roundHalfEven_mul _ (hpos n), hsign, Decimal.ofRounded?_eq_some_iff]
  refine .inl ⟨hlt, ?_, rfl⟩
  rw [signed_mul, signed_natAbs]
  push_cast
  rfl

/-- **What is found equal** is the product up to its rounding, and was not carried. -/
theorem exists_rounded_of_decimalIsFraction (h : decimalIsFraction d f = true) :
    ∃ n, Decimal.surplus? (d.mantissa * f.den).natAbs d.scale = some n ∧
      f.num * 10 ^ d.scale = signed (d.mantissa * f.den < 0)
        (roundHalfEven (d.mantissa * f.den).natAbs (10 ^ n) * 10 ^ n) := by
  obtain ⟨product, hproduct, hnum⟩ := decimalIsFraction_iff.1 h
  obtain ⟨n, hn, hrounded⟩ := Decimal.times?_eq_some_iff.1 hproduct
  obtain ⟨hle, -, -⟩ := Decimal.surplus?_eq_some_iff.1 hn
  rcases Decimal.ofRounded?_eq_some_iff.1 hrounded with
    ⟨-, hmantissa, hscale⟩ | ⟨hlarge, -, hmantissa, -⟩
  · refine ⟨n, hn, ?_⟩
    rw [signed_mul, ← hmantissa, hnum, hscale, mul_assoc, Nat.cast_pow, Nat.cast_ofNat, ← pow_add,
      Nat.sub_add_cancel hle]
  · rw [Decimal.rounded_eq_of_carry hn hlarge, hnum] at hmantissa
    exact absurd hmantissa.symm (Decimal.carried_ne_mul f.num_inWord)

theorem error_of_decimalIsFraction (h : decimalIsFraction d f = true) :
    (d.mantissa * f.den - f.num * 10 ^ d.scale).natAbs * 2 ^ 96 ≤
      5 * (f.num * 10 ^ d.scale).natAbs := by
  obtain ⟨n, hn, hnum⟩ := exists_rounded_of_decimalIsFraction h
  rw [hnum, natAbs_signed, natAbs_sub_signed]
  exact Decimal.scaled_error hn

theorem eq_of_decimalIsFraction (h : decimalIsFraction d f = true)
    (hfits : (d.mantissa * f.den).natAbs < 2 ^ 96) :
    d.mantissa * f.den = f.num * 10 ^ d.scale := by
  obtain ⟨n, hn, hnum⟩ := exists_rounded_of_decimalIsFraction h
  obtain rfl : 0 = n := Option.some.inj ((Decimal.surplus?_of_lt hfits).symm.trans hn)
  rw [hnum, pow_zero, roundHalfEven_one, Nat.mul_one, signed_natAbs]

end Comparison

/-! ## All quantities -/

theorem den_ne_zero_of_read? {s : String} {f : Fraction} (h : read? s = some (fraction f)) :
    f.den ≠ 0 := by
  unfold read? at h
  split at h
  · next num den hcut =>
    obtain ⟨f', hread, hf'⟩ := Option.map_eq_some_iff.1 h
    cases hf'
    obtain ⟨n, -, hread⟩ := Option.bind_eq_some_iff.1 hread
    obtain ⟨d, -, hread⟩ := Option.bind_eq_some_iff.1 hread
    split at hread
    · cases hread
    · next hd =>
      obtain ⟨g, hints, rfl⟩ := Option.map_eq_some_iff.1 hread
      exact Fraction.reduce_den_ne_zero (by rwa [(Fraction.ofInts?_eq_some_iff.1 hints).2])
  · next whole hcut =>
    obtain ⟨d, -, hd⟩ := Option.map_eq_some_iff.1 h
    cases hd

theorem value_reduce {f : Fraction} (h : f.den ≠ 0) : f.reduce.value = f.value := by
  have hden : (f.den : ℚ) ≠ 0 := Int.cast_ne_zero.2 h
  have hreduced : (f.reduce.den : ℚ) ≠ 0 := Int.cast_ne_zero.2 (Fraction.reduce_den_ne_zero h)
  rw [Fraction.value, Fraction.value, div_eq_div_iff hreduced hden]
  exact_mod_cast Fraction.reduce_mul_den h

theorem value_eq_iff {d : Decimal} {f : Fraction} (h : f.den ≠ 0) :
    d.value = f.value ↔ d.mantissa * f.den = f.num * 10 ^ d.scale := by
  have hden : (f.den : ℚ) ≠ 0 := Int.cast_ne_zero.2 h
  have hscale : (10 : ℚ) ^ d.scale ≠ 0 := pow_ne_zero _ (by norm_num)
  rw [Decimal.value, Fraction.value, div_eq_div_iff hscale hden]
  exact_mod_cast Iff.rfl

theorem value_mul_den_of_eq {d : Decimal} {f : Fraction}
    (h : d.mantissa * f.den = f.num * 10 ^ d.scale) : d.value * f.den = f.num := by
  have hscale : (10 : ℚ) ^ d.scale ≠ 0 := pow_ne_zero _ (by norm_num)
  rw [Decimal.value, div_mul_eq_mul_div, div_eq_iff hscale]
  exact_mod_cast h

theorem abs_error_le {d : Decimal} {f : Fraction} (h : decimalIsFraction d f = true) :
    |d.value * f.den - f.num| * 2 ^ 96 ≤ 5 * |(f.num : ℚ)| := by
  have hscale : (0 : ℚ) < 10 ^ d.scale := by positivity
  have hquotient : d.value * f.den - f.num =
      ((d.mantissa * f.den - f.num * 10 ^ d.scale : ℤ) : ℚ) / 10 ^ d.scale := by
    rw [Decimal.value]
    push_cast
    field_simp
  have herror : |((d.mantissa * f.den - f.num * 10 ^ d.scale : ℤ) : ℚ)| * 2 ^ 96 ≤
      5 * (|(f.num : ℚ)| * 10 ^ d.scale) := by
    have hnat := error_of_decimalIsFraction h
    rw [Int.natAbs_mul, Int.natAbs_pow] at hnat
    rw [← Int.cast_abs, ← Int.cast_abs, ← Int.natCast_natAbs, ← Int.natCast_natAbs]
    exact_mod_cast hnat
  rw [hquotient, abs_div, abs_of_pos hscale, div_mul_eq_mul_div, div_le_iff₀ hscale]
  linarith

/-! ## Equivalence -/

section Equivalent

variable {d e : Decimal} {f g : Fraction}

theorem equivalent_decimals : (decimal d).equivalent (decimal e) = true ↔ d.value = e.value := by
  rw [← d.value_normalize, ← e.value_normalize, ← Decimal.sameValue_iff]
  exact decide_eq_true_iff

theorem equivalent_fractions (hf : f.den ≠ 0) (hg : g.den ≠ 0) :
    (fraction f).equivalent (fraction g) = true ↔ f.value = g.value := by
  rw [Fraction.value, Fraction.value,
    div_eq_div_iff (Int.cast_ne_zero.2 hf) (Int.cast_ne_zero.2 hg)]
  exact decide_eq_true_iff.trans ((Fraction.reduce_eq_iff hf hg).trans (by exact_mod_cast Iff.rfl))

theorem decimalIsFraction_of_value_eq (hf : f.den ≠ 0) (h : d.value = f.value) :
    decimalIsFraction d.normalize f.reduce = true := by
  refine decimalIsFraction_of_eq ((value_eq_iff (Fraction.reduce_den_ne_zero hf)).1 ?_)
  rw [Decimal.value_normalize, value_reduce hf, h]

end Equivalent

theorem equivalent_eq_decimalIsFraction {a b : Quantity} {d : Decimal} {f : Fraction}
    (h : a.simplify = decimal d ∧ b.simplify = fraction f ∨
      a.simplify = fraction f ∧ b.simplify = decimal d) :
    a.equivalent b = decimalIsFraction d f := by
  rw [equivalent]
  rcases h with ⟨ha, hb⟩ | ⟨ha, hb⟩
  · rw [ha, hb]
  · rw [ha, hb]

theorem equivalent_of_value_eq {s t : String} {a b : Quantity} (ha : read? s = some a)
    (hb : read? t = some b) (h : a.value = b.value) : a.equivalent b = true := by
  cases a with
  | decimal d =>
    cases b with
    | decimal e => exact equivalent_decimals.2 h
    | fraction f =>
      rw [equivalent_eq_decimalIsFraction (.inl ⟨rfl, rfl⟩)]
      exact decimalIsFraction_of_value_eq (den_ne_zero_of_read? hb) h
  | fraction f =>
    cases b with
    | decimal d =>
      rw [equivalent_eq_decimalIsFraction (.inr ⟨rfl, rfl⟩)]
      exact decimalIsFraction_of_value_eq (den_ne_zero_of_read? ha) h.symm
    | fraction g =>
      exact (equivalent_fractions (den_ne_zero_of_read? ha) (den_ne_zero_of_read? hb)).2 h

/-- **Equivalence misses nothing and errs by little:** by `5 / 2 ^ 96` of a numerator at most, and
not at all below `2 ^ 96`. -/
theorem equivalent_bounded {s t : String} {a b : Quantity} (ha : read? s = some a)
    (hb : read? t = some b) :
    (a.value = b.value → a.equivalent b = true ∧ b.equivalent a = true) ∧
    ∀ d f, (a.simplify = decimal d ∧ b.simplify = fraction f ∨
        a.simplify = fraction f ∧ b.simplify = decimal d) → a.equivalent b = true →
      |d.value * f.den - f.num| * 2 ^ 96 ≤ 5 * |(f.num : ℚ)| ∧
      (d.mantissa.natAbs * f.den.natAbs < 2 ^ 96 → d.value * f.den = f.num) := by
  refine ⟨fun h => ⟨equivalent_of_value_eq ha hb h, equivalent_of_value_eq hb ha h.symm⟩,
    fun d f hmixed hequivalent => ?_⟩
  rw [equivalent_eq_decimalIsFraction hmixed] at hequivalent
  refine ⟨abs_error_le hequivalent, fun hfits => ?_⟩
  rw [← Int.natAbs_mul] at hfits
  exact value_mul_den_of_eq (eq_of_decimalIsFraction hequivalent hfits)

theorem equivalent_bounded_wide :
    (∃ a b, (read? "0.0000000335276126861572265625" = some a ∧ read? "9/268435456" = some b) ∧
      a.value = b.value ∧ a.equivalent b = true ∧ b.equivalent a = true) ∧
    ∃ d f, (read? "8/9" = some (fraction f) ∧
        read? "0.8888888888888888888888888889" = some (decimal d)) ∧
      (fraction f).equivalent (decimal d) = true ∧
      |d.value * f.den - f.num| * 2 ^ 96 ≤ 5 * |(f.num : ℚ)| := by
  constructor
  · have hvalue : value (decimal ⟨335276126861572265625, 28, by decide, by decide⟩) =
        value (fraction ⟨9, 268435456, by decide, by decide⟩) := by
      norm_num [value, Decimal.value, Fraction.value]
    have ha : read? "0.0000000335276126861572265625" =
        some (decimal ⟨335276126861572265625, 28, by decide, by decide⟩) := by decide +kernel
    have hb : read? "9/268435456" = some (fraction ⟨9, 268435456, by decide, by decide⟩) := by
      decide +kernel
    exact ⟨_, _, ⟨ha, hb⟩, hvalue, (equivalent_bounded ha hb).1 hvalue⟩
  · have ha : read? "8/9" = some (fraction ⟨8, 9, by decide, by decide⟩) := by decide +kernel
    have hb : read? "0.8888888888888888888888888889" =
        some (decimal ⟨8888888888888888888888888889, 28, by decide, by decide⟩) := by decide +kernel
    have hequivalent : (fraction ⟨8, 9, by decide, by decide⟩).equivalent
        (decimal ⟨8888888888888888888888888889, 28, by decide, by decide⟩) = true := by
      decide +kernel
    have hsimplify : (fraction ⟨8, 9, by decide, by decide⟩).simplify =
        fraction ⟨8, 9, by decide, by decide⟩ ∧
        (decimal ⟨8888888888888888888888888889, 28, by decide, by decide⟩).simplify =
          decimal ⟨8888888888888888888888888889, 28, by decide, by decide⟩ := by decide +kernel
    exact ⟨_, _, ⟨ha, hb⟩, hequivalent,
      ((equivalent_bounded ha hb).2 _ _ (.inr hsimplify) hequivalent).1⟩

/-- **Where the product has 96 bits, the comparison is exact,** in either order. -/
theorem equivalent_iff_of_fits {s : String} {d : Decimal} {f : Fraction}
    (hs : read? s = some (fraction f))
    (hfits : d.normalize.mantissa.natAbs * f.reduce.den.natAbs < 2 ^ 96) :
    ((decimal d).equivalent (fraction f) = true ↔ d.value = f.value) ∧
      ((fraction f).equivalent (decimal d) = true ↔ d.value = f.value) := by
  have hden := den_ne_zero_of_read? hs
  have hexact : decimalIsFraction d.normalize f.reduce = true ↔ d.value = f.value := by
    refine ⟨fun h => ?_, decimalIsFraction_of_value_eq hden⟩
    rw [← Int.natAbs_mul] at hfits
    rw [← Decimal.value_normalize, ← value_reduce hden]
    exact (value_eq_iff (Fraction.reduce_den_ne_zero hden)).2 (eq_of_decimalIsFraction h hfits)
  rw [equivalent_eq_decimalIsFraction (.inl ⟨rfl, rfl⟩),
    equivalent_eq_decimalIsFraction (.inr ⟨rfl, rfl⟩)]
  exact ⟨hexact, hexact⟩

theorem equivalent_iff_of_fits_third :
    ∃ d f, (read? "0.3333333333333333333333333333" = some (decimal d) ∧
        read? "1/3" = some (fraction f)) ∧
      d.normalize.mantissa.natAbs * f.reduce.den.natAbs < 2 ^ 96 ∧
      ((decimal d).equivalent (fraction f) = true ↔ d.value = f.value) := by
  have hd : read? "0.3333333333333333333333333333" =
      some (decimal ⟨3333333333333333333333333333, 28, by decide, by decide⟩) := by decide +kernel
  have hf : read? "1/3" = some (fraction ⟨1, 3, by decide, by decide⟩) := by decide +kernel
  have hfits : (Decimal.normalize
      ⟨3333333333333333333333333333, 28, by decide, by decide⟩).mantissa.natAbs *
        (Fraction.reduce ⟨1, 3, by decide, by decide⟩).den.natAbs < 2 ^ 96 := by decide +kernel
  exact ⟨_, _, ⟨hd, hf⟩, hfits, (equivalent_iff_of_fits hf hfits).1⟩

/-- **Beyond 96 bits, it is not exact:** `9` times the decimal is `8` and `1 / 10 ^ 28`, rounded to
`8`. -/
theorem eight_ninths_rounded :
    ∃ d f, read? "0.8888888888888888888888888889" = some (decimal d) ∧
      read? "8/9" = some (fraction f) ∧
      (decimal d).equivalent (fraction f) = true ∧ (fraction f).equivalent (decimal d) = true ∧
      d.value ≠ f.value := by
  refine ⟨⟨8888888888888888888888888889, 28, by decide, by decide⟩,
    ⟨8, 9, by decide, by decide⟩, by decide +kernel, by decide +kernel, by decide +kernel,
    by decide +kernel, ?_⟩
  norm_num [Decimal.value, Fraction.value]

end Quantity

/-! ## Lowest terms in machine words

No step of reducing overflows or divides by zero in words of 64 bits, and what comes out decides
whether two fractions have one value. -/

namespace Numeral

/-! ### Steps that can fail -/

/-- The number, if a word of so many bits without a sign holds it. -/
def word? (bits n : ℕ) : Option ℕ := if n < 2 ^ bits then some n else none

/-- The number as a word of 64 bits with a sign, if it fits. -/
def integer? (n : ℤ) : Option ℤ := if InWord n then some n else none

/-- The quotient, unless it is one by zero. -/
def quotient? (p q : ℕ) : Option ℕ := if q = 0 then none else some (p / q)

theorem word?_of_lt {bits n : ℕ} (h : n < 2 ^ bits) : word? bits n = some n := if_pos h

theorem integer?_of_inWord {n : ℤ} (h : InWord n) : integer? n = some n := if_pos h

theorem quotient?_of_ne_zero (p : ℕ) {q : ℕ} (h : q ≠ 0) : quotient? p q = some (p / q) := if_neg h

theorem gcd_le {a b n : ℕ} (ha : a ≤ n) (hb : b ≤ n) : a.gcd b ≤ n := by
  rcases Nat.eq_zero_or_pos a with rfl | hpos
  · rwa [Nat.gcd_zero_left]
  · exact (Nat.gcd_le_left b hpos).trans ha

end Numeral

namespace Fraction

theorem natAbs_le (f : Fraction) : f.num.natAbs ≤ 2 ^ 63 ∧ f.den.natAbs ≤ 2 ^ 63 := by
  have hnum := inWord_iff.1 f.num_inWord
  have hden := inWord_iff.1 f.den_inWord
  omega

/-- Reduces step by step in words of 64 bits. A step that overflows or divides by zero gives no
result. -/
def reduceInWords? (f : Fraction) : Option Fraction := do
  let top ← word? 64 f.num.natAbs
  let bottom ← word? 64 f.den.natAbs
  let divisor ← word? 64 (top.gcd bottom)
  if divisor = 0 ∨ top = 0 then return zero
  let top ← quotient? top divisor
  let bottom ← quotient? bottom divisor
  if top < 2 ^ 63 ∧ bottom < 2 ^ 63 then
    let num ← integer? (if f.num < 0 ↔ f.den < 0 then top else -top)
    let den ← integer? bottom
    ofInts? num den
  else return f

/-- **No step of reducing fails,** and the steps lead to the reduced fraction. -/
theorem reduceInWords?_eq (f : Fraction) : f.reduceInWords? = some f.reduce := by
  obtain ⟨hnum, hden⟩ := f.natAbs_le
  have hdivides : f.num.natAbs.gcd f.den.natAbs = Int.gcd f.num f.den := rfl
  have hgcd : Int.gcd f.num f.den ≤ 2 ^ 63 := gcd_le hnum hden
  unfold reduceInWords?
  have hword {n : ℕ} (h : n ≤ 2 ^ 63) : word? 64 n = some n := word?_of_lt (by omega)
  simp only [hword hnum, hword hden, hdivides, hword hgcd, Option.bind_eq_bind, Option.bind_some]
  by_cases hzero : f.num = 0
  · rw [if_pos (.inr (Int.natAbs_eq_zero.2 hzero)), reduce_of_num_eq_zero hzero]
    rfl
  · have hdivisor : Int.gcd f.num f.den ≠ 0 := (Int.gcd_pos_of_ne_zero_left _ hzero).ne'
    rw [if_neg (not_or.2 ⟨hdivisor, fun h => hzero (Int.natAbs_eq_zero.1 h)⟩),
      quotient?_of_ne_zero _ hdivisor, quotient?_of_ne_zero _ hdivisor, Option.bind_some,
      Option.bind_some, reduce, if_neg hzero]
    dsimp only [Nat.pow_eq]
    split
    · next hfits =>
      -- both signs of a part below `2 ^ 63` fit
      rw [integer?_of_inWord, integer?_of_inWord (inWord_of_lt hfits.2).1, Option.bind_some,
        Option.bind_some]
      · exact ofInts?_eq_some_iff.2 ⟨rfl, rfl⟩
      · split
        · exact (inWord_of_lt hfits.1).1
        · exact (inWord_of_lt hfits.1).2
    · rfl

section Canonical

variable {f : Fraction} (hden : f.den ≠ 0)
include hden

/-- **Reducing twice** is reducing once. -/
theorem reduce_reduce : f.reduce.reduce = f.reduce :=
  have hden' := reduce_den_ne_zero hden
  (reduced_reduce hden').eq_of_cross (reduced_reduce hden) (reduce_mul_den hden')

/-- A fraction with a reduced part of the size `2 ^ 63` stays as it is, any other one gets a
positive denominator. -/
theorem reduce_eq_self_or_den_pos :
    if f.num.natAbs / Int.gcd f.num f.den = 2 ^ 63 ∨ f.den.natAbs / Int.gcd f.num f.den = 2 ^ 63
    then f.reduce = f else 0 < f.reduce.den := by
  have hden0 : 0 < f.den.natAbs := Int.natAbs_pos.2 hden
  by_cases hzero : f.num = 0
  · have hdivisor : Int.gcd f.num f.den = f.den.natAbs := by rw [hzero, Int.gcd_zero_left]
    rw [hdivisor, hzero, Int.natAbs_zero, Nat.zero_div, Nat.div_self hden0, if_neg (by omega),
      reduce_of_num_eq_zero hzero]
    decide
  · obtain ⟨hnum63, hden63⟩ := f.natAbs_le
    have htop : f.num.natAbs / Int.gcd f.num f.den ≤ f.num.natAbs := Nat.div_le_self _ _
    have hbottom : f.den.natAbs / Int.gcd f.num f.den ≤ f.den.natAbs := Nat.div_le_self _ _
    have hpos : 0 < f.den.natAbs / Int.gcd f.num f.den :=
      Nat.div_pos (Nat.le_of_dvd hden0 (Nat.gcd_dvd_right _ _))
        (Int.gcd_pos_of_ne_zero_left _ hzero)
    rw [reduce, if_neg hzero]
    dsimp only [Nat.pow_eq]
    split
    · next hlarge => exact dif_neg (by omega)
    · next hsmall =>
      rw [dif_pos (by omega)]
      exact Int.natCast_pos.2 hpos

end Canonical

end Fraction

/-- **Fractions have one reduced form,** over all of 64 bits, which words of 64 bits find and which
is the same for two fractions exactly if their cross products are. -/
theorem Quantity.fractions_canonical {f g : Fraction} (hf : f.den ≠ 0) (hg : g.den ≠ 0) :
    (∃ r, (fraction f).simplify = fraction r ∧ f.reduceInWords? = some r ∧
      r.num * f.den = f.num * r.den ∧ Int.gcd r.num r.den = 1 ∧
      (if f.num.natAbs / Int.gcd f.num f.den = 2 ^ 63 ∨ f.den.natAbs / Int.gcd f.num f.den = 2 ^ 63
        then r = f else 0 < r.den) ∧
      (fraction r).simplify = fraction r) ∧
    ((fraction f).equivalent (fraction g) = true ↔ f.num * g.den = g.num * f.den) := by
  refine ⟨⟨f.reduce, rfl, f.reduceInWords?_eq, Fraction.reduce_mul_den hf,
    (Fraction.reduced_reduce hf).coprime, Fraction.reduce_eq_self_or_den_pos hf,
    congrArg fraction (Fraction.reduce_reduce hf)⟩, ?_⟩
  exact decide_eq_true_iff.trans (Fraction.reduce_eq_iff hf hg)

theorem Quantity.fractions_canonical_least :
    ∃ f g : Fraction, f.num = -9223372036854775808 ∧ f.den = -3 ∧ g.num = 4 ∧ g.den = -6 ∧
      f.reduceInWords? = some f ∧ (fraction f).equivalent (fraction g) = false := by
  let f : Fraction := ⟨-9223372036854775808, -3, by decide, by decide⟩
  let g : Fraction := ⟨4, -6, by decide, by decide⟩
  obtain ⟨⟨r, -, hwords, -, -, hsame, -⟩, hequivalent⟩ :=
    fractions_canonical (f := f) (g := g) (by decide) (by decide)
  rw [if_pos (by decide +kernel)] at hsame
  refine ⟨f, g, rfl, rfl, rfl, rfl, by rw [hwords, hsame], Bool.eq_false_iff.2 fun heq => ?_⟩
  exact absurd (hequivalent.1 heq) (by decide)

end MathQuiz
