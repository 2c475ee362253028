import MathQuiz.Numeral.Quantity
import MathQuiz.Numeral.Decimal
import Mathlib.Algebra.Order.Ring.Abs
import Mathlib.Data.Int.GCD
import Mathlib.Data.Rat.Cast.Order
import Mathlib.Tactic.FieldSimp
import Mathlib.Tactic.Linarith
import Mathlib.Tactic.LinearCombination
import Mathlib.Tactic.Ring

/-!
# Values of fractions and decimals

A reduced fraction has no common divisor and its sign on top, but for a part of the size `2 ^ 63`,
whose sign cannot be changed in 64 bits. Such a part has one sign only, so no value has two reduced
fractions all the same. The product of a decimal with an integer is exact as long as its mantissa
stays below `2 ^ 96`, and beyond that loses a small part at most.

* `Fraction.Reduced`, `Fraction.Reduced.eq_of_cross`: lowest terms with the sign where it can be,
  which are the same for fractions of one value;
* `Fraction.reduce_mul_den`, `Fraction.reduced_reduce`: reducing keeps the value and leads there;
* **`Fraction.reduce_eq_iff`**: fractions of one value are reduced to the same one;
* `Decimal.value`, `Decimal.value_normalize`, `Decimal.sameValue_iff`: the number that a decimal
  denotes;
* `Decimal.surplus?_eq_some_iff`, `Decimal.times?_eq_some_iff`: how many digits a product gives up;
* `Decimal.rounded_eq_of_carry`, `Decimal.carried_ne_mul`: a product that rounding brings to
  `2 ^ 96` is no integer of 64 bits;
* **`Decimal.scaled_error`**: the error of a product that has given up some digits.
-/

/-! ## Lowest terms -/

namespace MathQuiz

theorem inWord_iff {n : ℤ} : InWord n ↔ -2 ^ 63 ≤ n ∧ n < 2 ^ 63 := by
  simp [InWord]

theorem eq_of_coprime_cross {a b c d : ℕ} (hab : a.Coprime b) (hcd : c.Coprime d)
    (h : a * d = c * b) : a = c ∧ b = d := by
  have hac : a ∣ c := hab.dvd_of_dvd_mul_right (Dvd.intro d h)
  have hca : c ∣ a := hcd.dvd_of_dvd_mul_right (Dvd.intro b h.symm)
  have hbd : b ∣ d := hab.symm.dvd_of_dvd_mul_left (Dvd.intro_left c h.symm)
  have hdb : d ∣ b := hcd.symm.dvd_of_dvd_mul_left (Dvd.intro_left a h)
  exact ⟨Nat.dvd_antisymm hac hca, Nat.dvd_antisymm hbd hdb⟩

namespace Fraction

/-- Lowest terms, with the sign on top unless a part is of the size `2 ^ 63`. -/
structure Reduced (f : Fraction) : Prop where
  coprime : f.num.natAbs.Coprime f.den.natAbs
  sign : 0 < f.den ∨ f.den < 0 ∧ (f.num.natAbs = 2 ^ 63 ∨ f.den.natAbs = 2 ^ 63)

theorem Reduced.eq_of_cross {f g : Fraction} (hf : f.Reduced) (hg : g.Reduced)
    (h : f.num * g.den = g.num * f.den) : f = g := by
  have hcross : f.num.natAbs * g.den.natAbs = g.num.natAbs * f.den.natAbs := by
    rw [← Int.natAbs_mul, ← Int.natAbs_mul, h]
  obtain ⟨-, hden⟩ := eq_of_coprime_cross hf.coprime hg.coprime hcross
  have hfsign := hf.sign
  have hgsign := hg.sign
  obtain ⟨fn, fd, hfn, hfd⟩ := f
  obtain ⟨gn, gd, hgn, hgd⟩ := g
  dsimp only at h hden hfsign hgsign
  rw [inWord_iff] at hfn hfd hgn hgd
  have hgd0 : gd ≠ 0 := by omega
  rcases Int.natAbs_eq_natAbs_iff.1 hden with rfl | rfl
  · obtain rfl : fn = gn := mul_right_cancel₀ hgd0 h
    rfl
  · -- with opposite signs one denominator is negative, and the large part there has no negation
    have hopposite : fn = -gn := mul_right_cancel₀ hgd0 (by rw [h]; ring)
    omega

variable {f : Fraction}

/-! ### Reducing -/

theorem ofInts?_eq_some_iff {n d : ℤ} : ofInts? n d = some f ↔ f.num = n ∧ f.den = d := by
  unfold ofInts?
  split
  · next h =>
    obtain ⟨n', d', hn, hd⟩ := f
    simp only [Option.some.injEq, mk.injEq]
    exact ⟨fun h => ⟨h.1.symm, h.2.symm⟩, fun h => ⟨h.1.symm, h.2.symm⟩⟩
  · next h =>
    simp only [reduceCtorEq, false_iff]
    rintro ⟨rfl, rfl⟩
    exact h ⟨f.num_inWord, f.den_inWord⟩

theorem reduce_of_num_eq_zero (h : f.num = 0) : f.reduce = zero := by
  rw [reduce, if_pos h]

/-- **The two ways out of reducing:** both parts fit without their common divisor, or nothing
changes. -/
theorem reduce_cases (h : f.num ≠ 0) : ∃ g a b : ℕ, 0 < g ∧ a.Coprime b ∧
    f.num.natAbs = a * g ∧ f.den.natAbs = b * g ∧
    ((a < 2 ^ 63 ∧ b < 2 ^ 63) ∧
        f.reduce.num = (if f.num < 0 ↔ f.den < 0 then (a : ℤ) else -a) ∧ f.reduce.den = b ∨
      ¬ (a < 2 ^ 63 ∧ b < 2 ^ 63) ∧ f.reduce = f) := by
  have hpos : 0 < Int.gcd f.num f.den := Int.gcd_pos_of_ne_zero_left _ h
  refine ⟨Int.gcd f.num f.den, f.num.natAbs / Int.gcd f.num f.den,
    f.den.natAbs / Int.gcd f.num f.den, hpos, Nat.coprime_div_gcd_div_gcd hpos,
    (Nat.div_mul_cancel (Nat.gcd_dvd_left _ _)).symm,
    (Nat.div_mul_cancel (Nat.gcd_dvd_right _ _)).symm, ?_⟩
  rw [reduce, if_neg h]
  dsimp only
  split
  · next hfits => exact .inl ⟨hfits, rfl, rfl⟩
  · next hfits => exact .inr ⟨hfits, rfl⟩

theorem eq_one_of_mul_le {a g n : ℕ} (hg : 0 < g) (hn : 0 < n) (ha : n ≤ a) (h : a * g ≤ n) :
    g = 1 := by
  have hle : a * g ≤ a * 1 := by omega
  have hg1 : g ≤ 1 := Nat.le_of_mul_le_mul_left hle (by omega)
  omega

theorem eq_or_eq_neg_of_natAbs {n : ℤ} {a g : ℕ} (h : n.natAbs = a * g) :
    n = a * g ∨ n = -(a * g) := by
  rcases Int.natAbs_eq n with hn | hn
  · left
    rw [hn, h, Nat.cast_mul]
  · right
    rw [hn, h, Nat.cast_mul]

variable (hden : f.den ≠ 0)
include hden

/-- **Reducing keeps the value.** -/
theorem reduce_mul_den : f.reduce.num * f.den = f.num * f.reduce.den := by
  by_cases hnum : f.num = 0
  · rw [reduce_of_num_eq_zero hnum, hnum, zero_mul]
    exact zero_mul _
  · obtain ⟨g, a, b, -, -, ha, hb, ⟨-, hnum', hden'⟩ | ⟨-, heq⟩⟩ := reduce_cases hnum
    · rw [hnum', hden']
      -- what is on top has the sign of the quotient
      have ha' := eq_or_eq_neg_of_natAbs ha
      have hb' := eq_or_eq_neg_of_natAbs hb
      rcases ha' with ha' | ha' <;> rcases hb' with hb' | hb'
      · rw [if_pos (by omega), ha', hb']
        ring
      · rw [if_neg (by omega), ha', hb']
        ring
      · rw [if_neg (by omega), ha', hb']
        ring
      · rw [if_pos (by omega), ha', hb']
        ring
    · rw [heq]

/-- **Reducing leads to a reduced fraction.** -/
theorem reduced_reduce : f.reduce.Reduced := by
  by_cases hnum : f.num = 0
  · rw [reduce_of_num_eq_zero hnum]
    exact ⟨by decide, .inl (by decide)⟩
  · obtain ⟨g, a, b, hg, hcoprime, ha, hb, ⟨-, hnum', hden'⟩ | ⟨hlarge, heq⟩⟩ := reduce_cases hnum
    · have hb0 : 0 < b := by
        refine Nat.pos_of_ne_zero fun hb0 => hden ?_
        rwa [hb0, Nat.zero_mul, Int.natAbs_eq_zero] at hb
      have habs : f.reduce.num.natAbs = a := by
        rw [hnum']
        split_ifs <;> simp
      refine ⟨?_, .inl (by omega)⟩
      rwa [habs, hden', Int.natAbs_natCast]
    · have hnumWord := inWord_iff.1 f.num_inWord
      have hdenWord := inWord_iff.1 f.den_inWord
      -- a part without the divisor is as large as a part can be, so the divisor is 1
      obtain rfl : g = 1 := by
        rcases Nat.lt_or_ge a (2 ^ 63) with hsmall | ha63
        · exact eq_one_of_mul_le hg (by omega) (not_lt.1 fun hb => hlarge ⟨hsmall, hb⟩)
            (by omega)
        · exact eq_one_of_mul_le hg (by omega) ha63 (by omega)
      rw [heq]
      rw [Nat.mul_one] at ha hb
      exact ⟨by rwa [ha, hb], by omega⟩

theorem reduce_den_ne_zero : f.reduce.den ≠ 0 := by
  have hsign := (reduced_reduce hden).sign
  omega

omit hden in
/-- **Fractions of one value,** and no others, are reduced to the same fraction. -/
theorem reduce_eq_iff {f g : Fraction} (hf : f.den ≠ 0) (hg : g.den ≠ 0) :
    f.reduce = g.reduce ↔ f.num * g.den = g.num * f.den := by
  have hf' := reduce_mul_den hf
  have hg' := reduce_mul_den hg
  constructor
  · intro h
    rw [← h] at hg'
    refine mul_left_cancel₀ (reduce_den_ne_zero hf) ?_
    linear_combination g.den * (-hf') + f.den * hg'
  · intro h
    refine (reduced_reduce hf).eq_of_cross (reduced_reduce hg) ?_
    refine mul_left_cancel₀ (mul_ne_zero hf hg) ?_
    linear_combination g.den * g.reduce.den * hf' - f.den * f.reduce.den * hg' +
      f.reduce.den * g.reduce.den * h

end Fraction

/-! ## Decimals and their products

A product beyond 96 bits gives up as few digits as possible, so at least the top 96 bits but four
are kept. -/

open Numeral

namespace Numeral

theorem signed_natAbs (n : ℤ) : signed (n < 0) n.natAbs = n := by
  rw [signed]
  split
  · next hneg => exact (Int.eq_neg_natAbs_of_nonpos (of_decide_eq_true hneg).le).symm
  · next hneg => exact Int.natAbs_of_nonneg (not_lt.1 (by simpa using hneg))

theorem natAbs_sub_signed (n : ℤ) (m : ℕ) :
    (n - signed (n < 0) m).natAbs = ((n.natAbs : ℤ) - m).natAbs := by
  rw [signed]
  split
  · next hneg =>
    have hneg' : n < 0 := of_decide_eq_true hneg
    omega
  · next hneg =>
    have hnonneg : 0 ≤ n := not_lt.1 (by simpa using hneg)
    omega

theorem natAbs_signed (negative : Bool) (n : ℕ) : (signed negative n).natAbs = n := by
  cases negative <;> simp [signed]

theorem signed_mul (negative : Bool) (m n : ℕ) :
    signed negative (m * n) = signed negative m * n := by
  cases negative <;> simp [signed]

theorem roundHalfEven_mul (a : ℕ) {q : ℕ} (hq : 0 < q) : roundHalfEven (a * q) q = a := by
  simp only [roundHalfEven, Nat.mul_mod_left, Nat.mul_div_cancel a hq]
  rw [if_neg (by omega)]

end Numeral

namespace Decimal

/-! ### Values -/

/-- The number that a decimal denotes. -/
def value (d : Decimal) : ℚ := d.mantissa / 10 ^ d.scale

theorem natAbs_lt (d : Decimal) : d.mantissa.natAbs < 2 ^ 96 := d.mantissa_lt

theorem sameValue_iff_mul {a b : Decimal} :
    a.SameValue b ↔ a.mantissa * 10 ^ b.scale = b.mantissa * 10 ^ a.scale := by
  simp [SameValue]

theorem sameValue_iff {a b : Decimal} : a.SameValue b ↔ a.value = b.value := by
  have hscale (d : Decimal) : (10 : ℚ) ^ d.scale ≠ 0 := pow_ne_zero _ (by norm_num)
  rw [value, value, div_eq_div_iff (hscale a) (hscale b), sameValue_iff_mul]
  exact_mod_cast Iff.rfl

theorem dropZeros_mul (m : ℤ) (s : ℕ) :
    (dropZeros m s).1 * 10 ^ s = m * 10 ^ (dropZeros m s).2 := by
  induction s generalizing m with
  | zero => rfl
  | succ s ih =>
    rw [dropZeros]
    split
    · next hzero =>
      have hm : m = m / 10 * 10 := (Int.ediv_mul_cancel (Int.dvd_of_emod_eq_zero hzero)).symm
      have hih := ih (m / 10)
      calc (dropZeros (m / 10) s).1 * 10 ^ (s + 1)
          = (dropZeros (m / 10) s).1 * 10 ^ s * 10 := by ring
        _ = m / 10 * 10 * 10 ^ (dropZeros (m / 10) s).2 := by rw [hih]; ring
        _ = m * 10 ^ (dropZeros (m / 10) s).2 := by rw [← hm]
    · rfl

theorem value_normalize (d : Decimal) : d.normalize.value = d.value :=
  sameValue_iff.1 (sameValue_iff_mul.2 (dropZeros_mul d.mantissa d.scale))

theorem ofInt?_of_inWord {n : ℤ} (h : InWord n) :
    ∃ d, ofInt? n = some d ∧ d.mantissa = n ∧ d.scale = 0 := by
  obtain ⟨hlow, hhigh⟩ := inWord_iff.1 h
  have hfits : n.natAbs < 2 ^ 96 ∧ 0 ≤ 28 := by omega
  exact ⟨⟨n, 0, hfits.1, hfits.2⟩, dif_pos hfits, rfl, rfl⟩

/-! ### Digits given up -/

theorem surplus?_eq_some_iff {size scale n : ℕ} : surplus? size scale = some n ↔
    n ≤ scale ∧ size / 10 ^ n < 2 ^ 96 ∧ ∀ m < n, 2 ^ 96 ≤ size / 10 ^ m := by
  have hrange : n ∈ List.range (scale + 1) ↔ n ≤ scale := List.mem_range.trans Nat.lt_succ_iff
  rw [surplus?, List.find?_range_eq_some, hrange]
  simp only [Nat.pow_eq, decide_eq_true_eq, Bool.not_eq_true', decide_eq_false_iff_not, not_lt]
  exact and_left_comm

theorem exists_surplus? {size scale : ℕ} (h : size / 10 ^ scale < 2 ^ 96) :
    ∃ n, surplus? size scale = some n := by
  rw [← Option.isSome_iff_exists, surplus?, List.find?_isSome]
  exact ⟨scale, by simp, by simpa using h⟩

theorem surplus?_of_lt {size scale : ℕ} (h : size < 2 ^ 96) : surplus? size scale = some 0 := by
  rw [surplus?_eq_some_iff]
  refine ⟨Nat.zero_le _, ?_, fun m hm => absurd hm (Nat.not_lt_zero m)⟩
  simpa using h

/-- **A mantissa that was rounded** is kept, or gives up its last digit. -/
theorem ofRounded?_eq_some_iff {negative : Bool} {m s : ℕ} {d : Decimal} :
    ofRounded? negative m s = some d ↔
      m < 2 ^ 96 ∧ d.mantissa = signed negative m ∧ d.scale = s ∨
        2 ^ 96 ≤ m ∧ s ≠ 0 ∧ d.mantissa = signed negative ((m + 4) / 10) ∧ d.scale = s - 1 := by
  rw [ofRounded?, Nat.pow_eq]
  split
  · next hfits => simp [ofParts?_eq_some_iff, hfits, not_le.2 hfits]
  · next hlarge =>
    split
    · next hs => simp [hlarge, hs]
    · next hs => simp [ofParts?_eq_some_iff, hlarge, not_lt.1 hlarge, hs]

theorem exists_ofRounded? {negative : Bool} {m s : ℕ} (hm : m ≤ 2 ^ 96) (hs : s ≤ 28)
    (h : m < 2 ^ 96 ∨ s ≠ 0) : ∃ d, ofRounded? negative m s = some d := by
  rcases Nat.lt_or_ge m (2 ^ 96) with hfits | hlarge
  · have hsize : (signed negative m).natAbs < 2 ^ 96 := by rwa [natAbs_signed]
    exact ⟨⟨_, s, hsize, hs⟩, ofRounded?_eq_some_iff.2 (.inl ⟨hfits, rfl, rfl⟩)⟩
  · have hsize : (signed negative ((m + 4) / 10)).natAbs < 2 ^ 96 := by
      rw [natAbs_signed]
      omega
    exact ⟨⟨_, s - 1, hsize, by omega⟩,
      ofRounded?_eq_some_iff.2 (.inr ⟨hlarge, by omega, rfl, rfl⟩)⟩

/-- **The product with an integer:** its mantissa without the surplus digits, rounded. -/
theorem times?_eq_some_iff {d r : Decimal} {k : ℤ} : d.times? k = some r ↔
    ∃ n, surplus? (d.mantissa * k).natAbs d.scale = some n ∧
      ofRounded? (d.mantissa * k < 0) (roundHalfEven (d.mantissa * k).natAbs (10 ^ n))
        (d.scale - n) = some r := by
  simp only [times?, Option.bind_eq_some_iff, Nat.pow_eq]

/-- The product is `10 * 2 ^ 96 - 5`, which the tie brings to `2 ^ 96`. -/
example : (ofParts? 13842607235828485645766393 5).bind (times? · 57235) =
    ofParts? 7922816251426433759354395034 3 := by
  decide

/-- A mantissa grows by at most one when it is rounded, so a carry leads to `2 ^ 96` itself. -/
theorem rounded_eq_of_carry {size scale n : ℕ} (h : surplus? size scale = some n)
    (hlarge : 2 ^ 96 ≤ roundHalfEven size (10 ^ n)) : roundHalfEven size (10 ^ n) = 2 ^ 96 := by
  obtain ⟨-, hfits, -⟩ := surplus?_eq_some_iff.1 h
  have hone : roundHalfEven size (10 ^ n) ≤ size / 10 ^ n + 1 := by
    simp only [roundHalfEven]
    split <;> omega
  omega

/-- **A carried mantissa is no integer of 64 bits:** it ends in 4, and is too large by itself. -/
theorem carried_ne_mul {negative : Bool} {k : ℤ} {s : ℕ} (hk : InWord k) :
    signed negative ((2 ^ 96 + 4) / 10) ≠ k * 10 ^ s := by
  intro h
  obtain ⟨hlow, hhigh⟩ := inWord_iff.1 hk
  have hsize : (2 ^ 96 + 4) / 10 = k.natAbs * 10 ^ s := by
    rw [← natAbs_signed negative ((2 ^ 96 + 4) / 10), h, Int.natAbs_mul, Int.natAbs_pow]
    rfl
  cases s with
  | zero => omega
  | succ s =>
    rw [pow_succ 10, ← Nat.mul_assoc] at hsize
    omega

/-- What is left of a product that gives up digits has 96 bits but for a last digit. -/
theorem bits_le_rounded {size scale n : ℕ} (h : surplus? size scale = some (n + 1)) :
    2 ^ 96 ≤ 10 * roundHalfEven size (10 ^ (n + 1)) := by
  obtain ⟨-, -, hleast⟩ := surplus?_eq_some_iff.1 h
  have hpos : 0 < 10 ^ n := Nat.pow_pos (by decide)
  have hlarge : 2 ^ 96 * 10 ^ n ≤ size :=
    (Nat.le_div_iff_mul_le hpos).1 (hleast n n.lt_succ_self)
  rw [pow_succ' 10]
  have hround := (roundHalfEven_error (p := size) (q := 10 * 10 ^ n) (by omega)).2
  have hscaled : 2 * 2 ^ 96 * 10 ^ n ≤
      (20 * roundHalfEven size (10 * 10 ^ n) + 10) * 10 ^ n := by
    calc 2 * 2 ^ 96 * 10 ^ n
        = 2 * (2 ^ 96 * 10 ^ n) := Nat.mul_assoc _ _ _
      _ ≤ 2 * size := Nat.mul_le_mul_left 2 hlarge
      _ ≤ 2 * (roundHalfEven size (10 * 10 ^ n) * (10 * 10 ^ n)) + 10 * 10 ^ n := hround
      _ = (20 * roundHalfEven size (10 * 10 ^ n) + 10) * 10 ^ n := by ring
  have hbits := Nat.le_of_mul_le_mul_right hscaled hpos
  -- the last digit of `2 ^ 96` is 6, which is more than rounding can take away
  omega

/-- **A product that gives up digits** is rounded by at most `5 / 2 ^ 96` of the result. -/
theorem scaled_error {size scale n : ℕ} (h : surplus? size scale = some n) :
    ((size : ℤ) - (roundHalfEven size (10 ^ n) * 10 ^ n : ℕ)).natAbs * 2 ^ 96 ≤
      5 * (roundHalfEven size (10 ^ n) * 10 ^ n) := by
  cases n with
  | zero => simp [roundHalfEven_one]
  | succ n =>
    have hbits := bits_le_rounded h
    rw [pow_succ' 10] at *
    have hpos : 0 < 10 ^ n := Nat.pow_pos (by decide)
    obtain ⟨hupper, hlower⟩ := roundHalfEven_error (p := size) (q := 10 * 10 ^ n) (by omega)
    generalize roundHalfEven size (10 * 10 ^ n) = rounded at *
    have herror : ((size : ℤ) - (rounded * (10 * 10 ^ n) : ℕ)).natAbs ≤ 5 * 10 ^ n := by omega
    calc ((size : ℤ) - (rounded * (10 * 10 ^ n) : ℕ)).natAbs * 2 ^ 96
        ≤ 5 * 10 ^ n * (10 * rounded) := Nat.mul_le_mul herror hbits
      _ = 5 * (rounded * (10 * 10 ^ n)) := by ring

end Decimal

end MathQuiz
