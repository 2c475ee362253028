import MathQuiz.Proofs.Numeral.Equivalence
import MathQuiz.Proofs.Numeral.Precision
import MathQuiz.Proofs.Text.Joining

/-!
# What reads as a quantity

A text reads as a fraction if two integers of 64 bits stand around its only slash, and as a decimal
if it is a decimal text that fits. Nothing else reads as a quantity.

* `WritesQuotient`: the texts that write a quotient of two integers;
* `Quantity.exists_fraction_iff`, `Quantity.exists_decimal_iff`: the texts of either kind;
* **`Quantity.read?_grammar`**: all texts, with the number that is read.
-/

namespace MathQuiz

open Numeral Text

/-- The text has one slash, and what stands on its two sides, trimmed, writes two integers of 64
bits of this quotient, the second one not zero. -/
def WritesQuotient (t : List Char) (q : ℚ) : Prop :=
  ∃ num den, t.count '/' = 1 ∧ t = num ++ '/' :: den ∧
    ∃ a b : IntegerText, a.chars = trimChars num ∧ b.chars = trimChars den ∧
      InWord a.value ∧ InWord b.value ∧ b.value ≠ 0 ∧ q = a.value / b.value

namespace Quantity

section Kinds

variable {s : String}

theorem read?_of_slash {num den : List Char} (h : trimChars s.toList = num ++ '/' :: den)
    (hnum : '/' ∉ num) : read? s = (readFraction? num den).map fraction := by
  rw [read?, h, cut_append hnum]

theorem read?_of_no_slash (h : '/' ∉ trimChars s.toList) :
    read? s = (Decimal.read? (trimChars s.toList)).map decimal := by
  rw [read?, cut_of_not_mem h]

/-! ## Fractions -/

theorem readFraction?_eq_some_iff {num den : List Char} {f : Fraction} :
    readFraction? num den = some f ↔
      ∃ a b : IntegerText, a.chars = trimChars num ∧ b.chars = trimChars den ∧ b.value ≠ 0 ∧
        ∃ g : Fraction, g.num = a.value ∧ g.den = b.value ∧ g.reduce = f := by
  constructor
  · intro h
    obtain ⟨n, hn, h⟩ := Option.bind_eq_some_iff.1 h
    obtain ⟨d, hd, h⟩ := Option.bind_eq_some_iff.1 h
    obtain ⟨a, ha, rfl⟩ := readInteger?_eq_some_iff.1 hn
    obtain ⟨b, hb, rfl⟩ := readInteger?_eq_some_iff.1 hd
    split at h
    · cases h
    · next hzero =>
      obtain ⟨g, hg, hreduce⟩ := Option.map_eq_some_iff.1 h
      obtain ⟨hnum, hden⟩ := Fraction.ofInts?_eq_some_iff.1 hg
      exact ⟨a, b, ha, hb, hzero, g, hnum, hden, hreduce⟩
  · rintro ⟨a, b, ha, hb, hzero, g, hnum, hden, rfl⟩
    rw [readFraction?, ← ha, ← hb, readInteger?_chars, readInteger?_chars, Option.bind_some,
      Option.bind_some, if_neg hzero, Fraction.ofInts?_eq_some_iff.2 ⟨hnum, hden⟩]
    rfl

theorem value_of_parts {g : Fraction} {a b : ℤ} (hnum : g.num = a) (hden : g.den = b)
    (hb : b ≠ 0) : g.reduce.value = (a : ℚ) / b := by
  rw [value_reduce (by rwa [hden]), Fraction.value, hnum, hden]

/-- **The texts that read as a fraction,** and its value. -/
theorem exists_fraction_iff {q : ℚ} :
    (∃ f, read? s = some (fraction f) ∧ f.den ≠ 0 ∧ f.value = q) ↔
      WritesQuotient (trimChars s.toList) q := by
  constructor
  · rintro ⟨f, hread, -, rfl⟩
    by_cases hslash : '/' ∈ trimChars s.toList
    · obtain ⟨num, den, hsplit, hnum⟩ := List.eq_append_cons_of_mem hslash
      rw [read?_of_slash hsplit hnum] at hread
      obtain ⟨f', hread, hf⟩ := Option.map_eq_some_iff.1 hread
      cases hf
      obtain ⟨a, b, ha, hb, hzero, g, hgnum, hgden, rfl⟩ := readFraction?_eq_some_iff.1 hread
      -- a second slash would stand in the denominator
      have hden : '/' ∉ den := by
        rw [← mem_trimChars rfl, ← hb]
        exact b.not_mem_chars rfl (by decide) (by decide)
      have hcount : (trimChars s.toList).count '/' = 1 := by
        rw [hsplit, List.count_append, List.count_cons_self, List.count_eq_zero.2 hnum,
          List.count_eq_zero.2 hden]
      exact ⟨num, den, hcount, hsplit, a, b, ha, hb, hgnum ▸ g.num_inWord, hgden ▸ g.den_inWord,
        hzero, value_of_parts hgnum hgden hzero⟩
    · rw [read?_of_no_slash hslash] at hread
      obtain ⟨d, -, hd⟩ := Option.map_eq_some_iff.1 hread
      cases hd
  · rintro ⟨num, den, hcount, hsplit, a, b, ha, hb, haword, hbword, hzero, rfl⟩
    have hnum : '/' ∉ num := by
      rw [hsplit, List.count_append, List.count_cons_self] at hcount
      rw [← List.count_eq_zero]
      omega
    have hread : read? s = some (fraction (Fraction.reduce ⟨_, _, haword, hbword⟩)) := by
      rw [read?_of_slash hsplit hnum,
        readFraction?_eq_some_iff.2 ⟨a, b, ha, hb, hzero, ⟨_, _, haword, hbword⟩, rfl, rfl, rfl⟩]
      rfl
    exact ⟨_, hread, den_ne_zero_of_read? hread, value_of_parts rfl rfl hzero⟩

/-! ## Decimals -/

theorem slash_not_mem {w : DecimalText} : '/' ∉ w.chars :=
  w.not_mem_chars rfl (by decide) (by decide)

theorem read?_of_text {w : DecimalText} (h : trimChars s.toList = w.chars) :
    read? s = (Decimal.read? w.chars).map decimal := by
  rw [read?_of_no_slash (h ▸ slash_not_mem), h]

theorem exists_text_of_read? {d : Decimal} (h : Decimal.read? (trimChars s.toList) = some d) :
    ∃ w : DecimalText, trimChars s.toList = w.chars ∧ Decimal.Fits w := by
  obtain ⟨w, hw⟩ := Decimal.exists_text_of_read? h
  refine ⟨w, hw.symm, Decimal.isSome_read?_iff.1 ?_⟩
  rw [hw, h]
  rfl

/-- **The texts that read as a decimal.** -/
theorem exists_decimal_iff : (∃ d, read? s = some (decimal d)) ↔
    ∃ w : DecimalText, trimChars s.toList = w.chars ∧ Decimal.Fits w := by
  constructor
  · rintro ⟨d, hread⟩
    by_cases hslash : '/' ∈ trimChars s.toList
    · obtain ⟨num, den, hsplit, hnum⟩ := List.eq_append_cons_of_mem hslash
      rw [read?_of_slash hsplit hnum] at hread
      obtain ⟨f, -, hf⟩ := Option.map_eq_some_iff.1 hread
      cases hf
    · rw [read?_of_no_slash hslash] at hread
      obtain ⟨d', hd', -⟩ := Option.map_eq_some_iff.1 hread
      exact exists_text_of_read? hd'
  · rintro ⟨w, hw, hfits⟩
    obtain ⟨d, hd⟩ := Option.isSome_iff_exists.1 (Decimal.isSome_read?_iff.2 hfits)
    exact ⟨d, by rw [read?_of_text hw, hd, Option.map_some]⟩

theorem isDecimal_iff : isDecimal s = true ↔ ∃ d, read? s = some (decimal d) := by
  rw [isDecimal, exists_decimal_iff]
  constructor
  · intro h
    obtain ⟨d, hd⟩ := Option.isSome_iff_exists.1 h
    exact exists_text_of_read? hd
  · rintro ⟨w, hw, hfits⟩
    rw [hw]
    exact Decimal.isSome_read?_iff.2 hfits

theorem read?_of_decimal {w : DecimalText} {d : Decimal} (hw : trimChars s.toList = w.chars)
    (h : read? s = some (decimal d)) : Decimal.read? w.chars = some d := by
  rw [read?_of_text hw] at h
  obtain ⟨d', hd', heq⟩ := Option.map_eq_some_iff.1 h
  cases heq
  exact hd'

end Kinds

/-! ## All texts -/

/-- **What reads as a quantity:** a quotient of two integers of 64 bits as that fraction, and a
decimal text that fits as a decimal close to its number, or equal to it if one is. -/
theorem read?_grammar (s : String) :
    (∀ q, (∃ f, read? s = some (fraction f) ∧ f.den ≠ 0 ∧ f.value = q) ↔
      WritesQuotient (trimChars s.toList) q) ∧
    ((∃ d, read? s = some (decimal d)) ↔
      ∃ w : DecimalText, trimChars s.toList = w.chars ∧ Decimal.Fits w) ∧
    (∀ (w : DecimalText) d, trimChars s.toList = w.chars → read? s = some (decimal d) →
      Close w.value d.value ∧ (Decimal.Holds w.value → d.value = w.value)) ∧
    (read? s = none ↔ (¬ ∃ q, WritesQuotient (trimChars s.toList) q) ∧
      ¬ ∃ w : DecimalText, trimChars s.toList = w.chars ∧ Decimal.Fits w) ∧
    (isDecimal s = true ↔ ∃ d, read? s = some (decimal d)) := by
  refine ⟨fun q => exists_fraction_iff, exists_decimal_iff, fun w d hw hread => ?_, ?_,
    isDecimal_iff⟩
  · have hd := read?_of_decimal hw hread
    exact ⟨Decimal.close_of_read? hd, Decimal.value_of_holds hd⟩
  · rw [← exists_decimal_iff]
    simp only [← exists_fraction_iff]
    cases hread : read? s with
    | none => simp
    | some a =>
      cases a with
      | decimal d => simp
      | fraction f => simp [den_ne_zero_of_read? hread]

theorem read?_grammar_samples : WritesQuotient (trimChars " +6 / -8".toList) (-3 / 4) ∧
    ∃ (w : DecimalText) (d : Decimal),
      trimChars "-0.00000000000000000000000000015 ".toList = w.chars ∧
      read? "-0.00000000000000000000000000015 " = some (decimal d) ∧ Close w.value d.value := by
  constructor
  · have hread : read? " +6 / -8" = some (fraction ⟨-3, 4, by decide, by decide⟩) := by
      decide +kernel
    exact ((read?_grammar _).1 _).1 ⟨_, hread, by decide, by norm_num [Fraction.value]⟩
  · have hchars : trimChars "-0.00000000000000000000000000015 ".toList =
        DecimalText.chars ⟨true, ⟨['0'], by decide, by simp⟩,
          some ⟨List.replicate 27 '0' ++ ['1', '5'], by decide, by simp⟩⟩ := by decide +kernel
    have hread : read? "-0.00000000000000000000000000015 " =
        some (decimal ⟨-2, 28, by decide, by decide⟩) := by decide +kernel
    exact ⟨_, _, hchars, hread, ((read?_grammar _).2.2.1 _ _ hchars hread).1⟩

end Quantity

end MathQuiz
