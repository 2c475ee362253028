import MathQuiz.Grading.Attempt
import MathQuiz.Proofs.Text.Joining
import MathQuiz.Proofs.Numeral.Reading

/-!
# Answers that match

An answer matches if it is the expected text, blanks at their ends aside, or if numbers count and
both texts write equivalent ones. Decimal texts that match write numbers that are close; these are
the same if decimals hold both, but not always, since digits that do not fit are rounded away.

* `Quantity.read?_trim`, `Quantity.equivalent_comm`: blanks at the ends of a number do not count,
  and equivalence does not depend on the order;
* **`answerMatches_iff`**: when an answer matches;
* `answerMatches_trim`, `answerMatches_comm`, `answerMatches_self`, `answerMatches_blank`: what
  follows for either setting;
* `answerMatches_decimals`: matching decimals have one value;
* **`decimal_answers`**: what matching says about the numbers that are written;
* `decimal_answers_rounded`: two numbers that match and differ.
-/

namespace MathQuiz

open Numeral Text

/-! ## Numbers -/

namespace Quantity

theorem read?_trim (s : String) : read? (trim s) = read? s := by
  rw [read?, read?, ← toList_trim (trim s), trim_trim, toList_trim]

theorem read?_empty : read? "" = none := by decide

theorem equivalent_comm (a b : Quantity) : a.equivalent b = b.equivalent a := by
  rw [equivalent, equivalent]
  cases a.simplify with
  | decimal d =>
    cases b.simplify with
    | decimal e => exact decide_eq_decide.2 eq_comm
    | fraction g => rfl
  | fraction f =>
    cases b.simplify with
    | decimal e => rfl
    | fraction g => exact decide_eq_decide.2 eq_comm

end Quantity

/-! ## Answers -/

section Match

variable {w : ScoringSettings} {submitted expected : String}

/-- **When an answer matches.** -/
theorem answerMatches_iff : answerMatches w submitted expected = true ↔
    trim submitted = trim expected ∨ w.numericEquivalence = true ∧
      ∃ a b, Quantity.read? submitted = some a ∧ Quantity.read? expected = some b ∧
        a.equivalent b = true := by
  simp only [answerMatches, Quantity.read?_trim, Bool.or_eq_true, decide_eq_true_eq,
    Bool.and_eq_true]
  cases Quantity.read? submitted <;> cases Quantity.read? expected <;> simp

variable (w) in
theorem answerMatches_trim (submitted expected : String) :
    answerMatches w (trim submitted) expected = answerMatches w submitted expected := by
  rw [Bool.eq_iff_iff, answerMatches_iff, answerMatches_iff, trim_trim, Quantity.read?_trim]

theorem answerMatches_exact :
    answerMatches ⟨false⟩ submitted expected = true ↔ trim submitted = trim expected := by
  rw [answerMatches_iff]
  simp

variable (w) in
theorem answerMatches_self (expected : String) : answerMatches w expected expected = true :=
  answerMatches_iff.2 (.inl rfl)

theorem answerMatches_swap (h : answerMatches w submitted expected = true) :
    answerMatches w expected submitted = true := by
  rcases answerMatches_iff.1 h with htext | ⟨hnumbers, a, b, ha, hb, hequivalent⟩
  · exact answerMatches_iff.2 (.inl htext.symm)
  · rw [Quantity.equivalent_comm] at hequivalent
    exact answerMatches_iff.2 (.inr ⟨hnumbers, b, a, hb, ha, hequivalent⟩)

variable (w) in
theorem answerMatches_comm (submitted expected : String) :
    answerMatches w submitted expected = answerMatches w expected submitted :=
  Bool.eq_iff_iff.2 ⟨answerMatches_swap, answerMatches_swap⟩

/-- Nothing is left of a blank answer: neither the expected text nor a number. -/
theorem answerMatches_blank (hsubmitted : blankOnly submitted = true)
    (hexpected : blankOnly expected = false) : answerMatches w submitted expected = false := by
  have hempty : trim submitted = "" := trim_eq_empty_iff.2 hsubmitted
  have hnone : Quantity.read? submitted = none := by
    rw [← Quantity.read?_trim, hempty, Quantity.read?_empty]
  rw [Bool.eq_false_iff, ne_eq, answerMatches_iff, hempty]
  rintro (htext | ⟨-, a, b, ha, -⟩)
  · rw [trim_eq_empty_iff.1 htext.symm] at hexpected
    cases hexpected
  · rw [hnone] at ha
    cases ha

end Match

/-! ## Decimal answers -/

/-- Numbers close to the same one differ by a unit of the 28th place at most, or by a small part. -/
theorem Close.dist {x y z : ℚ} (hx : Close x z) (hy : Close y z) :
    |x - y| * 10 ^ 28 ≤ 1 ∨ |x - y| * 2 ^ 96 ≤ 11 * |x| := by
  have htriangle : |x - y| ≤ |x - z| + |y - z| := by
    rw [abs_sub_comm y z]
    exact abs_sub_le x z y
  have hsize : |z| ≤ |x| + |x - z| := by
    rw [abs_sub_comm x z]
    linarith [abs_sub_abs_le_abs_sub z x]
  -- the larger of the two bounds is one for both
  rcases le_total (5 * |z| * (2 * 10 ^ 28)) (2 ^ 96) with hsmall | hlarge
  · have hboth {v : ℚ} (hv : Close v z) : |v - z| * (2 * 10 ^ 28) ≤ 1 := by
      rcases hv with hv | hv <;> linarith
    left
    linarith [hboth hx, hboth hy]
  · have hboth {v : ℚ} (hv : Close v z) : |v - z| * 2 ^ 96 ≤ 5 * |z| := by
      rcases hv with hv | hv <;> linarith
    right
    linarith [hboth hx, hboth hy]

/-! ### Matching -/

section Decimals

variable {s t : String}

theorem answerMatches_decimals {d e : Decimal} (hs : Quantity.read? s = some (.decimal d))
    (ht : Quantity.read? t = some (.decimal e)) :
    answerMatches ⟨true⟩ s t = true ↔ d.value = e.value := by
  have hsame : trim s = trim t → d.value = e.value := by
    intro h
    rw [← Quantity.read?_trim, h, Quantity.read?_trim, ht] at hs
    cases hs
    rfl
  rw [answerMatches_iff]
  refine (or_congr_right ?_).trans (or_iff_right_of_imp hsame)
  simp [hs, ht, Quantity.equivalent_decimals]

theorem exists_decimal_of_isSome {w : DecimalText} (hw : trimChars s.toList = w.chars)
    (h : (Quantity.read? s).isSome) : ∃ d, Quantity.read? s = some (.decimal d) ∧
      Decimal.read? w.chars = some d := by
  rw [Quantity.read?_of_text hw, Option.isSome_map] at h
  obtain ⟨d, hd⟩ := Option.isSome_iff_exists.1 h
  exact ⟨d, by rw [Quantity.read?_of_text hw, hd, Option.map_some], hd⟩

/-- **What matching says about decimals.** Those of one number match, and numbers that match are the
same if decimals hold both, and close to each other otherwise. -/
theorem decimal_answers {a b : DecimalText} (hs : trimChars s.toList = a.chars)
    (ht : trimChars t.toList = b.chars) (hsread : (Quantity.read? s).isSome)
    (htread : (Quantity.read? t).isSome) :
    (a.value = b.value → answerMatches ⟨true⟩ s t = true) ∧
    (answerMatches ⟨true⟩ s t = true →
      (Decimal.Holds a.value → Decimal.Holds b.value → a.value = b.value) ∧
      (|a.value - b.value| * 10 ^ 28 ≤ 1 ∨ |a.value - b.value| * 2 ^ 96 ≤ 11 * |a.value|)) := by
  obtain ⟨d, hsd, hd⟩ := exists_decimal_of_isSome hs hsread
  obtain ⟨e, hte, he⟩ := exists_decimal_of_isSome ht htread
  rw [answerMatches_decimals hsd hte]
  refine ⟨Decimal.value_eq_of_read? hd he, fun hmatch => ⟨fun ha hb => ?_, ?_⟩⟩
  · rw [← Decimal.value_of_holds hd ha, ← Decimal.value_of_holds he hb, hmatch]
  · have hclose : Close a.value e.value := hmatch ▸ Decimal.close_of_read? hd
    exact hclose.dist (Decimal.close_of_read? he)

end Decimals

theorem decimal_answers_zeros : ∃ a b : DecimalText,
    (trimChars "-00.500".toList = a.chars ∧ trimChars " -0.5 ".toList = b.chars) ∧
    ((Quantity.read? "-00.500").isSome ∧ (Quantity.read? " -0.5 ").isSome) ∧ a.value = b.value ∧
      answerMatches ⟨true⟩ "-00.500" " -0.5 " = true := by
  have hchars : trimChars "-00.500".toList =
      DecimalText.chars ⟨true, ⟨['0', '0'], by decide, by simp⟩,
        some ⟨['5', '0', '0'], by decide, by simp⟩⟩ ∧
      trimChars " -0.5 ".toList =
        DecimalText.chars ⟨true, ⟨['0'], by decide, by simp⟩,
          some ⟨['5'], by decide, by simp⟩⟩ := by decide +kernel
  have hread : (Quantity.read? "-00.500").isSome ∧ (Quantity.read? " -0.5 ").isSome := by
    decide +kernel
  have hvalue : DecimalText.value ⟨true, ⟨['0', '0'], by decide, by simp⟩,
        some ⟨['5', '0', '0'], by decide, by simp⟩⟩ =
      DecimalText.value ⟨true, ⟨['0'], by decide, by simp⟩,
        some ⟨['5'], by decide, by simp⟩⟩ := by decide +kernel
  exact ⟨_, _, hchars, hread, hvalue,
    (decimal_answers hchars.1 hchars.2 hread.1 hread.2).1 hvalue⟩

/-- **Matching decimals may differ:** the 29th place has none in a decimal. -/
theorem decimal_answers_rounded : ∃ a b : DecimalText,
    trimChars "1.00000000000000000000000000001".toList = a.chars ∧ trimChars "1".toList = b.chars ∧
    (Quantity.read? "1.00000000000000000000000000001").isSome ∧ (Quantity.read? "1").isSome ∧
      answerMatches ⟨true⟩ "1.00000000000000000000000000001" "1" = true ∧ a.value ≠ b.value := by
  refine ⟨⟨false, ⟨['1'], by decide, by simp⟩,
      some ⟨List.replicate 28 '0' ++ ['1'], by decide, by simp⟩⟩,
    ⟨false, ⟨['1'], by decide, by simp⟩, none⟩, ?_⟩
  decide +kernel

end MathQuiz
