import MathQuiz.Proofs.Grading.Verdicts
import MathQuiz.Proofs.Numeral.Equivalence

/-!
# Percentages, and marks where numbers count

The percentage of a score is the nearest integer, and of two nearest ones the larger. Where numbers
count as well as texts, no slot is lost, so the score is at least as high.

* `Score.percentage_eq_iff`: the bounds that determine it;
* `Score.percentage_le`, `Score.percentage_mono`: it is at most a hundred and grows with the count;
* `Score.isPerfect_of_hundred`, `Score.hundred_of_large`: what a hundred says about a wrong slot;
* `percentageInWords?`, `Score.percentageInWords?_eq`: it is found by steps in words, none of which
  overflows;
* **`percentage_rounded`**: all of it, for the scores of answers, of which every count occurs
  (`tally_onesAndTwos`);
* `answerMatches_lenient`, `reads_of_lenient`, `Verdict.Eased`: an answer that matches where numbers
  count matches as a text or reads as a number, and what becomes of its verdict;
* **`numbers_add_marks`**: no slot is lost where numbers count.
-/

namespace MathQuiz

open Numeral

/-! ## The nearest integer -/

namespace Score

variable {correct total p : ℕ}

theorem isPerfect_iff {s : Score} : s.isPerfect = true ↔ 0 < s.total ∧ s.correct = s.total := by
  rw [isPerfect, Bool.and_eq_true, bne_iff_ne, beq_iff_eq, Nat.pos_iff_ne_zero]

theorem percentage_of_zero (correct : ℕ) : (of correct 0).percentage = 0 := rfl

theorem quotient_le (h : correct ≤ total) (hpos : 0 < total) :
    (200 * correct + total) / (2 * total) ≤ 100 :=
  Nat.le_of_lt_succ (Nat.div_lt_of_lt_mul (by omega))

theorem percentage_of (h : correct ≤ total) (hpos : 0 < total) :
    (of correct total).percentage = (200 * correct + total) / (2 * total) := by
  have hword : 100 < 2 ^ 32 := by decide
  rw [of, if_neg hpos.ne']
  exact Nat.mod_eq_of_lt ((quotient_le h hpos).trans_lt hword)

/-- **The percentage is the nearest integer,** a half being rounded upwards. -/
theorem percentage_eq_iff (h : correct ≤ total) (hpos : 0 < total) :
    (of correct total).percentage = p ↔
      2 * total * p ≤ 200 * correct + total ∧ 200 * correct + total < 2 * total * (p + 1) := by
  have hcomm : p * (2 * total) = 2 * total * p := Nat.mul_comm _ _
  rw [percentage_of h hpos, Nat.div_eq_iff (by omega), Nat.mul_add_one]
  omega

theorem percentage_eq_hundred_iff (h : correct ≤ total) (hpos : 0 < total) :
    (of correct total).percentage = 100 ↔ 200 * (total - correct) ≤ total := by
  rw [percentage_eq_iff h hpos]
  omega

theorem isPerfect_of_hundred (h : correct ≤ total) (hsmall : total < 200)
    (hhundred : (of correct total).percentage = 100) : (of correct total).isPerfect = true := by
  rcases Nat.eq_zero_or_pos total with rfl | hpos
  · cases hhundred
  · have hfew := (percentage_eq_hundred_iff h hpos).1 hhundred
    have hall : correct = total := by omega
    exact isPerfect_iff.2 ⟨hpos, hall⟩

theorem hundred_of_large {n : ℕ} (h : 199 ≤ n) :
    (of n (n + 1)).percentage = 100 ∧ (of n (n + 1)).isPerfect = false := by
  refine ⟨(percentage_eq_hundred_iff (Nat.le_succ n) (Nat.succ_pos n)).2 (by omega), ?_⟩
  rw [Bool.eq_false_iff, ne_eq, isPerfect_iff]
  exact fun hperfect => Nat.ne_of_lt (Nat.lt_succ_self n) hperfect.2

theorem percentage_le (h : correct ≤ total) : (of correct total).percentage ≤ 100 := by
  rcases Nat.eq_zero_or_pos total with rfl | hpos
  · exact Nat.zero_le _
  · rw [percentage_of h hpos]
    exact quotient_le h hpos

theorem percentage_mono {correct' : ℕ} (h : correct ≤ correct') (h' : correct' ≤ total) :
    (of correct total).percentage ≤ (of correct' total).percentage := by
  rcases Nat.eq_zero_or_pos total with rfl | hpos
  · exact Nat.le_refl _
  · rw [percentage_of (h.trans h') hpos, percentage_of h' hpos]
    exact Nat.div_le_div_right (by omega)

theorem of_eq (h : (of correct total).percentage = p) : of correct total = ⟨correct, total, p⟩ := by
  rw [← h]
  rfl

theorem of_all (n : ℕ) : of n n = ⟨n, n, if n = 0 then 0 else 100⟩ := by
  split
  · next h => rw [h]; rfl
  · next h =>
    exact of_eq ((percentage_eq_hundred_iff (Nat.le_refl n) (Nat.pos_of_ne_zero h)).2 (by omega))

theorem of_none (n : ℕ) : of 0 n = ⟨0, n, 0⟩ := by
  rcases Nat.eq_zero_or_pos n with rfl | hpos
  · rfl
  · exact of_eq ((percentage_eq_iff (Nat.zero_le n) hpos).2 (by omega))

end Score

/-! ## In words -/

/-- Finds the percentage step by step in words of so many bits, and keeps it in one of 32 bits. A
step that overflows or divides by zero gives no result. -/
def percentageInWords? (bits correct total : ℕ) : Option ℕ := do
  if total = 0 then return 0
  let scaled ← word? bits (200 * correct)
  let top ← word? bits (scaled + total)
  let bottom ← word? bits (2 * total)
  let percentage ← quotient? top bottom
  word? 32 percentage

/-- **No step overflows** if the words hold `201` times the total. -/
theorem Score.percentageInWords?_eq {bits correct total : ℕ} (h : correct ≤ total)
    (hfits : 201 * total < 2 ^ bits) :
    percentageInWords? bits correct total = some (of correct total).percentage := by
  unfold percentageInWords?
  rcases Nat.eq_zero_or_pos total with rfl | hpos
  · rfl
  · have hscaled : 200 * correct < 2 ^ bits := by omega
    have htop : 200 * correct + total < 2 ^ bits := by omega
    have hbottom : 2 * total < 2 ^ bits := by omega
    have hkept : (of correct total).percentage < 2 ^ 32 :=
      (percentage_le h).trans_lt (by decide)
    rw [percentage_of h hpos] at hkept ⊢
    simp only [if_neg hpos.ne', word?_of_lt hscaled, word?_of_lt htop, word?_of_lt hbottom,
      quotient?_of_ne_zero _ (Nat.mul_ne_zero two_ne_zero hpos.ne'), word?_of_lt hkept,
      Option.bind_eq_bind, Option.bind_some]

/-! ## The scores of answers -/

theorem correct_tally_le (w : ScoringSettings) (q : Question) (a : Answers) :
    (tally w q a).correct ≤ (tally w q a).total := by
  rw [tally_eq, Score.correct_of, Score.total_of]
  exact List.countP_le_length

/-- A question with some slots that expect `1`, and some that expect `2`. -/
def Question.onesAndTwos (m n : ℕ) : Question :=
  ⟨List.replicate m (.leaf (.input ⟨"a", "1"⟩) .default) ++
    List.replicate n (.leaf (.input ⟨"b", "2"⟩) .default)⟩

theorem Question.slots_onesAndTwos (m n : ℕ) :
    (onesAndTwos m n).slots = List.replicate m ⟨"a", "1"⟩ ++ List.replicate n ⟨"b", "2"⟩ := by
  have hleaf (k : ℕ) (slot : Slot) :
      slotsOf (List.replicate k (.leaf (.input slot) .default)) = List.replicate k slot := by
    induction k with
    | zero => rfl
    | succ k ih => rw [List.replicate_succ, slotsOf, ih]; rfl
  rw [onesAndTwos, slots, slotsOf_append, hleaf, hleaf]

/-- **Every count of correct slots occurs.** -/
theorem tally_onesAndTwos (w : ScoringSettings) (m n : ℕ) :
    tally w (.onesAndTwos m n) (.ofList [("a", "1")]) = .of m (m + n) := by
  have ha : (Slot.grade w (.ofList [("a", "1")]) ⟨"a", "1"⟩).correct = true :=
    correct_grade_of_expected rfl
  have hb : (Slot.grade w (.ofList [("a", "1")]) ⟨"b", "2"⟩).correct = false := rfl
  rw [tally_eq, Question.slots_onesAndTwos]
  simp [List.countP_append, List.countP_replicate, ha, hb]

/-- **The percentage of a score** is the nearest integer, a half being rounded upwards. It never
falls with more correct slots, and hides a wrong one exactly from `200` slots on. -/
theorem percentage_rounded :
    (∀ w q a,
      let s := (scoreWith w q a).value
      s.correct ≤ s.total ∧ s.percentage ≤ 100 ∧
      (∀ bits, 201 * s.total < 2 ^ bits →
        percentageInWords? bits s.correct s.total = some s.percentage) ∧
      (s.total = 0 → s.percentage = 0) ∧
      (0 < s.total → 2 * s.total * s.percentage ≤ 200 * s.correct + s.total ∧
        200 * s.correct + s.total < 2 * s.total * (s.percentage + 1)) ∧
      (∀ w' q' a',
        let s' := (scoreWith w' q' a').value
        s'.total = s.total → s.correct ≤ s'.correct → s.percentage ≤ s'.percentage) ∧
      (0 < s.total → (s.percentage = 100 ↔ 200 * (s.total - s.correct) ≤ s.total))) ∧
    ∀ total, (∀ w q a, (scoreWith w q a).value.total = total →
      (scoreWith w q a).value.percentage = 100 → (scoreWith w q a).value.isPerfect = true) ↔
        total < 200 := by
  constructor
  · intro w q a s
    have hle : s.correct ≤ s.total := correct_tally_le w q a
    have hs : s.percentage = (Score.of s.correct s.total).percentage := rfl
    refine ⟨hle, ?_, fun bits hfits => ?_, fun hzero => ?_, fun hpos => ?_, ?_, fun hpos => ?_⟩
    · rw [hs]
      exact Score.percentage_le hle
    · rw [hs]
      exact Score.percentageInWords?_eq hle hfits
    · rw [hs, hzero]
      exact Score.percentage_of_zero s.correct
    · exact (Score.percentage_eq_iff hle hpos).1 hs.symm
    · intro w' q' a' s' htotal hcorrect
      have hle' : s'.correct ≤ s'.total := correct_tally_le w' q' a'
      have hs' : s'.percentage = (Score.of s'.correct s'.total).percentage := rfl
      rw [hs, hs', ← htotal]
      exact Score.percentage_mono hcorrect hle'
    · rw [hs]
      exact Score.percentage_eq_hundred_iff hle hpos
  · intro total
    constructor
    · intro h
      by_contra hnotless
      obtain ⟨n, rfl⟩ : ∃ n, total = n + 1 := ⟨total - 1, by omega⟩
      have hlarge : 199 ≤ n := by omega
      obtain ⟨hhundred, hnot⟩ := Score.hundred_of_large hlarge
      have hperfect := h .default (.onesAndTwos n 1) (.ofList [("a", "1")])
      rw [value_scoreWith, tally_onesAndTwos, hnot] at hperfect
      cases hperfect rfl hhundred
    · intro hsmall w q a htotal hhundred
      exact Score.isPerfect_of_hundred (correct_tally_le w q a) (htotal.trans_lt hsmall) hhundred

theorem percentage_rounded_tie : ∃ q a, (scoreWith .default q a).value.total = 8 ∧
    (scoreWith .default q a).value.correct = 1 ∧
    (scoreWith .default q a).value.percentage = 13 := by
  refine ⟨.onesAndTwos 1 7, .ofList [("a", "1")], ?_⟩
  obtain ⟨-, -, -, -, hbounds, -⟩ :=
    percentage_rounded.1 .default (.onesAndTwos 1 7) (.ofList [("a", "1")])
  rw [value_scoreWith, tally_onesAndTwos] at hbounds ⊢
  obtain ⟨hlow, hhigh⟩ := hbounds (by decide)
  have hcorrect : (Score.of 1 (1 + 7)).correct = 1 := rfl
  have htotal : (Score.of 1 (1 + 7)).total = 8 := rfl
  rw [htotal, hcorrect] at hlow hhigh
  refine ⟨htotal, hcorrect, ?_⟩
  omega

/-! ## Marks where numbers count -/

section Match

variable {submitted expected : String}

theorem answerMatches_lenient (h : answerMatches ⟨false⟩ submitted expected = true) :
    answerMatches ⟨true⟩ submitted expected = true :=
  answerMatches_iff.2 (.inl (answerMatches_exact.1 h))

theorem reads_of_lenient (h : answerMatches ⟨true⟩ submitted expected = true)
    (hexact : answerMatches ⟨false⟩ submitted expected = false) :
    (Quantity.read? submitted).isSome ∧ (Quantity.read? expected).isSome := by
  rcases answerMatches_iff.1 h with htext | ⟨-, a, b, ha, hb, -⟩
  · rw [answerMatches_exact.2 htext] at hexact
    cases hexact
  · rw [ha, hb]
    exact ⟨rfl, rfl⟩

end Match

/-! ### Verdicts -/

/-- The second verdict is on the same answer to the same slot. It is correct if the first one is,
and differs only if what is submitted and what is expected both read as numbers. -/
structure Verdict.Eased (x y : Verdict) : Prop where
  slot : x.slot = y.slot
  submitted : x.submitted = y.submitted
  correct : x.correct = true → y.correct = true
  reads : x.correct ≠ y.correct → ∃ value, x.submitted = some value ∧
    (Quantity.read? value).isSome ∧ (Quantity.read? x.slot.expected).isSome

theorem eased_grade_slot (slot : Slot) (a : Answers) :
    (slot.grade ⟨false⟩ a).Eased (slot.grade ⟨true⟩ a) := by
  have hcorrect : (slot.grade ⟨false⟩ a).correct = true → (slot.grade ⟨true⟩ a).correct = true := by
    rw [correct_grade_iff, correct_grade_iff]
    rintro ⟨value, hget, hmatch⟩
    exact ⟨value, hget, answerMatches_lenient hmatch⟩
  refine ⟨rfl, rfl, hcorrect, fun hne => ?_⟩
  -- verdicts that differ are wrong by text and correct by number
  cases hexact : (slot.grade ⟨false⟩ a).correct with
  | true => exact absurd (hexact.trans (hcorrect hexact).symm) hne
  | false =>
    cases hlenient : (slot.grade ⟨true⟩ a).correct with
    | false => exact absurd (hexact.trans hlenient.symm) hne
    | true =>
      obtain ⟨value, hget, hmatch⟩ := correct_grade_iff.1 hlenient
      rw [correct_grade, hget, Option.any_some] at hexact
      exact ⟨value, hget, reads_of_lenient hmatch hexact⟩

theorem eased_grade (q : Question) (a : Answers) :
    List.Forall₂ Verdict.Eased (grade ⟨false⟩ q a) (grade ⟨true⟩ q a) := by
  rw [grade, grade, List.forall₂_map_left_iff, List.forall₂_map_right_iff, List.forall₂_same]
  exact fun slot _ => eased_grade_slot slot a

/-! ### Scores -/

/-- **Where numbers count, marks are only added,** and only to slots whose answer and expected text
both read as numbers. -/
theorem numbers_add_marks :
    (∀ q a, List.Forall₂ Verdict.Eased (grade ⟨false⟩ q a) (grade ⟨true⟩ q a)) ∧
    (∀ q a,
      let strict := (score q a).value
      let lenient := (scoreWith ⟨true⟩ q a).value
      lenient.total = strict.total ∧ strict.correct ≤ lenient.correct ∧
        strict.percentage ≤ lenient.percentage) ∧
    ∀ w s t, answerMatches w s s = true ∧ answerMatches w s t = answerMatches w t s := by
  refine ⟨eased_grade, fun q a => ?_, fun w s t => ⟨answerMatches_self w s,
    answerMatches_comm w s t⟩⟩
  have hcount : q.slots.countP (fun slot => (slot.grade ⟨false⟩ a).correct) ≤
      q.slots.countP fun slot => (slot.grade ⟨true⟩ a).correct :=
    List.countP_mono_left fun slot _ => (eased_grade_slot slot a).correct
  simp only [score, value_scoreWith, ScoringSettings.default, tally_eq, Score.correct_of,
    Score.total_of, true_and]
  exact ⟨hcount, Score.percentage_mono hcount List.countP_le_length⟩

end MathQuiz
