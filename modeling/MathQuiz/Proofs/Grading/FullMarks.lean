import MathQuiz.Proofs.Grading.Percentage
import MathQuiz.Proofs.Grading.Verdicts
import MathQuiz.Proofs.Question.Authoring

/-!
# Perfect scores

Slots with one identifier share one answer, so not every question has a perfect score. An authored
question has one, as no identifier is used twice in it.

* `isPerfect_tally_iff`: a score is perfect if there are slots and all of them are correct;
* `Question.Consistent`, `Question.firstAnswers`: slots with one identifier expect one answer, and
  what the first slot with each identifier expects, as answers;
* **`Question.perfect_iff_consistent`**: when a perfect score exists, and how to get it;
* `Question.answerKey`, `Question.get?_answerKey`: the expected answers as answers, of which none is
  lost in an authored question;
* **`Question.full_marks`**: the expected answers score full marks, and blank ones none.
-/

namespace MathQuiz

open Text

theorem isPerfect_tally_iff {w : ScoringSettings} {q : Question} {a : Answers} :
    (tally w q a).isPerfect = true ↔
      0 < q.slots.length ∧ ∀ slot ∈ q.slots, (slot.grade w a).correct = true := by
  rw [tally_eq, Score.isPerfect_iff, Score.correct_of, Score.total_of, List.countP_eq_length]

theorem correct_grade_exact_iff {a : Answers} {slot : Slot} :
    (slot.grade .default a).correct = true ↔
      ∃ value, a.get? slot.id = some value ∧ trim value = trim slot.expected := by
  rw [correct_grade_iff]
  exact exists_congr fun value => and_congr_right fun _ => answerMatches_exact

namespace Question

/-- Slots with one identifier expect one answer, blanks at its ends aside. -/
def Consistent (q : Question) : Prop :=
  ∀ s ∈ q.slots, ∀ t ∈ q.slots, s.id = t.id → trim s.expected = trim t.expected

instance (q : Question) : Decidable q.Consistent := by unfold Consistent; infer_instance

/-- The expected answers, given from the last slot to the first: of the slots with one identifier
the first one counts. -/
def firstAnswers (q : Question) : Answers :=
  .ofList (q.slots.reverse.map fun slot => (slot.id, slot.expected))

theorem lookup_slots (slots : List Slot) (id : String) :
    (slots.map fun slot => (slot.id, slot.expected)).lookup id =
      (slots.find? (·.id == id)).map Slot.expected := by
  induction slots with
  | nil => rfl
  | cons slot slots ih =>
    rw [List.map_cons, List.lookup_cons, List.find?_cons]
    by_cases h : slot.id = id
    · rw [beq_iff_eq.2 h, beq_iff_eq.2 h.symm]
      rfl
    · rw [beq_eq_false_iff_ne.2 h, beq_eq_false_iff_ne.2 (Ne.symm h), ih]

theorem get?_firstAnswers (q : Question) (id : String) :
    q.firstAnswers.get? id = (q.input? id).map Slot.expected := by
  rw [firstAnswers, Answers.get?_ofList, List.map_reverse, List.reverse_reverse, lookup_slots]
  rfl

section Slots

variable {q : Question}

theorem exists_input?_of_mem {slot : Slot} (h : slot ∈ q.slots) :
    ∃ first ∈ q.slots, q.input? slot.id = some first ∧ first.id = slot.id := by
  have hsome : (q.input? slot.id).isSome := by
    rw [Option.isSome_iff_ne_none, ne_eq, input?_eq_none_iff, not_not]
    exact List.mem_map_of_mem h
  obtain ⟨first, hfirst⟩ := Option.isSome_iff_exists.1 hsome
  exact ⟨first, List.mem_of_find?_eq_some hfirst, hfirst, by simpa using List.find?_some hfirst⟩

theorem consistent_of_correct {a : Answers}
    (h : ∀ slot ∈ q.slots, (slot.grade .default a).correct = true) : q.Consistent := by
  intro s hs t ht hid
  obtain ⟨value, hvalue, hmatch⟩ := correct_grade_exact_iff.1 (h s hs)
  obtain ⟨value', hvalue', hmatch'⟩ := correct_grade_exact_iff.1 (h t ht)
  rw [← hid, hvalue, Option.some.injEq] at hvalue'
  rw [← hmatch, hvalue', hmatch']

/-- What the first slot with an identifier expects is correct for all of them. -/
theorem correct_of_consistent {a : Answers} (hconsistent : q.Consistent)
    (h : ∀ id ∈ q.focusOrder, a.get? id = (q.input? id).map Slot.expected) :
    ∀ slot ∈ q.slots, (slot.grade .default a).correct = true := by
  intro slot hslot
  obtain ⟨first, hmem, hfirst, hid⟩ := exists_input?_of_mem hslot
  have hget : a.get? slot.id = some first.expected := by
    rw [h slot.id (List.mem_map_of_mem hslot), hfirst, Option.map_some]
  exact correct_grade_exact_iff.2 ⟨first.expected, hget, hconsistent first hmem slot hslot hid⟩

end Slots

/-- **When a perfect score exists:** slots with one identifier have to expect one answer. Then what
each first slot expects scores perfectly. -/
theorem perfect_iff_consistent (q : Question) :
    ((∃ a, (score q a).value.isPerfect = true) ↔ 0 < q.slots.length ∧ q.Consistent) ∧
    (0 < q.slots.length → q.Consistent → ∀ a : Answers,
      (∀ id ∈ q.focusOrder, a.get? id = (q.input? id).map Slot.expected) →
        (score q a).value.isPerfect = true) ∧
    ∀ id, q.firstAnswers.get? id = (q.input? id).map Slot.expected := by
  simp only [score, value_scoreWith, isPerfect_tally_iff]
  refine ⟨⟨?_, ?_⟩, ?_, get?_firstAnswers q⟩
  · rintro ⟨a, hpos, hcorrect⟩
    exact ⟨hpos, consistent_of_correct hcorrect⟩
  · rintro ⟨hpos, hconsistent⟩
    exact ⟨q.firstAnswers, hpos,
      correct_of_consistent hconsistent fun id _ => get?_firstAnswers q id⟩
  · intro hpos hconsistent a h
    exact ⟨hpos, correct_of_consistent hconsistent h⟩

/-- Two slots that share an identifier: blanks around what they expect make no difference, and a
number written in two ways does. -/
theorem perfect_iff_consistent_shared_id :
    let sharing (expected : String) : Question :=
      ⟨[.pair .fraction (.leaf (.input ⟨"a", " 1/2"⟩) .default)
        (.leaf (.input ⟨"a", expected⟩) .default) none .default]⟩
    (score (sharing "1/2\n") (.ofList [("a", " 1/2")])).value.isPerfect = true ∧
      ∀ a, (score (sharing "0.5") a).value.isPerfect = false := by
  intro sharing
  constructor
  · obtain ⟨-, hperfect, -⟩ := perfect_iff_consistent (sharing "1/2\n")
    exact hperfect (by decide) (by decide +kernel) _ (by decide +kernel)
  · obtain ⟨hiff, -, -⟩ := perfect_iff_consistent (sharing "0.5")
    intro a
    rw [Bool.eq_false_iff]
    intro hperfect
    exact absurd (hiff.1 ⟨a, hperfect⟩).2 (by decide +kernel)

/-! ## Authored questions -/

/-- The expected answers, each given to the identifier of its slot. -/
def answerKey (q : Question) : Answers := .ofList (q.slots.map fun slot => (slot.id, slot.expected))

theorem get?_answerKey {q : Question} (h : q.focusOrder.Nodup) :
    ∀ slot ∈ q.slots, q.answerKey.get? slot.id = some slot.expected := by
  intro slot hslot
  refine Answers.get?_ofList_of_mem ?_ (List.mem_map_of_mem hslot)
  rwa [List.map_map]

section Authored

variable (drafts : List Draft)

theorem nodup_focusOrder_authored : (empty.offerAll drafts).focusOrder.Nodup := by
  rw [focusOrder_offerAll, show empty.focusOrder = [] from rfl, List.nil_append]
  exact (newIds_fresh empty drafts).1

theorem answerable_authored :
    ∀ slot ∈ (empty.offerAll drafts).slots, Text.blankOnly slot.expected = false := by
  refine answerable_offerAll ?_ drafts
  simp [empty, slots, slotsOf]

end Authored

/-- **Full marks and no marks.** Whatever drafts a question was authored by, its expected answers
score full marks, and blank answers or none score nothing. -/
theorem full_marks (drafts : List Draft) (w : ScoringSettings) :
    let q := empty.offerAll drafts
    let n := q.slots.length
    (∀ slot ∈ q.slots, q.answerKey.get? slot.id = some slot.expected) ∧
    (∀ a : Answers, (∀ slot ∈ q.slots, a.get? slot.id = some slot.expected) →
      (scoreWith w q a).value = ⟨n, n, if n = 0 then 0 else 100⟩ ∧
        ((scoreWith w q a).value.isPerfect = true ↔ 0 < n)) ∧
    (∀ a : Answers, (∀ id ∈ q.focusOrder, ∀ value ∈ a.get? id, Text.blankOnly value = true) →
      (scoreWith w q a).value = ⟨0, n, 0⟩) := by
  intro q n
  refine ⟨get?_answerKey (nodup_focusOrder_authored drafts), fun a hkey => ?_, fun a hblank => ?_⟩
  · have hscore : (scoreWith w q a).value = ⟨n, n, if n = 0 then 0 else 100⟩ := by
      rw [value_scoreWith, ← Score.of_all]
      exact tally_of_all_correct fun slot hslot => correct_grade_of_expected (hkey slot hslot)
    refine ⟨hscore, ?_⟩
    rw [hscore]
    simp [Score.isPerfect, Nat.pos_iff_ne_zero]
  · rw [value_scoreWith, ← Score.of_none]
    refine tally_of_none_correct fun slot hslot => ?_
    have hid : slot.id ∈ q.focusOrder := List.mem_map_of_mem hslot
    exact correct_grade_of_blank (answerable_authored drafts slot hslot) (hblank slot.id hid)

theorem full_marks_refused_drafts :
    let q := empty.offerAll [⟨.input, [" a ", " 1/2"], none, .default⟩,
      ⟨.input, ["a", "3"], none, .default⟩, ⟨.input, ["b", " "], none, .default⟩,
      ⟨.input, ["c", "x"], none, .default⟩]
    (∀ w, (scoreWith w q q.answerKey).value = ⟨2, 2, 100⟩) ∧
      ∀ w, (scoreWith w q (.ofList [("a", "\t"), ("b", "3")])).value = ⟨0, 2, 0⟩ := by
  intro q
  have hlength : q.slots.length = 2 := by decide +kernel
  refine ⟨fun w => ?_, fun w => ?_⟩
  · obtain ⟨hkey, hfull, -⟩ := full_marks _ w
    rw [(hfull q.answerKey hkey).1, hlength]
    rfl
  · obtain ⟨-, -, hnone⟩ := full_marks _ w
    rw [hnone (.ofList [("a", "\t"), ("b", "3")]) (by decide +kernel), hlength]

end Question

end MathQuiz
