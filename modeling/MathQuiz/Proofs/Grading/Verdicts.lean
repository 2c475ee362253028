import MathQuiz.Grading.AnswersText
import MathQuiz.Proofs.Grading.Matching
import Mathlib.Data.List.Induction
import Mathlib.Data.List.Sort

/-!
# Verdicts

A set of answers is a function of identifiers. A verdict depends on the answer to the identifier of
its slot only, and on that answer only up to the blanks at its ends.

* **`Answers.ext_get?`**: sets that give the same answer to every identifier are equal;
* `Answers.setAll`, `Answers.setAll_congr`: some answers set one after the other, those to different
  identifiers in any order;
* `correct_grade_iff`: when a slot is correct; `correct_grade_trim`: blanks do not count;
* `grade_set`, `grade_congr`: what one more answer changes, and the answers that are looked at;
* `tally_eq`, `tally_congr`: the score counts the slots that are correct;
* **`grading_local`**: grading is local, blind to blanks and to the order of the answers.
-/

/-! ## Answers as a function of identifiers -/

namespace MathQuiz.Answers

theorem get?_empty (id : String) : empty.get? id = none := rfl

theorem mem_entries_iff {a : Answers} {id value : String} :
    (id, value) ∈ a.entries ↔ a.get? id = some value := by
  obtain ⟨entries, sorted⟩ := a
  unfold get?
  induction entries with
  | nil => simp
  | cons e rest ih =>
    obtain ⟨k, v⟩ := e
    obtain ⟨hk, hrest⟩ := List.pairwise_cons.1 sorted
    rw [List.mem_cons, ih hrest, List.lookup_cons]
    by_cases h : id = k
    · subst h
      have hnone : rest.lookup id = none := by
        rw [List.lookup_eq_none_iff]
        intro e he
        have hlt := hk e he
        rw [bne_iff_ne]
        rintro rfl
        exact String.lt_irrefl _ hlt
      simp [hnone, eq_comm]
    · simp [h, beq_eq_false_iff_ne.2 h]

theorem nodup_entries (a : Answers) : a.entries.Nodup := by
  refine a.sorted.imp ?_
  rintro e f hlt rfl
  exact String.lt_irrefl _ hlt

/-- **Equal answers to every identifier make equal sets.** -/
theorem ext_get? {a b : Answers} (h : ∀ id, a.get? id = b.get? id) : a = b := by
  have hperm : a.entries.Perm b.entries := by
    rw [List.perm_ext_iff_of_nodup a.nodup_entries b.nodup_entries]
    rintro ⟨id, value⟩
    rw [mem_entries_iff, mem_entries_iff, h id]
  have hentries : a.entries = b.entries :=
    hperm.eq_of_pairwise (fun e f _ _ hef hfe => absurd (String.lt_trans hef hfe)
      (String.lt_irrefl _)) a.sorted b.sorted
  cases a
  cases b
  cases hentries
  rfl

/-! ### Answers of a list -/

/-- The answers with those of a list set one after the other. -/
def setAll (a : Answers) (entries : List (String × String)) : Answers :=
  entries.foldl (fun a (id, value) => a.set id value) a

theorem get?_setAll (a : Answers) (entries : List (String × String)) (id : String) :
    (a.setAll entries).get? id = (entries.reverse.lookup id).or (a.get? id) := by
  induction entries using List.reverseRecOn with
  | nil => rfl
  | append_singleton entries e ih =>
    have hset : a.setAll (entries ++ [e]) = (a.setAll entries).set e.1 e.2 := List.foldl_append
    rw [hset, get?_set, ih, List.reverse_append, List.reverse_singleton, List.singleton_append,
      List.lookup_cons]
    by_cases h : id = e.1
    · rw [if_pos h, beq_iff_eq.2 h, Option.some_or]
    · rw [if_neg h, beq_eq_false_iff_ne.2 h]

theorem lookup_filter_eq (entries : List (String × String)) (id : String) :
    (entries.filter (·.1 == id)).lookup id = entries.lookup id := by
  induction entries with
  | nil => rfl
  | cons e entries ih =>
    by_cases h : e.1 = id
    · rw [List.filter_cons_of_pos (by simp [h]), List.lookup_cons, List.lookup_cons, ih]
    · rw [List.filter_cons_of_neg (by simp [h]), ih, List.lookup_cons,
        beq_eq_false_iff_ne.2 (Ne.symm h)]

/-- **Answers to different identifiers can be set in any order.** -/
theorem setAll_congr {a : Answers} {entries entries' : List (String × String)}
    (h : ∀ id, entries.filter (·.1 == id) = entries'.filter (·.1 == id)) :
    a.setAll entries = a.setAll entries' := by
  refine ext_get? fun id => ?_
  rw [get?_setAll, get?_setAll, ← lookup_filter_eq entries.reverse,
    ← lookup_filter_eq entries'.reverse, List.filter_reverse, List.filter_reverse, h id]

theorem get?_ofList (entries : List (String × String)) (id : String) :
    (ofList entries).get? id = entries.reverse.lookup id := by
  have hset : ofList entries = empty.setAll entries := rfl
  rw [hset, get?_setAll, get?_empty, Option.or_none]

theorem lookup_of_mem {entries : List (String × String)} {id value : String}
    (h : (entries.map Prod.fst).Nodup) (hmem : (id, value) ∈ entries) :
    entries.lookup id = some value := by
  obtain ⟨before, behind, rfl⟩ := List.append_of_mem hmem
  refine List.lookup_eq_some_iff.2 ⟨before, behind, rfl, fun e he => bne_iff_ne.2 ?_⟩
  rintro rfl
  rw [List.map_append, List.nodup_append] at h
  exact h.2.2 e.1 (List.mem_map_of_mem he) e.1 (by simp) rfl

theorem get?_ofList_of_mem {entries : List (String × String)} {id value : String}
    (h : (entries.map Prod.fst).Nodup) (hmem : (id, value) ∈ entries) :
    (ofList entries).get? id = some value := by
  rw [get?_ofList]
  refine lookup_of_mem ?_ (List.mem_reverse.2 hmem)
  rw [List.map_reverse]
  exact List.nodup_reverse.2 h

end MathQuiz.Answers

namespace MathQuiz

/-! ## One slot -/

section Slot

variable {w : ScoringSettings} {a b : Answers} {slot : Slot}

theorem correct_grade : (slot.grade w a).correct =
    (a.get? slot.id).any (answerMatches w · slot.expected) := rfl

theorem correct_grade_iff : (slot.grade w a).correct = true ↔
    ∃ value, a.get? slot.id = some value ∧ answerMatches w value slot.expected = true := by
  rw [correct_grade, Option.any_eq_true]

theorem correct_grade_of_expected (h : a.get? slot.id = some slot.expected) :
    (slot.grade w a).correct = true :=
  correct_grade_iff.2 ⟨slot.expected, h, answerMatches_self w slot.expected⟩

theorem correct_grade_of_blank (hexpected : Text.blankOnly slot.expected = false)
    (h : ∀ value ∈ a.get? slot.id, Text.blankOnly value = true) :
    (slot.grade w a).correct = false := by
  rw [Bool.eq_false_iff, ne_eq, correct_grade_iff]
  rintro ⟨value, hget, hmatch⟩
  rw [answerMatches_blank (h value hget) hexpected] at hmatch
  cases hmatch

theorem correct_grade_trim : (slot.grade w a).correct =
    ((a.get? slot.id).map Text.trim).any (answerMatches w · slot.expected) := by
  rw [correct_grade]
  cases a.get? slot.id with
  | none => rfl
  | some value => rw [Option.map_some, Option.any_some, Option.any_some, answerMatches_trim]

theorem correct_grade_congr (h : (a.get? slot.id).map Text.trim = (b.get? slot.id).map Text.trim) :
    (slot.grade w a).correct = (slot.grade w b).correct := by
  rw [correct_grade_trim, correct_grade_trim, h]

theorem grade_slot_congr (h : a.get? slot.id = b.get? slot.id) :
    slot.grade w a = slot.grade w b := by
  rw [Slot.grade, Slot.grade, h]

variable (w a slot) in
theorem grade_slot_set (id value : String) : slot.grade w (a.set id value) =
    if slot.id = id then ⟨slot, some value, answerMatches w value slot.expected⟩
    else slot.grade w a := by
  rw [Slot.grade, Answers.get?_set]
  split <;> rfl

end Slot

/-! ## All slots -/

section Grade

variable (w : ScoringSettings) (q : Question) (a : Answers)

theorem map_slot_grade : (grade w q a).map Verdict.slot = q.slots := by
  rw [grade, List.map_map]
  exact List.map_id _

theorem length_grade : (grade w q a).length = q.slots.length := by
  rw [← map_slot_grade w q a, List.length_map]

theorem grade_set (id value : String) : grade w q (a.set id value) = (grade w q a).map fun x =>
    if x.slot.id = id then ⟨x.slot, some value, answerMatches w value x.slot.expected⟩ else x := by
  rw [grade, grade, List.map_map]
  exact List.map_congr_left fun slot _ => grade_slot_set w a slot id value

theorem tally_eq :
    tally w q a = .of (q.slots.countP fun slot => (slot.grade w a).correct) q.slots.length := by
  rw [tally, length_grade, grade, List.countP_map]
  rfl

end Grade

section Congr

variable {w : ScoringSettings} {q : Question} {a b : Answers}

/-- Answers to other identifiers are not looked at. -/
theorem grade_congr (h : ∀ id ∈ q.focusOrder, a.get? id = b.get? id) :
    grade w q a = grade w q b :=
  List.map_congr_left fun _ hslot => grade_slot_congr (h _ (List.mem_map_of_mem hslot))

theorem map_correct_congr
    (h : ∀ slot ∈ q.slots, (slot.grade w a).correct = (slot.grade w b).correct) :
    (grade w q a).map (·.correct) = (grade w q b).map (·.correct) := by
  rw [grade, grade, List.map_map, List.map_map]
  exact List.map_congr_left h

theorem value_scoreWith : (scoreWith w q a).value = tally w q a := rfl

theorem tally_congr
    (h : ∀ slot ∈ q.slots, (slot.grade w a).correct = (slot.grade w b).correct) :
    tally w q a = tally w q b := by
  rw [tally_eq, tally_eq, List.countP_congr fun slot hslot => by rw [h slot hslot]]

theorem tally_of_all_correct (h : ∀ slot ∈ q.slots, (slot.grade w a).correct = true) :
    tally w q a = .of q.slots.length q.slots.length := by
  rw [tally_eq, List.countP_eq_length.2 h]

theorem tally_of_none_correct (h : ∀ slot ∈ q.slots, (slot.grade w a).correct = false) :
    tally w q a = .of 0 q.slots.length := by
  rw [tally_eq, List.countP_eq_zero.2 fun slot hslot => Bool.eq_false_iff.1 (h slot hslot)]

end Congr

/-- **Grading is local.** An answer decides the slots with its identifier and no others, blanks at
its ends aside, and the order of answers to different identifiers does not matter. -/
theorem grading_local (w : ScoringSettings) (q : Question) (a : Answers) :
    (grade w q a).map Verdict.slot = q.slots ∧
    (∀ id value, grade w q (a.set id value) = (grade w q a).map fun x =>
      if x.slot.id = id then ⟨x.slot, some value, answerMatches w value x.slot.expected⟩ else x) ∧
    (∀ id ∉ q.focusOrder, (∀ value, grade w q (a.set id value) = grade w q a) ∧
      grade w q (a.erase id) = grade w q a) ∧
    (∀ b : Answers,
      (∀ id ∈ q.focusOrder, (a.get? id).map Text.trim = (b.get? id).map Text.trim) →
      (grade w q a).map (·.correct) = (grade w q b).map (·.correct) ∧
        (scoreWith w q a).value = (scoreWith w q b).value) ∧
    (∀ entries entries' : List (String × String),
      (∀ id, entries.filter (·.1 == id) = entries'.filter (·.1 == id)) →
      a.setAll entries = a.setAll entries') := by
  refine ⟨map_slot_grade w q a, grade_set w q a, fun id hid => ⟨fun value => ?_, ?_⟩,
    fun b hsame => ?_, fun entries entries' => Answers.setAll_congr⟩
  · refine grade_congr fun id' hid' => ?_
    rw [Answers.get?_set, if_neg (ne_of_mem_of_not_mem hid' hid)]
  · refine grade_congr fun id' hid' => ?_
    rw [Answers.get?_erase, if_neg (ne_of_mem_of_not_mem hid' hid)]
  · have hcorrect : ∀ slot ∈ q.slots, (slot.grade w a).correct = (slot.grade w b).correct :=
      fun slot hslot => correct_grade_congr (hsame slot.id (List.mem_map_of_mem hslot))
    exact ⟨map_correct_congr hcorrect, tally_congr hcorrect⟩

/-- One answer decides both slots with its identifier, and one that nobody asked for none. -/
theorem grading_local_shared_id :
    let q : Question := ⟨[.pair .fraction (.leaf (.input ⟨"a", "1"⟩) .default)
      (.run .equation [.leaf (.input ⟨"b", "x"⟩) .default, .leaf (.input ⟨"a", " 2/4"⟩) .default]
        none .default) none .default]⟩
    let a : Answers := .ofList [("b", "\tx")]
    (∀ w, (scoreWith w q a).value = (scoreWith w q (.ofList [("c", "1"), ("b", "x ")])).value) ∧
      (grade ⟨true⟩ q (a.set "a" "0.5")).map (·.correct) = [false, true, true] ∧
      a.setAll [("a", "3"), ("b", "y"), ("a", "0.5")] =
        a.setAll [("a", "3"), ("a", "0.5"), ("b", "y")] := by
  intro q a
  refine ⟨fun w => ?_, ?_, ?_⟩
  · obtain ⟨-, -, -, hsame, -⟩ := grading_local w q a
    exact (hsame _ (by decide +kernel)).2
  · obtain ⟨-, hset, -⟩ := grading_local ⟨true⟩ q a
    rw [hset]
    decide +kernel
  · obtain ⟨-, -, -, -, horder⟩ := grading_local ⟨true⟩ q a
    refine horder _ _ fun id => ?_
    by_cases ha : "a" = id
    · subst ha
      rfl
    · simp [List.filter_cons, ha]

end MathQuiz
