import MathQuiz.Grading.Attempt
import MathQuiz.Proofs.Question.Queries
import Mathlib.Data.List.Induction
import Mathlib.Data.List.TakeWhile

/-!
# Where the focus goes

The focus moves from one identifier to the one behind its first place. Without repeated identifiers
it goes through all of them once; a repeated identifier sends it back, and from there it goes in a
circle.

* `Attempt.focused`: the identifiers that get the focus one after the other;
* `Attempt.FirstRepeat`: the first place of an identifier that was there before;
* `Attempt.following_getElem`, `Attempt.focused_of_nodup`: one move and all moves up to that place;
* `Attempt.FirstRepeat.focused_add`: the circle;
* **`Attempt.focus_walk`**: when the walk of the focus ends.
-/

namespace MathQuiz

namespace Attempt

/-- The identifiers that get the focus one after the other, each as the one behind the one before
it. After the last one there is none. -/
def focused (t : Attempt) : Nat → Option String
  | 0 => t.nextFocus none
  | n + 1 => (t.focused n).bind fun id => t.nextFocus (some id)

/-- At `again` an identifier is repeated for the first time, and it is the one that stands at
`first`. -/
structure FirstRepeat (ids : List String) (first again : Nat) : Prop where
  lt : first < again
  inside : again < ids.length
  same : ids[first]? = ids[again]?
  before : (ids.take again).Nodup

/-! ## One move -/

section Following

variable {current : String} {ids : List String}

theorem following_eq_none_of_not_mem (h : current ∉ ids) : following current ids = none := by
  have hall : ids.dropWhile (· != current) = [] := by
    rw [List.dropWhile_eq_nil_iff]
    intro id hid
    exact bne_iff_ne.2 (ne_of_mem_of_not_mem hid h)
  rw [following, hall]
  rfl

theorem following_append {front rest : List String} (h : current ∉ front) :
    following current (front ++ current :: rest) = rest.head? := by
  have hdrop : (front ++ current :: rest).dropWhile (· != current) = current :: rest := by
    rw [List.dropWhile_append_of_pos fun id hid => bne_iff_ne.2 (ne_of_mem_of_not_mem hid h)]
    simp
  rw [following, hdrop]
  rfl

/-- **The focus moves one place on** from the first place of an identifier. -/
theorem following_getElem {n : Nat} (hn : n < ids.length) (hnew : ids[n] ∉ ids.take n) :
    following ids[n] ids = ids[n + 1]? := by
  have hsplit : ids = ids.take n ++ ids[n] :: ids.drop (n + 1) := by
    rw [← List.drop_eq_getElem_cons hn, List.take_append_drop]
  calc following ids[n] ids = following ids[n] (ids.take n ++ ids[n] :: ids.drop (n + 1)) :=
        congrArg _ hsplit
    _ = ids[n + 1]? := by rw [following_append hnew, List.head?_drop]

end Following

/-! ## Places without repetition -/

section Places

variable {ids : List String} {n again first : Nat}

theorem getElem_not_mem_take (h : (ids.take again).Nodup) (hlt : n < again)
    (hn : n < ids.length) : ids[n] ∉ ids.take n := by
  have hprefix : (ids.take (n + 1)).Nodup :=
    h.sublist (List.take_sublist_take_left hlt)
  rw [List.take_succ_eq_append_getElem hn, List.nodup_append] at hprefix
  obtain ⟨-, -, hne⟩ := hprefix
  exact fun hmem => hne _ hmem _ (List.mem_singleton_self _) rfl

theorem FirstRepeat.concat (h : FirstRepeat ids first again) (id : String) :
    FirstRepeat (ids ++ [id]) first again where
  lt := h.lt
  inside := by
    rw [List.length_append]
    exact Nat.lt_add_right _ h.inside
  same := by
    rw [List.getElem?_append_left (Nat.lt_trans h.lt h.inside),
      List.getElem?_append_left h.inside, h.same]
  before := by
    rw [List.take_append_of_le_length (Nat.le_of_lt h.inside)]
    exact h.before

theorem exists_firstRepeat (h : ¬ ids.Nodup) : ∃ first again, FirstRepeat ids first again := by
  -- from the right: either the front has a repetition already, or the last identifier is one
  induction ids using List.reverseRecOn with
  | nil => exact absurd List.nodup_nil h
  | append_singleton ids id ih =>
    by_cases hfront : ids.Nodup
    · have hmem : id ∈ ids := by
        by_contra hnew
        exact h (List.nodup_append.2 ⟨hfront, List.nodup_singleton id, by
          rintro i hi j hj rfl
          exact hnew (List.mem_singleton.1 hj ▸ hi)⟩)
      obtain ⟨first, hlt, hfirst⟩ := List.mem_iff_getElem.1 hmem
      refine ⟨first, ids.length, hlt, by simp, ?_, by simpa using hfront⟩
      rw [List.getElem?_append_left hlt, List.getElem?_eq_getElem hlt, hfirst,
        List.getElem?_concat_length]
    · obtain ⟨first, again, hrepeat⟩ := ih hfront
      exact ⟨first, again, hrepeat.concat id⟩

end Places

/-! ## The walk -/

section Walk

variable {t : Attempt} {n first again : Nat}

theorem focused_zero : t.focused 0 = t.question.focusOrder[0]? := by
  rw [focused, nextFocus, List.head?_eq_getElem?]

theorem focused_of_nodup (h : (t.question.focusOrder.take again).Nodup) (hn : n ≤ again) :
    t.focused n = t.question.focusOrder[n]? := by
  induction n with
  | zero => exact focused_zero
  | succ n ih =>
    rw [focused, ih (Nat.le_of_lt hn)]
    by_cases hlt : n < t.question.focusOrder.length
    · rw [List.getElem?_eq_getElem hlt]
      exact following_getElem hlt (getElem_not_mem_take h hn hlt)
    · have hle := Nat.le_of_not_lt hlt
      rw [List.getElem?_eq_none hle, List.getElem?_eq_none (Nat.le_succ_of_le hle)]
      rfl

theorem focused_add {m n : Nat} (h : t.focused m = t.focused n) (k : Nat) :
    t.focused (m + k) = t.focused (n + k) := by
  induction k with
  | zero => exact h
  | succ k ih => rw [← Nat.add_assoc, ← Nat.add_assoc, focused, focused, ih]

variable (h : FirstRepeat t.question.focusOrder first again)

include h

/-- **The focus goes in a circle** from the first place of the repeated identifier on. -/
theorem FirstRepeat.focused_add (hn : first ≤ n) :
    t.focused (n + (again - first)) = t.focused n := by
  have hmeet : t.focused again = t.focused first := by
    rw [focused_of_nodup h.before le_rfl, focused_of_nodup h.before (Nat.le_of_lt h.lt), h.same]
  have hlt := h.lt
  have hagain : n + (again - first) = again + (n - first) := by omega
  rw [hagain, Attempt.focused_add hmeet, Nat.add_sub_cancel' hn]

theorem FirstRepeat.focused_mem (n : Nat) :
    ∃ id ∈ t.question.focusOrder, t.focused n = some id := by
  induction n using Nat.strong_induction_on with
  | _ n ih =>
    by_cases hle : n ≤ again
    · have hinside : n < t.question.focusOrder.length := hle.trans_lt h.inside
      rw [focused_of_nodup h.before hle, List.getElem?_eq_getElem hinside]
      exact ⟨_, List.getElem_mem hinside, rfl⟩
    · -- one round earlier
      have hround := h.lt
      have hback : n = n - (again - first) + (again - first) := by omega
      rw [hback, h.focused_add (by omega)]
      exact ih _ (by omega)

end Walk

/-- **The walk of the focus ends exactly if no identifier is repeated.** Then it goes through all of
them once, in order, and otherwise in a circle from the first repetition on. -/
theorem focus_walk (t : Attempt) :
    ((∃ n, t.focused n = none) ↔ t.question.duplicateIds = []) ∧
    (t.question.duplicateIds = [] ↔ t.question.focusOrder.Nodup) ∧
    (t.question.duplicateIds = [] → ∀ n, t.focused n = t.question.focusOrder[n]?) ∧
    (t.question.duplicateIds ≠ [] →
      (∀ n, ∃ id ∈ t.question.focusOrder, t.focused n = some id) ∧
      ∃ first again, FirstRepeat t.question.focusOrder first again ∧
        (∀ n ≤ again, t.focused n = t.question.focusOrder[n]?) ∧
        ∀ n ≥ first, t.focused (n + (again - first)) = t.focused n) ∧
    ∀ id, t.question.input? id = none → t.nextFocus (some id) = none := by
  have hdone : t.question.duplicateIds = [] → ∀ n, t.focused n = t.question.focusOrder[n]? := by
    intro hnone n
    have hnodup := Question.duplicateIds_eq_nil_iff.1 hnone
    exact focused_of_nodup (hnodup.sublist (List.take_sublist n _)) le_rfl
  have hcircle : t.question.duplicateIds ≠ [] →
      ∃ first again, FirstRepeat t.question.focusOrder first again :=
    fun hsome => exists_firstRepeat fun hnodup => hsome (Question.duplicateIds_eq_nil_iff.2 hnodup)
  refine ⟨⟨?stops, fun hnone => ?ends⟩, Question.duplicateIds_eq_nil_iff, hdone,
    fun hsome => ?circle, fun id hid => ?unknown⟩
  case stops =>
    rintro ⟨n, hn⟩
    by_contra hsome
    obtain ⟨first, again, hrepeat⟩ := hcircle hsome
    obtain ⟨id, -, hid⟩ := hrepeat.focused_mem n
    rw [hn] at hid
    cases hid
  case ends =>
    exact ⟨t.question.focusOrder.length, (hdone hnone _).trans (List.getElem?_eq_none le_rfl)⟩
  case circle =>
    obtain ⟨first, again, hrepeat⟩ := hcircle hsome
    exact ⟨hrepeat.focused_mem, first, again, hrepeat,
      fun n hn => focused_of_nodup hrepeat.before hn, fun n hn => hrepeat.focused_add hn⟩
  case unknown =>
    exact following_eq_none_of_not_mem (Question.input?_eq_none_iff.1 hid)

/-- The second `b` sends the focus back to itself, and `c` is never reached. -/
example :
    let slot (id : String) : Node := .leaf (.input ⟨id, ""⟩) .default
    let t := new .default ⟨0, ⟨[slot "a", slot "b", slot "b", slot "c"]⟩⟩
    (List.range 5).map t.focused = [some "a", some "b", some "b", some "b", some "b"] := by
  decide

end Attempt

end MathQuiz
