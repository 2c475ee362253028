import MathQuiz.Grading.Attempt
import MathQuiz.Proofs.Grading.Verdicts

/-!
# Runs of an attempt

* `Action.target?`, `Performed`, `performed`: what an action does, one rule for each outcome, and
  what it keeps;
* `Attempt.after`, `Attempt.steps`: the attempt after some actions, and the steps on the way to it;
* `LastAnswer`: the last answer to an identifier that nothing later removed or replaced;
* `Edits`, `editsOf`, `reportsOf`: blocks of edits, and what becomes of one identifier in them;
* **`Attempt.answers_of_history`**: the answers of an attempt are what its history says;
* **`Attempt.frozen_of_submit`**: a scored attempt stands until it moves to another snapshot.
-/

namespace MathQuiz.Attempt

/-- The identifier whose answer an action changes. -/
def Action.target? : Action → Option String
  | .answer id _ | .clear id => some id
  | .submit | .replace _ => none

/-! ## One action -/

/-- **What an action reports and leads to.** -/
inductive Performed (t : Attempt) : Action → Report → Attempt → Prop
  | answered {id value : String} : t.refusal? id = none →
    Performed t (.answer id value) .done { t with answers := t.answers.set id value }
  | cleared {id : String} : t.refusal? id = none →
    Performed t (.clear id) (.cleared (t.answers.get? id)) { t with answers := t.answers.erase id }
  | refused {a : Action} {id : String} {e : AttemptError} : a.target? = some id →
    t.refusal? id = some e → Performed t a (.refused e) t
  | submitted : Performed t .submit (.scored (tally t.scoring t.question t.answers))
      { t with submitted := true }
  | replaced {other : Snapshot} : other ≠ t.snapshot →
    Performed t (.replace other) .done (new t.scoring other)
  | kept : Performed t (.replace t.snapshot) .done t

section Perform

variable {t : Attempt} {id : String}

theorem value_answer (h : t.refusal? id = none) (value : String) :
    (t.perform (.answer id value)).value =
      (.done, { t with answers := t.answers.set id value }) := by
  simp only [perform, answer, h]
  rfl

theorem value_clear (h : t.refusal? id = none) : (t.perform (.clear id)).value =
    (.cleared (t.answers.get? id), { t with answers := t.answers.erase id }) := by
  simp only [perform, clear, h]
  rfl

theorem value_refused {a : Action} {e : AttemptError} (ha : a.target? = some id)
    (h : t.refusal? id = some e) : (t.perform a).value = (.refused e, t) := by
  cases a with
  | answer id' value | clear id' =>
    cases ha
    simp only [perform, answer, clear, h]
    rfl
  | submit | replace _ => cases ha

theorem report_eq_refused_iff {a : Action} {e : AttemptError} (ha : a.target? = some id) :
    (t.perform a).value.1 = .refused e ↔ t.refusal? id = some e := by
  cases h : t.refusal? id with
  | some e' => rw [value_refused ha h, Report.refused.injEq, Option.some.injEq]
  | none =>
    cases a with
    | answer id' value =>
      cases ha
      rw [value_answer h]
      simp
    | clear id' =>
      cases ha
      rw [value_clear h]
      simp
    | submit | replace _ => cases ha

theorem performed (t : Attempt) (a : Action) :
    Performed t a (t.perform a).value.1 (t.perform a).value.2 := by
  cases a with
  | answer id value =>
    cases h : t.refusal? id with
    | none => rw [value_answer h]; exact .answered h
    | some e => rw [value_refused rfl h]; exact .refused rfl h
  | clear id =>
    cases h : t.refusal? id with
    | none => rw [value_clear h]; exact .cleared h
    | some e => rw [value_refused rfl h]; exact .refused rfl h
  | submit => exact .submitted
  | replace other =>
    by_cases h : t.snapshot = other
    · subst h
      simp only [perform, replace, if_true]
      exact .kept
    · simp only [perform, replace, if_neg h]
      exact .replaced (Ne.symm h)

end Perform

theorem refusal?_eq_some_iff {t : Attempt} {id : String} {e : AttemptError} :
    t.refusal? id = some e ↔ t.submitted = true ∧ e = .alreadyScored ∨
      t.submitted = false ∧ id ∉ t.question.focusOrder ∧ e = .unknownInput id := by
  unfold refusal?
  cases t.submitted with
  | true => simp [eq_comm]
  | false =>
    simp only [Bool.false_eq_true, if_false, Option.isNone_iff_eq_none,
      Question.input?_eq_none_iff]
    split <;> simp_all [eq_comm]

theorem refusal?_eq_none_iff {t : Attempt} {id : String} :
    t.refusal? id = none ↔ t.submitted = false ∧ id ∈ t.question.focusOrder := by
  unfold refusal?
  cases t.submitted with
  | true => simp
  | false =>
    simp only [Bool.false_eq_true, if_false, Option.isNone_iff_eq_none,
      Question.input?_eq_none_iff]
    split <;> simp_all

/-! ## What an action keeps -/

namespace Performed

variable {t t' : Attempt} {a : Action} {r : Report}

theorem scoring_eq (h : Performed t a r t') : t'.scoring = t.scoring := by
  cases h <;> rfl

theorem snapshot_eq (h : Performed t a r t')
    (ha : ∀ other, a = .replace other → other = t.snapshot) : t'.snapshot = t.snapshot := by
  cases h with
  | replaced hne => exact absurd (ha _ rfl) hne
  | answered | cleared | refused | submitted | kept => rfl

theorem eq_of_refused {e : AttemptError} (h : Performed t a (.refused e) t') : t' = t := by
  cases h
  rfl

theorem recorded (h : Performed t a r t')
    (ht : ∀ id value, t.answers.get? id = some value → id ∈ t.question.focusOrder) :
    ∀ id value, t'.answers.get? id = some value → id ∈ t'.question.focusOrder := by
  intro id value hget
  cases h with
  | @answered id' value' hfree =>
    rw [Answers.get?_set] at hget
    by_cases hid : id = id'
    · rw [hid]
      exact (refusal?_eq_none_iff.1 hfree).2
    · rw [if_neg hid] at hget
      exact ht id value hget
  | @cleared id' _ =>
    rw [Answers.get?_erase] at hget
    split at hget
    · cases hget
    · exact ht id value hget
  | refused | submitted | kept => exact ht id value hget
  | replaced => cases hget

theorem of_submitted (h : Performed t a r t') (ht : t.submitted = true)
    (ha : ∀ other, a = .replace other → other = t.snapshot) :
    t' = t ∧ (a.target?.isSome → r = .refused .alreadyScored) ∧
      (a = .submit → r = .scored (tally t.scoring t.question t.answers)) := by
  have hrefusal : ∀ id, t.refusal? id = some .alreadyScored :=
    fun id => refusal?_eq_some_iff.2 (.inl ⟨ht, rfl⟩)
  cases h with
  | @answered id value hfree =>
    rw [hrefusal id] at hfree
    cases hfree
  | @cleared id hfree =>
    rw [hrefusal id] at hfree
    cases hfree
  | @refused _ id e htarget hrefused =>
    rw [hrefusal id] at hrefused
    cases hrefused
    refine ⟨rfl, fun _ => rfl, ?_⟩
    rintro rfl
    cases htarget
  | submitted =>
    refine ⟨?_, fun htarget => by simp [Action.target?] at htarget, fun _ => rfl⟩
    rw [← ht]
  | replaced hne => exact absurd (ha _ rfl) hne
  | kept =>
    exact ⟨rfl, fun htarget => by simp [Action.target?] at htarget, fun hsubmit => nomatch hsubmit⟩

end Performed

/-! ## Runs -/

def after (t : Attempt) (actions : List Action) : Attempt :=
  actions.foldl (fun t a => (t.perform a).value.2) t

/-- An action in a run: the attempt before it, the action, and what it reported. -/
structure Step where
  before : Attempt
  action : Action
  report : Report

/-- The steps of a run from left to right. -/
def steps (t : Attempt) : List Action → List Step
  | [] => []
  | a :: actions => ⟨t, a, (t.perform a).value.1⟩ :: (t.perform a).value.2.steps actions

theorem after_cons (t : Attempt) (a : Action) (actions : List Action) :
    t.after (a :: actions) = (t.perform a).value.2.after actions := rfl

theorem scoring_after (t : Attempt) (actions : List Action) :
    (t.after actions).scoring = t.scoring := by
  induction actions generalizing t with
  | nil => rfl
  | cons a actions ih => rw [after_cons, ih, (performed t a).scoring_eq]

/-! ## The answers of a history -/

namespace Step

variable (s : Step) (id value : String)

/-- The step answered the identifier, and was not refused. -/
def Answered : Prop := s.action = .answer id value ∧ s.report = .done

/-- The step cleared the answer to the identifier, and was not refused. -/
def Cleared : Prop := s.action = .clear id ∧ ∃ old, s.report = .cleared old

/-- The step moved to another snapshot. -/
def Moved : Prop := ∃ other, s.action = .replace other ∧ other ≠ s.before.snapshot

/-- No answer to the identifier from before the step stands after it. -/
def Overrides : Prop := (∃ value, s.Answered id value) ∨ s.Cleared id ∨ s.Moved

end Step

/-- **The last answer to an identifier in a history:** it was given, and since then there was no
other answer to the identifier, no clearing of it and no move to another snapshot. -/
def LastAnswer (history : List Step) (id value : String) : Prop :=
  ∃ earlier step later, history = earlier ++ step :: later ∧ step.Answered id value ∧
    ∀ s ∈ later, ¬ s.Overrides id

theorem lastAnswer_cons {s : Step} {history : List Step} {id value : String} :
    LastAnswer (s :: history) id value ↔
      (s.Answered id value ∧ ∀ s ∈ history, ¬ s.Overrides id) ∨ LastAnswer history id value := by
  constructor
  · rintro ⟨earlier, step, later, heq, hanswered, hlater⟩
    cases earlier with
    | nil =>
      cases heq
      exact .inl ⟨hanswered, hlater⟩
    | cons _ earlier =>
      cases heq
      exact .inr ⟨earlier, step, later, rfl, hanswered, hlater⟩
  · rintro (⟨hanswered, hlater⟩ | ⟨earlier, step, later, rfl, hanswered, hlater⟩)
    · exact ⟨[], s, history, rfl, hanswered, hlater⟩
    · exact ⟨s :: earlier, step, later, rfl, hanswered, hlater⟩

/-- What stands after one step was given by it, or stood before and is not overridden. -/
theorem Performed.get?_iff {t t' : Attempt} {a : Action} {r : Report} (h : Performed t a r t')
    (id value : String) : t'.answers.get? id = some value ↔
      Step.Answered ⟨t, a, r⟩ id value ∨
        ¬ Step.Overrides ⟨t, a, r⟩ id ∧ t.answers.get? id = some value := by
  simp only [Step.Overrides, Step.Answered, Step.Cleared, Step.Moved]
  cases h with
  | @answered id' value' _ =>
    rw [Answers.get?_set]
    by_cases hid : id = id'
    · simp [hid, eq_comm]
    · simp [hid, Ne.symm hid]
  | @cleared id' _ =>
    rw [Answers.get?_erase]
    by_cases hid : id = id'
    · simp [hid]
    · simp [hid, Ne.symm hid]
  | refused htarget _ =>
    have hmove : ∀ other, a ≠ .replace other := by
      rintro other rfl
      cases htarget
    simp [hmove]
  | submitted => simp
  | @replaced other hother => simp [new, Answers.get?_empty, hother]
  | kept => simp

theorem get?_after_iff (t : Attempt) (actions : List Action) (id value : String) :
    (t.after actions).answers.get? id = some value ↔ LastAnswer (t.steps actions) id value ∨
      (∀ s ∈ t.steps actions, ¬ s.Overrides id) ∧ t.answers.get? id = some value := by
  induction actions generalizing t with
  | nil => simp [after, steps, LastAnswer]
  | cons a actions ih =>
    have hstep := (performed t a).get?_iff id value
    rw [after_cons, ih, steps, lastAnswer_cons, hstep, List.forall_mem_cons]
    tauto

theorem recorded_after {t : Attempt}
    (ht : ∀ id value, t.answers.get? id = some value → id ∈ t.question.focusOrder)
    (actions : List Action) :
    ∀ id value, (t.after actions).answers.get? id = some value →
      id ∈ (t.after actions).question.focusOrder := by
  induction actions generalizing t with
  | nil => exact ht
  | cons a actions ih => exact ih ((performed t a).recorded ht)

/-! ## The order of edits -/

/-- No action of the block submits the attempt or moves it to another snapshot. -/
def Edits (t : Attempt) (block : List Action) : Prop :=
  ∀ a ∈ block, a ≠ .submit ∧ ∀ other, a = .replace other → other = t.snapshot

/-- The actions of the block on one identifier. -/
def editsOf (id : String) (block : List Action) : List Action :=
  block.filter (·.target? = some id)

/-- What the actions on one identifier reported. -/
def reportsOf (id : String) (history : List Step) : List Report :=
  (history.filter (·.action.target? = some id)).map Step.report

/-- The attempts differ at most in the answers to other identifiers. -/
structure SameAt (id : String) (t t' : Attempt) : Prop where
  snapshot : t.snapshot = t'.snapshot
  submitted : t.submitted = t'.submitted
  recorded : t.answers.get? id = t'.answers.get? id

namespace SameAt

variable {id : String} {t t' : Attempt} {a : Action}

theorem refusal?_eq (h : SameAt id t t') : t.refusal? id = t'.refusal? id := by
  rw [refusal?, refusal?, question, question, h.snapshot, h.submitted]

theorem perform (h : SameAt id t t') (ha : a.target? = some id) :
    (t.perform a).value.1 = (t'.perform a).value.1 ∧
      SameAt id (t.perform a).value.2 (t'.perform a).value.2 := by
  have hrefusal := h.refusal?_eq
  cases hfree : t.refusal? id with
  | some e =>
    rw [value_refused ha hfree, value_refused ha (hrefusal ▸ hfree)]
    exact ⟨rfl, h⟩
  | none =>
    cases a with
    | answer id' value =>
      cases ha
      rw [value_answer hfree, value_answer (hrefusal ▸ hfree)]
      exact ⟨rfl, h.snapshot, h.submitted, by simp only [Answers.get?_set, if_true]⟩
    | clear id' =>
      cases ha
      rw [value_clear hfree, value_clear (hrefusal ▸ hfree), h.recorded]
      exact ⟨rfl, h.snapshot, h.submitted, by simp only [Answers.get?_erase, if_true]⟩
    | submit | replace _ => cases ha

theorem skip {t'' : Attempt} {r : Report} (h : SameAt id t t') (hdone : Performed t a r t'')
    (ha : a ≠ .submit ∧ ∀ other, a = .replace other → other = t.snapshot)
    (hother : a.target? ≠ some id) : SameAt id t'' t' := by
  cases hdone with
  | @answered id' value _ =>
    have hid : id ≠ id' := fun heq => hother (by rw [heq]; rfl)
    exact ⟨h.snapshot, h.submitted, by rw [Answers.get?_set, if_neg hid, h.recorded]⟩
  | @cleared id' _ =>
    have hid : id ≠ id' := fun heq => hother (by rw [heq]; rfl)
    exact ⟨h.snapshot, h.submitted, by rw [Answers.get?_erase, if_neg hid, h.recorded]⟩
  | refused _ _ => exact h
  | submitted => exact absurd rfl ha.1
  | replaced hne => exact absurd (ha.2 _ rfl) hne
  | kept => exact h

theorem symm (h : SameAt id t t') : SameAt id t' t :=
  ⟨h.snapshot.symm, h.submitted.symm, h.recorded.symm⟩

theorem trans {t'' : Attempt} (h : SameAt id t t') (h' : SameAt id t' t'') : SameAt id t t'' :=
  ⟨h.snapshot.trans h'.snapshot, h.submitted.trans h'.submitted, h.recorded.trans h'.recorded⟩

end SameAt

theorem eq_of_sameAt {t t' : Attempt} (hscoring : t.scoring = t'.scoring)
    (h : ∀ id, SameAt id t t') : t = t' := by
  have hanswers : t.answers = t'.answers := Answers.ext_get? fun id => (h id).recorded
  obtain ⟨hsnapshot, hsubmitted, -⟩ := h ""
  cases t
  cases t'
  simp_all

theorem Edits.tail {t : Attempt} {a : Action} {block : List Action} (h : t.Edits (a :: block)) :
    (t.perform a).value.2.Edits block := by
  intro b hb
  rw [(performed t a).snapshot_eq (h a List.mem_cons_self).2]
  exact h b (List.mem_cons_of_mem _ hb)

/-- **A block of edits acts on each identifier as its edits of that identifier do.** -/
theorem sameAt_after {id : String} {t t' : Attempt} {block : List Action} (h : SameAt id t t')
    (hblock : t.Edits block) :
    SameAt id (t.after block) (t'.after (editsOf id block)) ∧
      reportsOf id (t.steps block) = (t'.steps (editsOf id block)).map Step.report := by
  induction block generalizing t t' with
  | nil => exact ⟨h, rfl⟩
  | cons a block ih =>
    have ha := hblock a List.mem_cons_self
    have hmore := hblock.tail
    -- an edit of the identifier moves both attempts, anything else the left one only
    by_cases htarget : a.target? = some id
    · obtain ⟨hreport, hsame⟩ := h.perform htarget
      obtain ⟨hafter, hreports⟩ := ih hsame hmore
      have hedits : editsOf id (a :: block) = a :: editsOf id block :=
        List.filter_cons_of_pos (by simpa using htarget)
      rw [hedits]
      refine ⟨hafter, ?_⟩
      rw [steps, steps, List.map_cons, ← hreports, ← hreport, reportsOf,
        List.filter_cons_of_pos (by simpa using htarget)]
      rfl
    · obtain ⟨hafter, hreports⟩ := ih (h.skip (performed t a) ha htarget) hmore
      have hedits : editsOf id (a :: block) = editsOf id block :=
        List.filter_cons_of_neg (by simpa using htarget)
      rw [hedits]
      refine ⟨hafter, ?_⟩
      rw [← hreports, steps, reportsOf, List.filter_cons_of_neg (by simpa using htarget)]
      rfl

/-- **Edits of different identifiers can change places.** -/
theorem after_eq_of_editsOf_eq {t : Attempt} {block block' : List Action} (h : t.Edits block)
    (h' : t.Edits block') (hsame : ∀ id, editsOf id block = editsOf id block') :
    t.after block = t.after block' ∧
      ∀ id, reportsOf id (t.steps block) = reportsOf id (t.steps block') := by
  have hrefl : ∀ id, SameAt id t t := fun id => ⟨rfl, rfl, rfl⟩
  constructor
  · refine eq_of_sameAt (by rw [scoring_after, scoring_after]) fun id => ?_
    have hleft := (sameAt_after (hrefl id) h).1
    have hright := (sameAt_after (hrefl id) h').1
    rw [← hsame id] at hright
    exact hleft.trans hright.symm
  · intro id
    rw [(sameAt_after (hrefl id) h).2, (sameAt_after (hrefl id) h').2, hsame id]

/-- **The answers of an attempt are what its history says:** the last one given to each identifier
and not cleared since, counting from the last move to another snapshot. -/
theorem answers_of_history (w : ScoringSettings) (start : Snapshot) (actions : List Action) :
    let t := (new w start).after actions
    (∀ id value, t.answers.get? id = some value ↔
      LastAnswer ((new w start).steps actions) id value) ∧
    (∀ id value, t.answers.get? id = some value → id ∈ t.question.focusOrder) ∧
    (∀ id, (∃ e, (t.perform (.clear id)).value.1 = .refused e) ∨
      (t.perform (.clear id)).value.1 = .cleared (t.answers.get? id)) ∧
    (∀ a id e, a.target? = some id → ((t.perform a).value.1 = .refused e ↔
      t.submitted = true ∧ e = .alreadyScored ∨
        t.submitted = false ∧ id ∉ t.question.focusOrder ∧ e = .unknownInput id)) ∧
    (∀ a e, (t.perform a).value.1 = .refused e → (t.perform a).value.2 = t) ∧
    (∀ block block', t.Edits block → t.Edits block' →
      (∀ id, editsOf id block = editsOf id block') → t.after block = t.after block' ∧
        ∀ id, reportsOf id (t.steps block) = reportsOf id (t.steps block')) := by
  intro t
  refine ⟨fun id value => ?_, ?_, fun id => ?_, fun a id e ha => ?_, fun a e h => ?_,
    fun block block' => after_eq_of_editsOf_eq⟩
  · rw [get?_after_iff]
    simp [new, Answers.get?_empty]
  · exact recorded_after (fun id value h => by cases h) actions
  · cases h : t.refusal? id with
    | none => rw [value_clear h]; exact .inr rfl
    | some e => rw [value_refused rfl h]; exact .inl ⟨e, rfl⟩
  · rw [← refusal?_eq_some_iff]
    exact report_eq_refused_iff ha
  · have hdone := performed t a
    rw [h] at hdone
    exact hdone.eq_of_refused

/-! ## After the submission -/

theorem steps_of_submitted {t : Attempt} (ht : t.submitted = true) {actions : List Action}
    (hsame : ∀ other, .replace other ∈ actions → other = t.snapshot) :
    t.after actions = t ∧ ∀ s ∈ t.steps actions,
      (s.action.target?.isSome → s.report = .refused .alreadyScored) ∧
      (s.action = .submit → s.report = .scored (tally t.scoring t.question t.answers)) := by
  induction actions with
  | nil => exact ⟨rfl, fun s hs => nomatch hs⟩
  | cons a actions ih =>
    obtain ⟨hkept, hreports⟩ := (performed t a).of_submitted ht
      fun other heq => hsame other (by rw [heq]; exact List.mem_cons_self)
    obtain ⟨hafter, hsteps⟩ := ih fun other hmem => hsame other (List.mem_cons_of_mem _ hmem)
    rw [after_cons, steps, hkept, List.forall_mem_cons]
    exact ⟨hafter, hreports, hsteps⟩

/-- **A scored attempt stands:** its answers, verdicts and score stay as they were, until a move to
another snapshot, even one of an equal question, begins a new attempt. -/
theorem frozen_of_submit (w : ScoringSettings) (start : Snapshot) (earlier later : List Action)
    (h : ∀ other, .replace other ∈ later → other = ((new w start).after earlier).snapshot) :
    let t := (new w start).after earlier
    let t' := t.after (.submit :: later)
    (t'.answers = t.answers ∧ t'.verdicts = t.verdicts ∧ t'.submitted = true) ∧
    (∀ s ∈ t.steps (.submit :: later),
      (s.action.target?.isSome → s.report = .refused .alreadyScored) ∧
      (s.action = .submit →
        s.report = .scored (.of (t.verdicts.countP (·.correct)) t.verdicts.length))) ∧
    (∀ other, other ≠ t.snapshot →
      (t'.perform (.replace other)).value = (.done, new w other) ∧
      ∀ id ∈ other.question.focusOrder, ∀ value,
        ((new w other).perform (.answer id value)).value =
          (.done, { new w other with answers := Answers.empty.set id value })) := by
  intro t t'
  obtain ⟨hafter, hsteps⟩ := steps_of_submitted (t := { t with submitted := true }) rfl h
  have ht' : t' = { t with submitted := true } := hafter
  refine ⟨?_, ?_, fun other hother => ⟨?_, fun id hid value => ?_⟩⟩
  · rw [ht']
    exact ⟨rfl, rfl, rfl⟩
  · rw [steps, List.forall_mem_cons]
    exact ⟨⟨fun htarget => by simp [Action.target?] at htarget, fun _ => rfl⟩, hsteps⟩
  · have hscoring : t.scoring = w := scoring_after (new w start) earlier
    rw [ht', ← hscoring]
    simp only [perform, replace, if_neg (Ne.symm hother)]
    rfl
  · exact value_answer (refusal?_eq_none_iff.2 ⟨rfl, hid⟩) value

/-- A snapshot of a question with one slot, to which the answer is `1`. -/
def oneSlot (stamp : Nat) : Snapshot := ⟨stamp, ⟨[.leaf (.input ⟨"a", "1"⟩) .default]⟩⟩

/-- A wrong answer cannot be mended after the submission, but an equal question can be begun. -/
theorem frozen_of_submit_equal_copy :
    let t := (new .default (oneSlot 0)).after [.answer "a" "2"]
    let t' := t.after [.submit, .answer "a" "1", .replace (oneSlot 0), .submit]
    oneSlot 1 ≠ oneSlot 0 ∧ (oneSlot 1).question = (oneSlot 0).question ∧
      t'.answers.get? "a" = some "2" ∧ t'.verdicts.map (·.correct) = [false] ∧
      (t'.perform (.replace (oneSlot 1))).value = (.done, new .default (oneSlot 1)) := by
  intro t t'
  have hsnapshot : t.snapshot = oneSlot 0 := by decide +kernel
  have hother : oneSlot 1 ≠ oneSlot 0 := by decide
  obtain ⟨⟨hanswers, hverdicts, -⟩, -, hmoved⟩ := frozen_of_submit .default (oneSlot 0)
    [.answer "a" "2"] [.answer "a" "1", .replace (oneSlot 0), .submit] (by
      intro other hmem
      rw [hsnapshot]
      simpa using hmem)
  refine ⟨hother, rfl, ?_, ?_, (hmoved _ (hsnapshot ▸ hother)).1⟩
  · rw [hanswers]
    decide
  · rw [hverdicts]
    decide +kernel

end MathQuiz.Attempt
