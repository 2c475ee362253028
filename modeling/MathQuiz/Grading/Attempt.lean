import MathQuiz.Grading.AnswersText
import MathQuiz.Json.Quoted
import MathQuiz.Notice
import MathQuiz.Numeral.Quantity
import MathQuiz.Question.Basic

/-!
# Grading and attempts

Each slot of a question gets a verdict on the answer to its identifier; a slot without an answer is
wrong. An attempt is one person's work on a question: answers can be given and cleared until it is
submitted, and from then on they stand.

* `ScoringSettings`, `answerMatches`: when an answer is correct;
* `Verdict`, `grade`: one verdict for each slot, in canonical order;
* `Score`, `scoreWith`, `score`: how many are correct, and the percentage to the nearest integer;
* `Attempt`, `AttemptError`: the work so far, and what it can refuse;
* `Attempt.Action`, `Attempt.perform`: giving, clearing, submitting and moving to another snapshot,
  with what each of them reports;
* `Attempt.verdicts`, `Attempt.nextFocus`: what can be asked at any time.
-/

/-! ## Grading

Answers are compared as texts, blanks at their ends aside, or also as numbers where the settings say
so. -/

namespace MathQuiz

/-- How answers are compared. -/
structure ScoringSettings where
  numericEquivalence : Bool
  deriving DecidableEq, Repr

/-- Answers are compared as texts only, unless set otherwise. -/
def ScoringSettings.default : ScoringSettings := ⟨false⟩

/-- The trimmed answer is the one expected or, if numbers count, another way to write it. -/
def answerMatches (w : ScoringSettings) (submitted expected : String) : Bool :=
  let s := Text.trim submitted
  let e := Text.trim expected
  s = e || w.numericEquivalence &&
    match Quantity.read? s, Quantity.read? e with
    | some a, some b => a.equivalent b
    | _, _ => false

/-! ### Verdicts -/

/-- The verdict on one slot. -/
structure Verdict where
  slot : Slot
  submitted : Option String
  correct : Bool
  deriving DecidableEq, Repr

/-- The verdict on a slot. -/
def Slot.grade (w : ScoringSettings) (a : Answers) (slot : Slot) : Verdict :=
  let submitted := a.get? slot.id
  ⟨slot, submitted, submitted.any (answerMatches w · slot.expected)⟩

/-- **The verdicts on all slots,** in canonical order. -/
def grade (w : ScoringSettings) (q : Question) (a : Answers) : List Verdict :=
  q.slots.map (Slot.grade w a)

/-! ### Scores -/

/-- How many slots are correct, and how many there are. -/
structure Score where
  correct : Nat
  total : Nat
  percentage : Nat
  deriving DecidableEq, Repr

namespace Score

/-- The score of so many correct slots. The percentage is rounded, half upwards, and kept to 32
bits; it is zero if there is nothing to grade. -/
def of (correct total : Nat) : Score where
  correct := correct
  total := total
  percentage :=
    if total = 0 then 0 else (200 * correct + total) / (2 * total) % Nat.pow 2 32

@[simp] theorem correct_of (correct total : Nat) : (of correct total).correct = correct := rfl

@[simp] theorem total_of (correct total : Nat) : (of correct total).total = total := rfl

/-- There was nothing to grade. -/
def isDegenerate (s : Score) : Bool := s.total == 0

/-- There was something to grade, and all of it is correct. -/
def isPerfect (s : Score) : Bool := s.total != 0 && s.correct == s.total

def notice (s : Score) : Notice := .scored s.correct s.total s.percentage

def json (s : Score) : String :=
  String.ofList <| Json.object [
    ("correct", (toString s.correct).toList),
    ("total", (toString s.total).toList),
    ("percentage", (toString s.percentage).toList)]

end Score

/-- The score of answers. -/
def tally (w : ScoringSettings) (q : Question) (a : Answers) : Score :=
  let verdicts := grade w q a
  .of (verdicts.countP (·.correct)) verdicts.length

/-- **The score of answers,** with a notice. -/
def scoreWith (w : ScoringSettings) (q : Question) (a : Answers) : Logged Score := do
  let s := tally w q a
  Logged.tell s.notice
  return s

/-- The score of answers compared as texts only. -/
def score (q : Question) (a : Answers) : Logged Score := scoreWith .default q a

/-! ## Attempts

If the question is replaced by another snapshot, the answers are given up and the attempt is open
again. -/

/-- What an attempt can refuse. -/
inductive AttemptError
  | unknownInput (id : String)
  | alreadyScored
  deriving DecidableEq, Repr

def AttemptError.message : AttemptError → String
  | unknownInput id => "the document has no input with id `" ++ id ++ "`"
  | alreadyScored => "this attempt has already been scored"

/-- One person's work on a question. -/
structure Attempt where
  snapshot : Snapshot
  answers : Answers
  scoring : ScoringSettings
  submitted : Bool
  deriving DecidableEq

namespace Attempt

def new (scoring : ScoringSettings) (snapshot : Snapshot) : Attempt :=
  ⟨snapshot, .empty, scoring, false⟩

def question (t : Attempt) : Question := t.snapshot.question

/-! ### Actions -/

/-- The reason, if there is one, why the answer to an identifier cannot be changed. -/
def refusal? (t : Attempt) (id : String) : Option AttemptError :=
  if t.submitted then some .alreadyScored
  else if (t.question.input? id).isNone then some (.unknownInput id)
  else none

/-- Gives an answer. -/
def answer (t : Attempt) (id value : String) : Except AttemptError Attempt :=
  match t.refusal? id with
  | some e => .error e
  | none => .ok { t with answers := t.answers.set id value }

/-- Clears an answer and tells what it was. -/
def clear (t : Attempt) (id : String) : Except AttemptError (Option String × Attempt) :=
  match t.refusal? id with
  | some e => .error e
  | none => .ok (t.answers.get? id, { t with answers := t.answers.erase id })

/-- Scores the answers, which stand from now on. -/
def submit (t : Attempt) : Logged (Score × Attempt) := do
  let s ← scoreWith t.scoring t.question t.answers
  return (s, { t with submitted := true })

/-- Moves to another snapshot and gives up the answers. Nothing changes if it is the same one. -/
def replace (t : Attempt) (snapshot : Snapshot) : Logged Attempt :=
  if t.snapshot = snapshot then pure t
  else do
    Logged.tell (.answersDiscarded t.answers.size)
    return { t with snapshot := snapshot, answers := .empty, submitted := false }

/-- What can be done with an attempt. -/
inductive Action
  | answer (id value : String)
  | clear (id : String)
  | submit
  | replace (snapshot : Snapshot)
  deriving DecidableEq

/-- What an action reports. -/
inductive Report
  | done
  | cleared (old : Option String)
  | scored (score : Score)
  | refused (error : AttemptError)
  deriving DecidableEq, Repr

/-- **Performs an action.** A refused one changes nothing. -/
def perform (t : Attempt) : Action → Logged (Report × Attempt)
  | .answer id value =>
    match t.answer id value with
    | .ok t' => pure (.done, t')
    | .error e => pure (.refused e, t)
  | .clear id =>
    match t.clear id with
    | .ok (old, t') => pure (.cleared old, t')
    | .error e => pure (.refused e, t)
  | .submit => do
    let (s, t') ← t.submit
    return (.scored s, t')
  | .replace snapshot => do return (.done, ← t.replace snapshot)

/-! ### Questions about an attempt -/

def verdicts (t : Attempt) : List Verdict := grade t.scoring t.question t.answers

/-- The identifier behind the first place of `current`, if both are there. -/
def following (current : String) (ids : List String) : Option String :=
  (ids.dropWhile (· != current)).tail.head?

/-- The identifier that gets the focus: the first one, or the one behind the current one. -/
def nextFocus (t : Attempt) : Option String → Option String
  | none => t.question.focusOrder.head?
  | some current => following current t.question.focusOrder

end Attempt

end MathQuiz
