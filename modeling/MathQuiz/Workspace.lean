import MathQuiz.Grading.Attempt
import MathQuiz.Question.DraftText
import MathQuiz.Question.Basic
import MathQuiz.Render.Rendering
import MathQuiz.Settings

/-!
# Workspaces

A workspace keeps questions and attempts under names, and one cache of renderings. A name stands
for a snapshot: loading, copying node by node and appending make a new one, giving a second name
does not.

* `Workspace`, `Workspace.new`: the state, at first with the empty question under `empty`;
* `Command`, `Reply`: what can be asked for, and what is answered;
* `Workspace.run`: performs a command.
-/

namespace MathQuiz

/-- Named questions and attempts, and a cache of renderings. -/
structure Workspace where
  nextStamp : Nat
  questions : List (String × Snapshot)
  attempts : List (String × Attempt)
  cache : RenderCache

/-- What can be asked of a workspace. -/
inductive Command
  /-- Loads a text under a name. -/
  | load (text target : String)
  /-- Gives a snapshot a second name. -/
  | clone (source target : String)
  /-- Makes an equal copy under a name. -/
  | rebuild (source target : String)
  /-- Appends a draft and names the result. -/
  | append (source target : String) (draft : Draft)
  | json (source : String)
  | input (source id : String)
  | compare (a b : String)
  | render (source : String)
  | holds (source : String)
  | invalidate
  /-- Begins an attempt on a question. -/
  | begin (attempt source : String) (scoring : ScoringSettings)
  /-- Copies an attempt. -/
  | copy (source attempt : String)
  | answer (attempt id value : String)
  | clear (attempt id : String)
  | submit (attempt : String)
  | replace (attempt source : String)
  | verdicts (attempt : String)
  | focus (attempt : String) (current : Option String)

/-- What an attempt answers. -/
inductive AttemptResult
  | reported (report : Attempt.Report)
  | verdicts (list : List Verdict)
  | focus (id : Option String)
  | focusOrder (ids : List String)

/-- What a workspace answers. -/
inductive Reply
  | question (q : Question)
  | notLoaded (error : LoadError)
  | notAppended (error : ShapeError)
  | text (s : String)
  | slot (s : Option Slot)
  | comparison (equal same : Bool)
  | rendering (r : Rendering) (computed : Nat)
  | holding (holds : Bool) (computed : Nat)
  | computed (count : Nat)
  | attempt (result : AttemptResult) (state : Attempt)
  | unknownName (name : String)

namespace Workspace

/-- The workspace with the empty question only. -/
def new (settings : Settings) : Workspace where
  nextStamp := 1
  questions := [("empty", ⟨0, .empty⟩)]
  attempts := []
  cache := .new settings.latex settings.speech

/-- Names a snapshot. -/
def name (w : Workspace) (target : String) (s : Snapshot) : Workspace :=
  { w with questions := (target, s) :: w.questions }

/-- Makes a snapshot of a question and names it. -/
def save (w : Workspace) (target : String) (q : Question) : Workspace :=
  { w.name target ⟨w.nextStamp, q⟩ with nextStamp := w.nextStamp + 1 }

/-- Names an attempt. -/
def keep (w : Workspace) (attempt : String) (t : Attempt) : Workspace :=
  { w with attempts := (attempt, t) :: w.attempts }

/-- Goes on with the snapshot of a name. -/
def withQuestion (w : Workspace) (source : String)
    (go : Snapshot → Logged (Reply × Workspace)) : Logged (Reply × Workspace) :=
  match w.questions.lookup source with
  | some s => go s
  | none => pure (.unknownName source, w)

/-- Goes on with the attempt of a name. -/
def withAttempt (w : Workspace) (attempt : String)
    (go : Attempt → Logged (Reply × Workspace)) : Logged (Reply × Workspace) :=
  match w.attempts.lookup attempt with
  | some t => go t
  | none => pure (.unknownName attempt, w)

/-- Performs an action on an attempt and keeps the outcome under its name. -/
def act (w : Workspace) (attempt : String) (action : Attempt.Action) : Logged (Reply × Workspace) :=
  w.withAttempt attempt fun t => do
    let (report, t) ← t.perform action
    return (.attempt (.reported report) t, w.keep attempt t)

/-- **Performs a command.** One that fails changes nothing. -/
def run (w : Workspace) : Command → Logged (Reply × Workspace)
  | .load text target => do
    match ← Question.load text with
    | .ok q => return (.question q, w.save target q)
    | .error e => return (.notLoaded e, w)
  | .clone source target =>
    w.withQuestion source fun s => pure (.question s.question, w.name target s)
  | .rebuild source target =>
    w.withQuestion source fun s => pure (.question s.question, w.save target s.question)
  | .append source target draft => w.withQuestion source fun s => do
    match ← s.question.append draft with
    | .ok q => return (.question q, w.save target q)
    | .error e => return (.notAppended e, w)
  | .json source => w.withQuestion source fun s => pure (.text s.question.json, w)
  | .input source id => w.withQuestion source fun s => pure (.slot (s.question.input? id), w)
  | .compare a b =>
    w.withQuestion a fun s => w.withQuestion b fun t =>
      pure (.comparison (s.question = t.question) (s = t), w)
  | .render source => w.withQuestion source fun s => do
    let (r, cache) ← w.cache.get s
    return (.rendering r cache.computed, { w with cache := cache })
  | .holds source =>
    w.withQuestion source fun s => pure (.holding (w.cache.holds s) w.cache.computed, w)
  | .invalidate =>
    pure (.computed w.cache.computed, { w with cache := w.cache.invalidate })
  | .begin attempt source scoring => w.withQuestion source fun s =>
    let t := Attempt.new scoring s
    pure (.attempt (.reported .done) t, w.keep attempt t)
  | .copy source attempt => w.withAttempt source fun t =>
    pure (.attempt (.reported .done) t, w.keep attempt t)
  | .answer attempt id value => w.act attempt (.answer id value)
  | .clear attempt id => w.act attempt (.clear id)
  | .submit attempt => w.act attempt .submit
  | .replace attempt source => w.withQuestion source fun s => w.withAttempt attempt fun t => do
    let t ← t.replace s
    return (.attempt (.focusOrder t.question.focusOrder) t, w.keep attempt t)
  | .verdicts attempt => w.withAttempt attempt fun t =>
    pure (.attempt (.verdicts t.verdicts) t, w)
  | .focus attempt current => w.withAttempt attempt fun t =>
    pure (.attempt (.focus (t.nextFocus current)) t, w)

def runAll (w : Workspace) : List Command → Logged (List Reply × Workspace)
  | [] => pure ([], w)
  | command :: commands => do
    let (reply, w) ← w.run command
    let (replies, w) ← w.runAll commands
    return (reply :: replies, w)

end Workspace

end MathQuiz
