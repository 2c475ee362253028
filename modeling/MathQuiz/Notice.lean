import MathQuiz.Expr.Kind

/-!
# Notices

What is worth telling about a computation beside its result: records and nodes of an unknown kind,
refused drafts, scores, and answers given up.

* `Notice`, `Notice.level`, `Notice.message`: what is told, how urgently, and in which words;
* `Logged`: a result with the notices made on the way to it, a lawful monad.
-/

namespace MathQuiz

/-- How urgent a notice is. -/
inductive Level
  | warn
  | debug
  | trace
  deriving DecidableEq, Repr

/-- The two renderings of a tree. -/
inductive Medium
  | latex
  | speech
  deriving DecidableEq, Repr

def Medium.name : Medium → String
  | latex => "latex"
  | speech => "speech"

/-- What is worth telling. -/
inductive Notice
  /-- A record of an unknown kind became an unrecognized node. -/
  | unknownRecord (kind : String)
  /-- A node of an unknown kind was rendered as nothing. -/
  | renderedAsNothing (medium : Medium) (kind : String)
  /-- A draft was not appended. -/
  | refusedDraft (kind : Kind) (error : ShapeError)
  /-- Answers were scored. -/
  | scored (correct total percentage : Nat)
  /-- An attempt moved to another question and gave up its answers. -/
  | answersDiscarded (count : Nat)
  deriving DecidableEq, Repr

def Notice.level : Notice → Level
  | unknownRecord _ | refusedDraft .. | answersDiscarded _ => .debug
  | renderedAsNothing .. => .warn
  | scored .. => .trace

def Notice.message : Notice → String
  | unknownRecord kind =>
    "loading record of unknown kind `" ++ kind ++ "` as an unrecognized node"
  | renderedAsNothing medium kind =>
    medium.name ++ " projector does not recognise node kind `" ++ kind ++
      "`; projecting it as nothing"
  | refusedDraft kind error => "refused to append " ++ kind.tag ++ " draft: " ++ error.message
  | scored correct total percentage =>
    "scored " ++ toString correct ++ "/" ++ toString total ++ " (" ++ toString percentage ++ "%)"
  | answersDiscarded count =>
    "document replaced; discarding " ++ toString count ++ " answer(s)"

/-! ## Results with notices -/

/-- A result and the notices made on the way to it, in order. -/
structure Logged (α : Type) where
  value : α
  notices : List Notice
  deriving DecidableEq, Repr

namespace Logged

variable {α β : Type}

instance : Monad Logged where
  pure a := ⟨a, []⟩
  bind x f := ⟨(f x.value).value, x.notices ++ (f x.value).notices⟩

/-- Makes one notice. -/
def tell (n : Notice) : Logged Unit := ⟨(), [n]⟩

@[simp] theorem value_pure (a : α) : (pure a : Logged α).value = a := rfl

@[simp] theorem notices_pure (a : α) : (pure a : Logged α).notices = [] := rfl

@[simp] theorem value_bind (x : Logged α) (f : α → Logged β) :
    (x >>= f).value = (f x.value).value := rfl

@[simp] theorem notices_bind (x : Logged α) (f : α → Logged β) :
    (x >>= f).notices = x.notices ++ (f x.value).notices := rfl

@[simp] theorem value_map (f : α → β) (x : Logged α) : (f <$> x).value = f x.value := rfl

@[simp] theorem notices_map (f : α → β) (x : Logged α) : (f <$> x).notices = x.notices := by
  simp [Functor.map]

theorem ext_iff {x y : Logged α} : x = y ↔ x.value = y.value ∧ x.notices = y.notices := by
  cases x; cases y; simp

instance : LawfulMonad Logged :=
  LawfulMonad.mk' Logged (fun x => by simp [ext_iff]) (fun a f => by simp [ext_iff])
    (fun x f g => by simp [ext_iff])

@[simp] theorem value_mapM {f : α → Logged β} {as : List α} :
    (as.mapM f).value = as.map fun a => (f a).value := by
  induction as with
  | nil => rfl
  | cons a as ih => simp [List.mapM_cons, ih]

@[simp] theorem notices_mapM {f : α → Logged β} {as : List α} :
    (as.mapM f).notices = as.flatMap fun a => (f a).notices := by
  induction as with
  | nil => rfl
  | cons a as ih => simp [List.mapM_cons, ih]

end Logged

end MathQuiz
