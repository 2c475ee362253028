import MathQuiz.Grading.AnswersText
import MathQuiz.Numeral.Quantity
import MathQuiz.Question.DraftText
import MathQuiz.Text.Basic
import MathQuiz.Workspace
import MathQuiz.Proofs.Json.Reading
import MathQuiz.Proofs.Json.Kept
import MathQuiz.Proofs.Expr.Trees
import MathQuiz.Proofs.Expr.Record
import MathQuiz.Proofs.Question.SaveLoad
import MathQuiz.Proofs.Question.Readers
import MathQuiz.Proofs.Question.Expressions
import MathQuiz.Proofs.Text.Joining
import MathQuiz.Proofs.Text.Markup
import MathQuiz.Proofs.Text.Pieces
import MathQuiz.Proofs.Text.Literal
import MathQuiz.Proofs.Numeral.Equivalence
import MathQuiz.Proofs.Question.Authoring
import MathQuiz.Proofs.Question.Layout
import MathQuiz.Proofs.Question.Queries
import MathQuiz.Proofs.Grading.Verdicts
import MathQuiz.Proofs.Grading.Attempts
import MathQuiz.Proofs.Grading.FullMarks
import MathQuiz.Proofs.Grading.Percentage
import MathQuiz.Proofs.Workspace.Snapshots
import MathQuiz.Proofs.Render.Composition
import MathQuiz.Proofs.Render.Braces
import MathQuiz.Proofs.Render.Escapes
import MathQuiz.Proofs.Render.UnknownKinds
import MathQuiz.Proofs.Numeral.Written
import MathQuiz.Proofs.Numeral.Precision
import MathQuiz.Proofs.Numeral.Reading
import MathQuiz.Proofs.Expr.Fields
import MathQuiz.Proofs.Grading.Matching
import MathQuiz.Proofs.Question.Loading
import MathQuiz.Proofs.Question.Rules
import MathQuiz.Proofs.Grading.Focus
import MathQuiz.Proofs.Question.LayoutGrowth
