import MathQuiz.Grading.Attempt
import MathQuiz.Json.Schema
import MathQuiz.Render.Rendering

/-!
# Settings

The words of both renderings and the way of grading are read from one JSON text. What is left out
keeps its default.

* `Settings`: the three groups, with `Settings.default`;
* `Settings.ofText`, `SettingsError`: the settings of a text, or what is wrong with it;
* `Settings.text`: the written form, with every field.
-/

namespace MathQuiz

/-- The words of both renderings and the way of grading. -/
structure Settings where
  latex : LatexSettings
  speech : SpeechSettings
  scoring : ScoringSettings
  deriving DecidableEq, Repr

/-- The settings of an empty object. -/
def Settings.default : Settings := ⟨.default, .default, .default⟩

/-- Why a text is no settings. -/
structure SettingsError where
  fault : Json.Fault
  deriving DecidableEq, Repr

/-! ## Reading -/

def LatexSettings.schema (_room : Nat) : Json.Schema LatexSettings where
  name := "LatexSettings"
  defaults := .default
  fields := [
    .optional "multiplication_sign" Json.character fun w v => { w with multiplicationSign := v },
    .optional "times_token" Json.string fun w v => { w with timesToken := v },
    .optional "display_open" Json.string fun w v => { w with displayOpen := v },
    .optional "display_close" Json.string fun w v => { w with displayClose := v },
    .optional "rich_placeholder" Json.string fun w v => { w with richPlaceholder := v }]

def SpeechSettings.schema (_room : Nat) : Json.Schema SpeechSettings where
  name := "SpeechSettings"
  defaults := .default
  fields := [
    .optional "over" Json.string fun w v => { w with fractionWord := v },
    .optional "to_the_power" Json.string fun w v => { w with powerWord := v },
    .optional "input" Json.string fun w v => { w with inputWord := v }]

/-- The fields of the settings of grading. -/
def ScoringSettings.schema (_room : Nat) : Json.Schema ScoringSettings where
  name := "ScoringSettings"
  defaults := .default
  fields := [
    .optional "numeric_equivalence" Json.boolean fun w v => { w with numericEquivalence := v }]

namespace Settings

/-- The three groups, where `room` brackets can still be opened. -/
def schema (room : Nat) : Json.Schema Settings where
  name := "Settings"
  defaults := .default
  fields := [
    .optional "latex" (Json.Schema.read LatexSettings.schema room) fun w v =>
      { w with latex := v },
    .optional "speech" (Json.Schema.read SpeechSettings.schema room) fun w v =>
      { w with speech := v },
    .optional "scoring" (Json.Schema.read ScoringSettings.schema room) fun w v =>
      { w with scoring := v }]

/-- **The settings of a text.** -/
def ofText (text : String) : Except SettingsError Settings :=
  match Json.wholly (Json.Schema.read schema Json.maxOpen) text with
  | .ok settings => .ok settings
  | .error f => .error ⟨f⟩

/-! ## Writing -/

/-- **The written form.** -/
def text (w : Settings) : String :=
  String.ofList <| Json.object [
    ("latex", Json.object [
      ("multiplication_sign", Json.quote (String.singleton w.latex.multiplicationSign)),
      ("times_token", Json.quote w.latex.timesToken),
      ("display_open", Json.quote w.latex.displayOpen),
      ("display_close", Json.quote w.latex.displayClose),
      ("rich_placeholder", Json.quote w.latex.richPlaceholder)]),
    ("speech", Json.object [
      ("over", Json.quote w.speech.fractionWord),
      ("to_the_power", Json.quote w.speech.powerWord),
      ("input", Json.quote w.speech.inputWord)]),
    ("scoring", Json.object [
      ("numeric_equivalence", Json.ofBool w.scoring.numericEquivalence)])]

end Settings

def SettingsError.message (m : Json.Mismatch) : String := "malformed settings: " ++ m.message

end MathQuiz
