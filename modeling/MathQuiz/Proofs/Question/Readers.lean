import MathQuiz.Proofs.Expr.Trees
import MathQuiz.Question.Basic
import MathQuiz.Grading.Attempt
import MathQuiz.Render.Rendering

/-!
# What each reader of a question depends on

Drawing, speaking, grading and layout look at different fields of the same trees. Two trees differ
at most in what a reader does not look at exactly if they are the same as the reader sees them. What
is hidden below markup in a drawing is still spoken and graded.

* `View`: what a reader takes in of leaves, markup and hints, and whether anything below markup;
* `Node.seen`, `Question.seen`: a tree and a question as a reader sees them;
* `View.drawing`, `View.speaking`, `View.grading`, `View.unsolved`: the views of the three readers
  of trees, and everything but the expected answers;
* `latex_seen`, `speech_seen`: a rendering is the same of a tree as it is seen;
* `latexes_congr`, `latexAll_congr`, `speeches_congr`, `spansFrom_congr`: nodes that read the same
  one by one read the same in a row;
* **`Question.readers_confined`**: questions that differ only in what a reader does not look at are
  the same to that reader, and no rendering shows an expected answer.
-/

/-! ## Views of a tree -/

namespace MathQuiz

/-- What a reader takes in of a tree. What it does not take in becomes the same in every tree. -/
structure View where
  leaf : Leaf → Leaf
  markup : Option String → Option String
  hints : Hints → Hints
  hidesBelow : Option String → Bool

mutual

/-- The tree as a reader sees it. -/
def Node.seen (v : View) : Node → Node
  | .leaf content hints => .leaf (v.leaf content) (v.hints hints)
  | .pair op first second markup hints =>
    if v.hidesBelow markup then
      .pair op (.leaf (.text "") .default) (.leaf (.text "") .default) (v.markup markup)
        (v.hints hints)
    else .pair op (first.seen v) (second.seen v) (v.markup markup) (v.hints hints)
  | .run form children markup hints =>
    if v.hidesBelow markup then .run form [] (v.markup markup) (v.hints hints)
    else .run form (seenAll v children) (v.markup markup) (v.hints hints)

def seenAll (v : View) : List Node → List Node
  | [] => []
  | node :: nodes => node.seen v :: seenAll v nodes

end

/-- The question as a reader sees it. -/
def Question.seen (v : View) (q : Question) : Question := ⟨seenAll v q.nodes⟩

/-! ### The views -/

namespace View

/-- For drawing: no expected answers, no payloads of rich content, no hints, and below a node with
markup nothing at all. -/
def drawing : View where
  leaf
    | .input slot => .input ⟨slot.id, ""⟩
    | .rich _ => .rich ""
    | content => content
  markup markup := markup
  hints _ := .default
  hidesBelow := Option.isSome

/-- For speaking: nothing of a slot but that it is there, no hints and no markup. -/
def speaking : View where
  leaf
    | .input _ => .input ⟨"", ""⟩
    | content => content
  markup _ := none
  hints _ := .default
  hidesBelow _ := false

/-- For grading: no contents of texts, numbers and rich content, no hints and no markup. -/
def grading : View where
  leaf
    | .text _ => .text ""
    | .decimal _ => .decimal ""
    | .rich _ => .rich ""
    | content => content
  markup _ := none
  hints _ := .default
  hidesBelow _ := false

/-- For somebody who does not know the answers: everything else. -/
def unsolved : View where
  leaf
    | .input slot => .input ⟨slot.id, ""⟩
    | content => content
  markup markup := markup
  hints hints := hints
  hidesBelow _ := false

end View

/-! ### What the seen decides -/

theorem seenAll_eq_map (v : View) (nodes : List Node) :
    seenAll v nodes = nodes.map (Node.seen v) := by
  induction nodes with
  | nil => rfl
  | cons node nodes ih => rw [seenAll, ih, List.map_cons]

variable {v : View}

theorem map_seenAll {α : Type} {f : Node → α} {nodes : List Node}
    (h : ∀ node ∈ nodes, f (node.seen v) = f node) : (seenAll v nodes).map f = nodes.map f := by
  rw [seenAll_eq_map, List.map_map]
  exact List.map_congr_left h

/-- A function of what is seen cannot tell apart what is seen as the same. -/
theorem Question.map_eq_of_seen {α : Type} {f : Node → α} (hf : ∀ node, f (node.seen v) = f node)
    {q q' : Question} (h : q.seen v = q'.seen v) : q.nodes.map f = q'.nodes.map f := by
  have hnodes : seenAll v q.nodes = seenAll v q'.nodes := congrArg Question.nodes h
  rw [← map_seenAll fun node _ => hf node, hnodes, map_seenAll fun node _ => hf node]

theorem hints_seen (h : ∀ hints, v.hints hints = hints) (node : Node) :
    (node.seen v).hints = node.hints := by
  cases node with
  | leaf content hints => exact h hints
  | pair op first second markup hints =>
    rw [Node.seen]
    split <;> exact h hints
  | run form children markup hints =>
    rw [Node.seen]
    split <;> exact h hints

theorem slotsOf_congr {nodes nodes' : List Node}
    (h : nodes.map Node.slots = nodes'.map Node.slots) : slotsOf nodes = slotsOf nodes' := by
  rw [slotsOf_eq_flatMap, slotsOf_eq_flatMap, List.flatMap_def, List.flatMap_def, h]

theorem slots_seen (hleaf : ∀ content, (v.leaf content).slots = content.slots)
    (hall : ∀ markup, v.hidesBelow markup = false) (node : Node) :
    (node.seen v).slots = node.slots := by
  induction node using Node.induction with
  | leaf content hints => exact hleaf content
  | pair op first second markup hints ih₁ ih₂ =>
    rw [Node.seen, hall, if_neg Bool.false_ne_true, Node.slots, ih₁, ih₂, Node.slots]
  | run form children markup hints ih =>
    rw [Node.seen, hall, if_neg Bool.false_ne_true, Node.slots, slotsOf_congr (map_seenAll ih),
      Node.slots]

/-! ## Readers of nodes in a row -/

variable {nodes nodes' : List Node}

theorem mapM_congr {α : Type} {f : Node → Logged α} (h : nodes.map f = nodes'.map f) :
    nodes.mapM f = nodes'.mapM f := by
  have hmap (l : List Node) : (l.map f).mapM id = l.mapM f := List.mapM_map
  rw [← hmap, h, hmap]

/-! ### LaTeX -/

section Latex

variable {w : LatexSettings}

theorem latexes_eq_mapM (w : LatexSettings) (nodes : List Node) :
    latexes w nodes = nodes.mapM (Node.latex w) := by
  induction nodes with
  | nil => rfl
  | cons node nodes ih => rw [latexes, ih, List.mapM_cons]

theorem latexAll_eq_join (w : LatexSettings) (nodes : List Node) :
    latexAll w nodes = String.join <$> latexes w nodes := by
  induction nodes with
  | nil => rfl
  | cons node nodes ih =>
    rw [latexAll, ih, latexes]
    simp [String.join_cons]

theorem latexes_congr (h : nodes.map (Node.latex w) = nodes'.map (Node.latex w)) :
    latexes w nodes = latexes w nodes' := by
  rw [latexes_eq_mapM, mapM_congr h, latexes_eq_mapM]

theorem latexAll_congr (h : nodes.map (Node.latex w) = nodes'.map (Node.latex w)) :
    latexAll w nodes = latexAll w nodes' := by
  rw [latexAll_eq_join, latexes_congr h, latexAll_eq_join]

/-- A view may hide what is below markup, as LaTeX does not look there. -/
theorem latex_seen (hleaf : ∀ content, w.leaf (v.leaf content) = w.leaf content)
    (hmarkup : ∀ markup, v.markup markup = markup) (hbelow : v.hidesBelow none = false)
    (node : Node) : (node.seen v).latex w = node.latex w := by
  induction node using Node.induction with
  | leaf content hints => exact hleaf content
  | pair op first second markup hints ih₁ ih₂ =>
    cases markup with
    | some markup =>
      rw [Node.seen, hmarkup]
      split <;> rfl
    | none =>
      rw [Node.seen, hbelow, if_neg Bool.false_ne_true, hmarkup, Node.latex, ih₁, ih₂, Node.latex]
  | run form children markup hints ih =>
    cases markup with
    | some markup =>
      rw [Node.seen, hmarkup]
      split <;> rfl
    | none =>
      rw [Node.seen, hbelow, if_neg Bool.false_ne_true, hmarkup, Node.latex,
        latexAll_congr (map_seenAll ih), Node.latex]

theorem leaf_drawing (content : Leaf) : w.leaf (View.drawing.leaf content) = w.leaf content := by
  cases content <;> rfl

theorem leaf_unsolved (content : Leaf) : w.leaf (View.unsolved.leaf content) = w.leaf content := by
  cases content <;> rfl

end Latex

/-! ### Speech -/

section Speech

variable {w : SpeechSettings}

theorem speeches_eq_mapM (w : SpeechSettings) (nodes : List Node) :
    speeches w nodes = nodes.mapM (Node.speech w) := by
  induction nodes with
  | nil => rfl
  | cons node nodes ih => rw [speeches, ih, List.mapM_cons]

theorem speeches_congr (h : nodes.map (Node.speech w) = nodes'.map (Node.speech w)) :
    speeches w nodes = speeches w nodes' := by
  rw [speeches_eq_mapM, mapM_congr h, speeches_eq_mapM]

theorem speechAll_congr (h : nodes.map (Node.speech w) = nodes'.map (Node.speech w)) :
    speechAll w nodes = speechAll w nodes' := by
  rw [speechAll, speeches_congr h, speechAll]

/-- A view may leave out markup, but must not hide what is below it. -/
theorem speech_seen (hleaf : ∀ content, w.leaf (v.leaf content) = w.leaf content)
    (hall : ∀ markup, v.hidesBelow markup = false) (node : Node) :
    (node.seen v).speech w = node.speech w := by
  induction node using Node.induction with
  | leaf content hints => exact hleaf content
  | pair op first second markup hints ih₁ ih₂ =>
    rw [Node.seen, hall, if_neg Bool.false_ne_true, Node.speech, ih₁, ih₂, Node.speech]
  | run form children markup hints ih =>
    rw [Node.seen, hall, if_neg Bool.false_ne_true, Node.speech,
      speeches_congr (map_seenAll ih), Node.speech]

theorem spoken_speaking (content : Leaf) :
    w.leaf (View.speaking.leaf content) = w.leaf content := by
  cases content <;> rfl

theorem spoken_unsolved (content : Leaf) :
    w.leaf (View.unsolved.leaf content) = w.leaf content := by
  cases content <;> rfl

end Speech

/-! ### Slots and groups -/

theorem slots_grading (content : Leaf) : (View.grading.leaf content).slots = content.slots := by
  cases content <;> rfl

theorem spansFrom_congr {direction : Direction} {start index : Nat}
    (h : nodes.map Node.hints = nodes'.map Node.hints) :
    spansFrom direction start index nodes = spansFrom direction start index nodes' := by
  induction nodes generalizing nodes' direction start index with
  | nil => rw [List.map_eq_nil_iff.1 h.symm]
  | cons node nodes ih =>
    obtain ⟨node', rest, rfl, hnode, hrest⟩ := List.map_eq_cons_iff.1 h.symm
    -- whether a node is the last one shows in the number of nodes
    have hlast : rest.isEmpty = nodes.isEmpty := by
      rw [← List.isEmpty_map, hrest, List.isEmpty_map]
    rw [spansFrom, spansFrom, hnode, hlast, ih hrest.symm, ih hrest.symm]

namespace Question

/-- **Each reader reads only its own fields.** Questions that differ only in what a reader does not
see are drawn, spoken, graded or laid out alike. -/
theorem readers_confined (q q' : Question) :
    (q.seen .drawing = q'.seen .drawing → ∀ w : LatexSettings,
      q.nodes.map (Node.latex w) = q'.nodes.map (Node.latex w) ∧ q.latex w = q'.latex w) ∧
    (q.seen .speaking = q'.seen .speaking → ∀ w : SpeechSettings,
      q.nodes.map (Node.speech w) = q'.nodes.map (Node.speech w) ∧ q.speech w = q'.speech w) ∧
    (q.seen .grading = q'.seen .grading → q.slots = q'.slots ∧
      ∀ (w : ScoringSettings) (a : Answers),
        grade w q a = grade w q' a ∧ scoreWith w q a = scoreWith w q' a) ∧
    (q.nodes.map Node.hints = q'.nodes.map Node.hints →
      groupSpans q.nodes = groupSpans q'.nodes) ∧
    (q.seen .unsolved = q'.seen .unsolved → ∀ (l : LatexSettings) (w : SpeechSettings),
      Rendering.compute l w q = Rendering.compute l w q' ∧ q.latex l = q'.latex l ∧
        q.speech w = q'.speech w) := by
  refine ⟨fun h w => ?_, fun h w => ?_, fun h => ?_, spansFrom_congr, fun h l w => ?_⟩
  · have hnodes := map_eq_of_seen (latex_seen (w := w) leaf_drawing (fun _ => rfl) rfl) h
    exact ⟨hnodes, latexAll_congr hnodes⟩
  · have hnodes := map_eq_of_seen (speech_seen (w := w) spoken_speaking fun _ => rfl) h
    exact ⟨hnodes, speechAll_congr hnodes⟩
  · have hslots : q.slots = q'.slots :=
      slotsOf_congr (map_eq_of_seen (slots_seen slots_grading fun _ => rfl) h)
    have hgrade (w : ScoringSettings) (a : Answers) : grade w q a = grade w q' a := by
      rw [grade, hslots, grade]
    refine ⟨hslots, fun w a => ⟨hgrade w a, ?_⟩⟩
    rw [scoreWith, tally, hgrade, scoreWith, tally]
  · have hlatex := map_eq_of_seen (latex_seen (w := l) leaf_unsolved (fun _ => rfl) rfl) h
    have hspeech := map_eq_of_seen (speech_seen (w := w) spoken_unsolved fun _ => rfl) h
    have hhints := map_eq_of_seen (hints_seen fun _ => rfl) h
    have hspans : groupSpans q.nodes = groupSpans q'.nodes := spansFrom_congr hhints
    refine ⟨?_, latexAll_congr hlatex, speechAll_congr hspeech⟩
    rw [Rendering.compute, latexes_congr hlatex, speeches_congr hspeech, hspans, Rendering.compute]

/-- A fraction with a slot below its line, and an equation of another slot and rich content. -/
def sheet (slot slot' : Slot) (content payload : String) (markup : Option String)
    (hints : Hints) : Question :=
  ⟨[.pair .fraction (.leaf (.text content) .default) (.leaf (.input slot) .default) markup hints,
    .run .equation [.leaf (.input slot') .default, .leaf (.rich payload) hints] none .default]⟩

/-- Below markup an identifier makes no difference to a drawing, and markup none to speech and
grading. -/
theorem readers_confined_sheets :
    let q := sheet ⟨"a", "1"⟩ ⟨"b", "2"⟩ "x" "<i>p</i>" (some "m") .default
    let redrawn := sheet ⟨"c", "1"⟩ ⟨"b", "3"⟩ "y" "r" (some "m") ⟨.newLine, .goOn⟩
    let respoken := sheet ⟨"c", "1"⟩ ⟨"d", "3"⟩ "x" "<i>p</i>" none ⟨.newLine, .goOn⟩
    let regraded := sheet ⟨"a", "1"⟩ ⟨"b", "2"⟩ "y" "r" none ⟨.newLine, .goOn⟩
    let resolved := sheet ⟨"a", "4"⟩ ⟨"b", "5"⟩ "x" "<i>p</i>" (some "m") .default
    (q.latex .default = redrawn.latex .default ∧ q.slots ≠ redrawn.slots) ∧
    (q.speech .default = respoken.speech .default ∧ q.latex .default ≠ respoken.latex .default) ∧
    (q.slots = regraded.slots ∧ q.speech .default ≠ regraded.speech .default) ∧
    (Rendering.compute .default .default q = Rendering.compute .default .default resolved ∧
      q.slots ≠ resolved.slots) := by
  intro q redrawn respoken regraded resolved
  refine ⟨⟨?_, by decide⟩, ⟨?_, by decide +kernel⟩, ⟨?_, by decide +kernel⟩, ?_, by decide⟩
  · exact ((readers_confined q redrawn).1 rfl .default).2
  · exact ((readers_confined q respoken).2.1 rfl .default).2
  · exact ((readers_confined q regraded).2.2.1 rfl).1
  · exact ((readers_confined q resolved).2.2.2.2 rfl .default .default).1

end Question

end MathQuiz
