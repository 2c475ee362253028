import MathQuiz.Proofs.Expr.Trees
import MathQuiz.Proofs.Render.Composition

/-!
# Nodes of an unknown kind in renderings

A node of an unknown kind is rendered as nothing, whatever it stands in, and a notice tells of it
wherever rendering comes across it. Speech comes across all of them; LaTeX does not look below a
node with markup.

* `Node.silenced`: a tree with an empty algebraic expression for each node of an unknown kind;
* `latex_silenced`, `speech_silenced`, `slots_silenced`: nothing of it is missed;
* `Node.unknowns`, `Node.openUnknowns`: the unknown kinds of a tree in reading order, and those
  that are not below markup;
* `notices_latex`, `notices_speech`: these are what the notices name;
* **`unknown_kinds_isolated`**: both for trees, for questions and for their renderings.
-/

namespace MathQuiz

/-! ## Unknown kinds as empty expressions -/

mutual

/-- The tree with an empty algebraic expression in place of each node of an unknown kind. -/
def Node.silenced : Node → Node
  | .leaf (.unrecognized _) hints => .run .algebraic [] none hints
  | .leaf content hints => .leaf content hints
  | .pair op first second markup hints => .pair op first.silenced second.silenced markup hints
  | .run form children markup hints => .run form (silencedAll children) markup hints

/-- The trees with an empty algebraic expression in place of each node of an unknown kind. -/
def silencedAll : List Node → List Node
  | [] => []
  | node :: nodes => node.silenced :: silencedAll nodes

end

/-- The question with an empty algebraic expression in place of each node of an unknown kind. -/
def Question.silenced (q : Question) : Question := ⟨silencedAll q.nodes⟩

theorem silencedAll_eq_map (nodes : List Node) : silencedAll nodes = nodes.map Node.silenced := by
  induction nodes with
  | nil => rfl
  | cons node nodes ih => rw [silencedAll, ih, List.map_cons]

theorem map_silencedAll {α : Type} {f : Node → α} {nodes : List Node}
    (h : ∀ node ∈ nodes, f node.silenced = f node) : (silencedAll nodes).map f = nodes.map f := by
  rw [silencedAll_eq_map, List.map_map]
  exact List.map_congr_left h

section Value

variable {l : LatexSettings} {w : SpeechSettings}

theorem latex_silenced (node : Node) : (node.silenced.latex l).value = (node.latex l).value := by
  induction node using Node.induction with
  | leaf content hints => cases content <;> rfl
  | pair op first second markup hints ih₁ ih₂ =>
    cases markup with
    | some markup => rfl
    | none => simp [Node.silenced, Node.latex, ih₁, ih₂]
  | run form children markup hints ih =>
    cases markup with
    | some markup => rfl
    | none => rw [Node.silenced, Node.latex, Node.latex, value_latexAll, value_latexAll,
        map_silencedAll ih]

theorem speech_silenced (node : Node) :
    (node.silenced.speech w).value = (node.speech w).value := by
  induction node using Node.induction with
  | leaf content hints => cases content <;> rfl
  | pair op first second markup hints ih₁ ih₂ =>
    rw [Node.silenced, value_speech_pair, ih₁, ih₂, value_speech_pair]
  | run form children markup hints ih =>
    rw [Node.silenced, speech_run, value_speechAll, map_silencedAll ih, speech_run,
      value_speechAll]

theorem slots_silenced (node : Node) : node.silenced.slots = node.slots := by
  induction node using Node.induction with
  | leaf content hints => cases content <;> rfl
  | pair op first second markup hints ih₁ ih₂ =>
    rw [Node.silenced, Node.slots, ih₁, ih₂, Node.slots]
  | run form children markup hints ih =>
    rw [Node.silenced, Node.slots, slotsOf_congr (map_silencedAll ih), Node.slots]

theorem hints_silenced (node : Node) : node.silenced.hints = node.hints := by
  cases node with
  | leaf content hints => cases content <;> rfl
  | pair | run => rfl

theorem compute_silenced (q : Question) :
    (Rendering.compute l w q.silenced).value = (Rendering.compute l w q).value := by
  have hspans : groupSpans q.silenced.nodes = groupSpans q.nodes :=
    spansFrom_congr (map_silencedAll fun node _ => hints_silenced node)
  rw [value_compute, value_compute, hspans]
  congr 1
  · exact map_silencedAll fun node _ => latex_silenced node
  · exact map_silencedAll fun node _ => speech_silenced node

end Value

/-! ## Notices of unknown kinds -/

/-- The unknown kind of a node, if it is of one. -/
def Node.unknown? : Node → Option String
  | .leaf (.unrecognized kind) _ => some kind
  | .leaf .. | .pair .. | .run .. => none

/-- The unknown kinds in a tree in reading order, one for each node. -/
def Node.unknowns (node : Node) : List String := node.preorder.filterMap Node.unknown?

/-- The node that is met does not lie below a node with markup. -/
def Visit.isOpen (v : Visit) : Bool := v.above.all (·.markup.isNone)

/-- The unknown kinds in a tree below the nodes `above` that do not lie below markup, in reading
order. -/
def Node.openUnknowns (above : List Node) (node : Node) : List String :=
  ((node.visits above).filter Visit.isOpen).filterMap (·.node.unknown?)

theorem unknowns_eq (node : Node) :
    node.unknowns = node.unknown?.toList ++ node.children.flatMap Node.unknowns :=
  Node.filterMap_preorder Node.unknown? node

theorem openUnknowns_eq (above : List Node) (node : Node) : node.openUnknowns above =
    (if above.all (·.markup.isNone) then node.unknown?.toList else []) ++
      node.children.flatMap (Node.openUnknowns (node :: above)) := by
  rw [Node.openUnknowns, Node.visits_eq, List.filter_cons, List.filter_flatMap, Visit.isOpen]
  split
  · rw [List.filterMap_cons, List.filterMap_flatMap]
    cases node.unknown? <;> rfl
  · rw [List.filterMap_flatMap]
    rfl

theorem openUnknowns_of_covered {above : List Node}
    (h : above.all (·.markup.isNone) = false) (node : Node) : node.openUnknowns above = [] := by
  induction node using Node.childInduction generalizing above with
  | h node ih =>
    have hcovered : (node :: above).all (·.markup.isNone) = false := by simp [h]
    rw [openUnknowns_eq, h, if_neg Bool.false_ne_true, List.nil_append, List.flatMap_eq_nil_iff]
    exact fun child hchild => ih child hchild hcovered

theorem unknowns_silenced (node : Node) : node.silenced.unknowns = [] := by
  induction node using Node.induction with
  | leaf content hints => cases content <;> rfl
  | pair op first second markup hints ih₁ ih₂ =>
    rw [Node.silenced, unknowns_eq]
    simp [Node.unknown?, Node.children, ih₁, ih₂]
  | run form children markup hints ih =>
    rw [Node.silenced, unknowns_eq, Node.children, silencedAll_eq_map, List.flatMap_map,
      List.flatMap_congr ih]
    simp [Node.unknown?]

section Notices

variable {l : LatexSettings} {w : SpeechSettings}

theorem notices_latex_eq (node : Node) : (node.latex l).notices =
    node.unknown?.toList.map (.renderedAsNothing .latex) ++
      if node.markup.isNone then node.children.flatMap fun child => (child.latex l).notices
      else [] := by
  cases node with
  | leaf content hints => cases content <;> rfl
  | pair op first second markup hints =>
    cases markup <;> simp [Node.latex, Node.unknown?, Node.markup, Node.children]
  | run form children markup hints =>
    cases markup <;> simp [Node.latex, notices_latexAll, Node.unknown?, Node.markup, Node.children]

theorem notices_speech_eq (node : Node) : (node.speech w).notices =
    node.unknown?.toList.map (.renderedAsNothing .speech) ++
      node.children.flatMap fun child => (child.speech w).notices := by
  cases node with
  | leaf content hints => cases content <;> rfl
  | pair op first second markup hints =>
    simp [notices_speech_pair, Node.unknown?, Node.children]
  | run form children markup hints =>
    simp [speech_run, notices_speechAll, Node.unknown?, Node.children]

/-- LaTeX tells of each unknown kind that is open, in reading order, and of nothing else. -/
theorem notices_latex {above : List Node} (h : above.all (·.markup.isNone) = true) (node : Node) :
    (node.latex l).notices = (node.openUnknowns above).map (.renderedAsNothing .latex) := by
  induction node using Node.childInduction generalizing above with
  | h node ih =>
    rw [notices_latex_eq, openUnknowns_eq, h, if_pos rfl, List.map_append, List.map_flatMap]
    congr 1
    -- LaTeX goes on below the node exactly where its children are open
    cases hmarkup : node.markup.isNone with
    | true =>
      have hopen : (node :: above).all (·.markup.isNone) = true := by simp [hmarkup, h]
      exact List.flatMap_congr fun child hchild => ih child hchild hopen
    | false =>
      have hcovered : (node :: above).all (·.markup.isNone) = false := by simp [hmarkup]
      refine (List.flatMap_eq_nil_iff.2 fun child _ => ?_).symm
      rw [openUnknowns_of_covered hcovered, List.map_nil]

/-- Speech tells of each unknown kind in the tree, in reading order, and of nothing else. -/
theorem notices_speech (node : Node) :
    (node.speech w).notices = node.unknowns.map (.renderedAsNothing .speech) := by
  induction node using Node.childInduction with
  | h node ih =>
    rw [notices_speech_eq, unknowns_eq, List.map_append, List.map_flatMap, List.flatMap_congr ih]

end Notices

/-- **An unknown kind affects only itself.** An empty expression in its place is rendered the same,
and every reader that comes to it tells of it once. -/
theorem unknown_kinds_isolated (l : LatexSettings) (w : SpeechSettings) :
    (∀ node : Node, node.silenced.unknowns = [] ∧
      (node.silenced.latex l).value = (node.latex l).value ∧
      (node.silenced.speech w).value = (node.speech w).value ∧
      node.silenced.slots = node.slots) ∧
    (∀ q : Question,
      (Rendering.compute l w q.silenced).value = (Rendering.compute l w q).value ∧
      (q.silenced.latex l).value = (q.latex l).value ∧
      (q.silenced.speech w).value = (q.speech w).value ∧
      q.silenced.slots = q.slots) ∧
    (∀ node : Node,
      (node.latex l).notices = (node.openUnknowns []).map (.renderedAsNothing .latex) ∧
      (node.speech w).notices = node.unknowns.map (.renderedAsNothing .speech)) ∧
    (∀ q : Question,
      let drawn := (q.nodes.flatMap (Node.openUnknowns [])).map (.renderedAsNothing .latex)
      let spoken := (q.nodes.flatMap Node.unknowns).map (.renderedAsNothing .speech)
      (q.latex l).notices = drawn ∧ (q.speech w).notices = spoken ∧
      (Rendering.compute l w q).notices = drawn ++ spoken) ∧
    ∀ medium kind, (Notice.renderedAsNothing medium kind).level = .warn ∧
      (Notice.renderedAsNothing medium kind).message = medium.name ++
        " projector does not recognise node kind `" ++ kind ++ "`; projecting it as nothing" := by
  refine ⟨fun node => ?_, fun q => ?_, fun node => ?_, fun q => ?_, fun medium kind => ⟨rfl, rfl⟩⟩
  · exact ⟨unknowns_silenced node, latex_silenced node, speech_silenced node, slots_silenced node⟩
  · refine ⟨compute_silenced q, ?_, ?_, ?_⟩
    · rw [Question.latex, Question.latex, value_latexAll, value_latexAll, Question.silenced,
        map_silencedAll fun node _ => latex_silenced node]
    · rw [Question.speech, Question.speech, value_speechAll, value_speechAll, Question.silenced,
        map_silencedAll fun node _ => speech_silenced node]
    · exact slotsOf_congr (map_silencedAll fun node _ => slots_silenced node)
  · exact ⟨notices_latex rfl node, notices_speech node⟩
  · have hdrawn : (q.nodes.flatMap fun node => (node.latex l).notices) =
        (q.nodes.flatMap (Node.openUnknowns [])).map (.renderedAsNothing .latex) := by
      rw [List.map_flatMap]
      exact List.flatMap_congr fun node _ => notices_latex rfl node
    have hspoken : (q.nodes.flatMap fun node => (node.speech w).notices) =
        (q.nodes.flatMap Node.unknowns).map (.renderedAsNothing .speech) := by
      rw [List.map_flatMap]
      exact List.flatMap_congr fun node _ => notices_speech node
    refine ⟨?_, ?_, ?_⟩
    · rw [Question.latex, notices_latexAll, hdrawn]
    · rw [Question.speech, notices_speechAll, hspoken]
    · rw [notices_compute, hdrawn, hspoken]

/-- Markup hides an unknown kind from LaTeX, but not from speech. -/
example :
    let unknown (kind : String) : Node := .leaf (.unrecognized kind) .default
    let marked : Node := .pair .fraction (unknown "a") (unknown "b") (some "m") .default
    let node : Node := .run .equation [marked, unknown "c"] none .default
    (node.latex .default).notices.map Notice.message =
        ["latex projector does not recognise node kind `c`; projecting it as nothing"] ∧
      node.unknowns = ["a", "b", "c"] := by
  decide +kernel

end MathQuiz
