import MathQuiz.Proofs.Question.Readers
import MathQuiz.Proofs.Text.Joining

/-!
# Renderings from those of the children

The value and the notices of a rendering in terms of those of the nodes it is made of. Speech is
joined at every level of a tree, and sounds the same as if all that is to be read out had been
joined at once, from left to right.

* `value_latexAll`, `notices_latexAll`: the LaTeX of nodes in a row;
* `value_speech_pair`, `speech_run`, `value_speechAll`: the speech of inner nodes, and of nodes in a
  row;
* `value_compute`, `notices_compute`: the rendering of a question;
* `ReadOut`: what a text is that is read out of some fragments;
* **`speech_flat`**: the speech of inner nodes and of questions is read out of their fragments.
-/

namespace MathQuiz

/-! ## LaTeX -/

section Latex

variable (w : LatexSettings) (nodes : List Node)

theorem value_latexes :
    (latexes w nodes).value = nodes.map fun node => (node.latex w).value := by
  rw [latexes_eq_mapM, Logged.value_mapM]

theorem notices_latexes :
    (latexes w nodes).notices = nodes.flatMap fun node => (node.latex w).notices := by
  rw [latexes_eq_mapM, Logged.notices_mapM]

theorem value_latexAll :
    (latexAll w nodes).value = String.join (nodes.map fun node => (node.latex w).value) := by
  rw [latexAll_eq_join, Logged.value_map, value_latexes]

theorem notices_latexAll :
    (latexAll w nodes).notices = nodes.flatMap fun node => (node.latex w).notices := by
  rw [latexAll_eq_join, Logged.notices_map, notices_latexes]

end Latex

/-! ## Speech -/

section Speech

variable (w : SpeechSettings) (nodes : List Node)

theorem value_speeches :
    (speeches w nodes).value = nodes.map fun node => (node.speech w).value := by
  rw [speeches_eq_mapM, Logged.value_mapM]

theorem notices_speeches :
    (speeches w nodes).notices = nodes.flatMap fun node => (node.speech w).notices := by
  rw [speeches_eq_mapM, Logged.notices_mapM]

theorem value_speechAll : (speechAll w nodes).value =
    Text.joinWords (nodes.map fun node => (node.speech w).value) := by
  rw [← value_speeches]
  rfl

theorem notices_speechAll :
    (speechAll w nodes).notices = nodes.flatMap fun node => (node.speech w).notices := by
  rw [← notices_speeches]
  exact List.append_nil _

theorem value_leaf (content : Leaf) : (w.leaf content).value = w.fragment content := by
  cases content <;> rfl

variable (markup : Option String) (hints : Hints)

theorem value_speech_pair (op : Pairing) (first second : Node) :
    ((Node.pair op first second markup hints).speech w).value =
      Text.joinWords [(first.speech w).value, w.between op, (second.speech w).value] := rfl

theorem notices_speech_pair (op : Pairing) (first second : Node) :
    ((Node.pair op first second markup hints).speech w).notices =
      (first.speech w).notices ++ (second.speech w).notices := by
  simp [Node.speech]

theorem speech_run (form : Sequence) (children : List Node) :
    (Node.run form children markup hints).speech w = speechAll w children := by
  rw [Node.speech, speechAll]

end Speech

/-! ## Questions -/

section Question

variable (l : LatexSettings) (w : SpeechSettings) (q : Question)

theorem value_compute : (Rendering.compute l w q).value =
    ⟨groupSpans q.nodes, q.nodes.map fun node => (node.latex l).value,
      q.nodes.map fun node => (node.speech w).value⟩ := by
  rw [← value_latexes, ← value_speeches]
  rfl

theorem notices_compute : (Rendering.compute l w q).notices =
    (q.nodes.flatMap fun node => (node.latex l).notices) ++
      q.nodes.flatMap fun node => (node.speech w).notices := by
  rw [← notices_latexes, ← notices_speeches]
  exact congrArg _ (List.append_nil _)

end Question

/-! ## Nested speech and flat speech -/

/-- The text is read out of these fragments: those that are not blank, trimmed and one space apart.
So it neither begins nor ends with a blank, and it is empty exactly if every fragment is blank. -/
structure ReadOut (fragments : List String) (spoken : String) : Prop where
  flat : spoken = " ".intercalate ((fragments.filter (!Text.blankOnly ·)).map Text.trim)
  tight : Text.Tight spoken
  silent : spoken = "" ↔ ∀ f ∈ fragments, Text.blankOnly f = true

theorem readOut_joinWords (fragments : List String) :
    ReadOut fragments (Text.joinWords fragments) where
  flat := Text.joinWords_eq_intercalate fragments
  tight := Text.tight_joinWords fragments
  silent := Text.joinWords_eq_empty_iff

section Speech

variable {w : SpeechSettings}

theorem joinWords_map_speech {nodes : List Node} (h : ∀ node ∈ nodes,
      Text.joinWords [(node.speech w).value] = Text.joinWords (node.fragments w)) :
    Text.joinWords (nodes.map fun node => (node.speech w).value) =
      Text.joinWords (fragmentsAll w nodes) := by
  induction nodes with
  | nil => rfl
  | cons node nodes ih =>
    obtain ⟨hnode, hnodes⟩ := List.forall_mem_cons.1 h
    rw [List.map_cons, fragmentsAll]
    exact Text.joinWords_cons_congr hnode (ih hnodes)

theorem joinWords_speech (node : Node) :
    Text.joinWords [(node.speech w).value] = Text.joinWords (node.fragments w) := by
  -- an inner node is joined already, so joining it alone changes nothing
  induction node using Node.induction with
  | leaf content hints => rw [Node.speech, value_leaf, Node.fragments]
  | pair op first second markup hints ih₁ ih₂ =>
    rw [value_speech_pair, Text.joinWords_joinWords, Node.fragments]
    have hrest : Text.joinWords [w.between op, (second.speech w).value] =
        Text.joinWords ([w.between op] ++ second.fragments w) := Text.joinWords_cons_congr rfl ih₂
    exact Text.joinWords_cons_congr ih₁ hrest
  | run form children markup hints ih =>
    rw [speech_run, value_speechAll, Text.joinWords_joinWords, joinWords_map_speech ih,
      Node.fragments]

theorem readOut_pair (op : Pairing) (first second : Node) (markup : Option String)
    (hints : Hints) : ReadOut ((Node.pair op first second markup hints).fragments w)
      ((Node.pair op first second markup hints).speech w).value := by
  have hspeech := joinWords_speech (w := w) (.pair op first second markup hints)
  rw [value_speech_pair, Text.joinWords_joinWords, ← value_speech_pair] at hspeech
  rw [hspeech]
  exact readOut_joinWords _

theorem readOut_run (form : Sequence) (children : List Node) (markup : Option String)
    (hints : Hints) : ReadOut ((Node.run form children markup hints).fragments w)
      ((Node.run form children markup hints).speech w).value := by
  rw [speech_run, value_speechAll, joinWords_map_speech fun child _ => joinWords_speech child]
  exact readOut_joinWords _

end Speech

/-- **Nested speech is flat speech.** Pairs, sequences and questions are read out of all fragments
of their trees at once, so blank ones leave no gap. -/
theorem speech_flat (w : SpeechSettings) :
    (∀ op first second markup hints,
      let node := Node.pair op first second markup hints
      ReadOut (node.fragments w) (node.speech w).value) ∧
    (∀ form children markup hints,
      let node := Node.run form children markup hints
      ReadOut (node.fragments w) (node.speech w).value) ∧
    ∀ q : Question, ReadOut (fragmentsAll w q.nodes) (q.speech w).value := by
  refine ⟨readOut_pair, readOut_run, fun q => ?_⟩
  rw [Question.speech, value_speechAll, joinWords_map_speech fun node _ => joinWords_speech node]
  exact readOut_joinWords _

/-- A word of blanks between the parts is not heard, nor is the space around another one. -/
example :
    let w : SpeechSettings := ⟨"\t", " to the power ", "blank"⟩
    let x : Node := .leaf (.text "\u2003x") .default
    let unknown : Node := .leaf (.unrecognized "chart") .default
    let power : Node := .pair .exponent x unknown none .default
    ((Node.pair .fraction power x (some "m") .default).speech w).value = "x to the power x" := by
  decide +kernel

end MathQuiz
