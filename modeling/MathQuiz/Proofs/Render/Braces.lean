import MathQuiz.Proofs.Expr.Trees
import MathQuiz.Proofs.Render.Composition

/-!
# Balanced braces in LaTeX

LaTeX is read from left to right; a backslash makes the next character literal, and the other braces
open and close. What a rendering adds to the texts of an author keeps their braces balanced.

* `Nesting`, `Nesting.step`, `scan`: how far braces are nested behind each character;
* `Balanced`: as many braces are closed as opened, none too early, and no backslash is left over;
* `Balanced.append`, `Balanced.braced`: balanced texts in a row and in braces;
* `balanced_escapeText`: no identifier breaks the braces around it;
* `LatexSettings.KeepsBraces`: words that break no braces, such as those by default;
* **`latex_balanced`**: the LaTeX of balanced texts and markup is balanced.
-/

namespace MathQuiz

/-! ## Reading braces -/

/-- How many braces are open, and whether the next character is literal. -/
structure Nesting where
  depth : Nat
  literal : Bool
  deriving DecidableEq

/-- The nesting behind one more character, unless it closes a brace that was not opened. -/
def Nesting.step (s : Nesting) (c : Char) : Option Nesting :=
  if s.literal then some ⟨s.depth, false⟩
  else if c = '\\' then some ⟨s.depth, true⟩
  else if c = '{' then some ⟨s.depth + 1, false⟩
  else if c = '}' then (if s.depth = 0 then none else some ⟨s.depth - 1, false⟩)
  else some ⟨s.depth, false⟩

/-- The nesting behind some more characters. -/
def scan (s : Nesting) (cs : List Char) : Option Nesting := cs.foldlM Nesting.step s

/-- The braces of a text are balanced, and no backslash stands at its end. -/
def Balanced (s : String) : Prop := scan ⟨0, false⟩ s.toList = some ⟨0, false⟩

instance : DecidablePred Balanced := fun s => by unfold Balanced; infer_instance

theorem scan_append (s : Nesting) (as bs : List Char) :
    scan s (as ++ bs) = scan s as >>= (scan · bs) := List.foldlM_append

theorem scan_cons (s : Nesting) (c : Char) (cs : List Char) :
    scan s (c :: cs) = s.step c >>= (scan · cs) := rfl

theorem scan_singleton (s : Nesting) (c : Char) : scan s [c] = s.step c := by
  rw [scan_cons]
  exact Option.bind_fun_some _

theorem step_add {s t : Nesting} {c : Char} (h : s.step c = some t) (n : Nat) :
    Nesting.step ⟨s.depth + n, s.literal⟩ c = some ⟨t.depth + n, t.literal⟩ := by
  unfold Nesting.step at h ⊢
  split_ifs at h ⊢ <;> grind

theorem scan_add {s t : Nesting} {cs : List Char} (h : scan s cs = some t) (n : Nat) :
    scan ⟨s.depth + n, s.literal⟩ cs = some ⟨t.depth + n, t.literal⟩ := by
  induction cs generalizing s with
  | nil =>
    obtain rfl : s = t := Option.some.inj h
    rfl
  | cons c cs ih =>
    obtain ⟨u, hstep, hscan⟩ := Option.bind_eq_some_iff.1 h
    rw [scan_cons, step_add hstep n]
    exact ih hscan

theorem Balanced.scan_eq {s : String} (h : Balanced s) (depth : Nat) :
    scan ⟨depth, false⟩ s.toList = some ⟨depth, false⟩ := by
  have hadd := scan_add h depth
  rwa [Nat.zero_add] at hadd

/-! ## Balanced texts -/

theorem Balanced.append {s t : String} (hs : Balanced s) (ht : Balanced t) : Balanced (s ++ t) := by
  rw [Balanced, String.toList_append, scan_append, hs]
  exact ht

theorem Balanced.braced {s : String} (h : Balanced s) : Balanced (braced s) := by
  have hopen : scan ⟨0, false⟩ "\x7b".toList = some ⟨1, false⟩ := rfl
  rw [Balanced, MathQuiz.braced, String.toList_append, String.toList_append, scan_append,
    scan_append, hopen, Option.bind_eq_bind, Option.bind_some, h.scan_eq]
  rfl

theorem balanced_join {texts : List String} (h : ∀ s ∈ texts, Balanced s) :
    Balanced (String.join texts) := by
  induction texts with
  | nil => rfl
  | cons s texts ih =>
    obtain ⟨hs, htexts⟩ := List.forall_mem_cons.1 h
    rw [String.join_cons]
    exact hs.append (ih htexts)

theorem scan_escapeChar (depth : Nat) (c : Char) :
    scan ⟨depth, false⟩ (escapeChar c) = some ⟨depth, false⟩ := by
  unfold escapeChar
  split_ifs with hbackslash htilde hcaret hspecial
  · rfl
  · rfl
  · rfl
  · rfl
  · have hopen : c ≠ '{' := by rintro rfl; exact hspecial (by decide)
    have hclose : c ≠ '}' := by rintro rfl; exact hspecial (by decide)
    simp [scan, Nesting.step, hbackslash, hopen, hclose]

theorem balanced_escapeText (s : String) : Balanced (escapeText s) := by
  rw [Balanced, escapeText, String.toList_ofList]
  induction s.toList with
  | nil => rfl
  | cons c cs ih => rw [List.flatMap_cons, scan_append, scan_escapeChar]; exact ih

/-! ## Balanced LaTeX -/

theorem balanced_pair {first second : String} (op : Pairing) (h₁ : Balanced first)
    (h₂ : Balanced second) : Balanced (op.latex first second) := by
  cases op with
  | fraction =>
    have hfrac : Balanced "\\frac" := by decide
    exact (hfrac.append h₁.braced).append h₂.braced
  | exponent =>
    have hcaret : Balanced "^" := by decide
    exact (h₁.braced.append hcaret).append h₂.braced

theorem balanced_latexAll {w : LatexSettings} {nodes : List Node}
    (h : ∀ node ∈ nodes, Balanced (node.latex w).value) :
    Balanced (latexAll w nodes).value := by
  rw [value_latexAll]
  exact balanced_join (List.forall_mem_map.2 h)

/-- Words of a rendering that break no braces. The word for a multiplication sign may follow a
backslash of the author, so it must leave every nesting where the sign itself does. -/
structure LatexSettings.KeepsBraces (w : LatexSettings) : Prop where
  times : ∀ s, scan s w.timesToken.toList = s.step w.multiplicationSign
  displayed : ∀ {markup}, Balanced markup → Balanced (w.displayOpen ++ markup ++ w.displayClose)
  rich : Balanced w.richPlaceholder

theorem keepsBraces_default : LatexSettings.default.KeepsBraces where
  times := by
    rintro ⟨depth, literal⟩
    -- behind a backslash it is the backslash of the word that is literal
    cases literal <;> rfl
  displayed {markup} h := by
    have hopen : Balanced "\\[" := by decide
    have hclose : Balanced "\\]" := by decide
    exact (hopen.append h).append hclose
  rich := by decide

namespace LatexSettings

variable {w : LatexSettings} (hw : w.KeepsBraces)

include hw

theorem scan_text (s : Nesting) (content : String) :
    scan s (w.text content).toList = scan s content.toList := by
  rw [text, String.toList_ofList]
  induction content.toList generalizing s with
  | nil => rfl
  | cons c cs ih =>
    have hone : scan s (if c = w.multiplicationSign then w.timesToken.toList else [c]) =
        s.step c := by
      split
      · next hsign => rw [hw.times, hsign]
      · exact scan_singleton s c
    rw [List.flatMap_cons, scan_append, hone, scan_cons]
    exact congrArg _ (funext fun t => ih t)

end LatexSettings

/-- What is written in the node itself is balanced: the content of a text or a number, and the
markup of an inner node. -/
def Node.Tidy : Node → Prop
  | .leaf (.text content) _ | .leaf (.decimal content) _ => Balanced content
  | .leaf (.input _) _ | .leaf (.rich _) _ | .leaf (.unrecognized _) _ => True
  | .pair _ _ _ markup _ | .run _ _ markup _ => ∀ m ∈ markup, Balanced m

instance : DecidablePred Node.Tidy
  | .leaf (.text content) _ | .leaf (.decimal content) _ =>
    inferInstanceAs (Decidable (Balanced content))
  | .leaf (.input _) _ | .leaf (.rich _) _ | .leaf (.unrecognized _) _ => .isTrue trivial
  | .pair _ _ _ markup _ | .run _ _ markup _ =>
    inferInstanceAs (Decidable (∀ m ∈ markup, Balanced m))

section Latex

variable {w : LatexSettings} (hw : w.KeepsBraces)

include hw

theorem balanced_leaf {content : Leaf} {hints : Hints} (h : (Node.leaf content hints).Tidy) :
    Balanced (w.leaf content).value := by
  cases content with
  | text content =>
    rw [LatexSettings.leaf, Logged.value_pure, Balanced, LatexSettings.scan_text hw]
    exact h
  | decimal content => exact h
  | input slot =>
    have hboxed : Balanced "\\boxed" := by decide
    have htext : Balanced "\\text" := by decide
    exact hboxed.append (htext.append (balanced_escapeText slot.id).braced).braced
  | rich payload => exact hw.rich
  | unrecognized kind => rfl

theorem balanced_displayed {markup : String} (form : Sequence) (h : Balanced markup) :
    Balanced (w.displayed form markup) := by
  cases form with
  | algebraic => exact h
  | equation => exact hw.displayed h

theorem balanced_latex {node : Node} (h : ∀ n ∈ node.preorder, n.Tidy) :
    Balanced (node.latex w).value := by
  induction node using Node.induction with
  | leaf content hints => exact balanced_leaf hw (Node.forall_mem_preorder.1 h).1
  | pair op first second markup hints ih₁ ih₂ =>
    obtain ⟨hself, hbelow⟩ := Node.forall_mem_preorder.1 h
    cases markup with
    | some markup => exact hself markup rfl
    | none =>
      have hfirst := ih₁ (hbelow first (by simp [Node.children]))
      have hsecond := ih₂ (hbelow second (by simp [Node.children]))
      exact balanced_pair op hfirst hsecond
  | run form children markup hints ih =>
    obtain ⟨hself, hbelow⟩ := Node.forall_mem_preorder.1 h
    cases markup with
    | some markup => exact balanced_displayed hw form (hself markup rfl)
    | none => exact balanced_latexAll fun child hchild => ih child hchild (hbelow child hchild)

end Latex

/-- **LaTeX keeps braces balanced,** if the texts, numbers and markup of a tree are, whatever its
identifiers and rich contents. -/
theorem latex_balanced :
    (∀ root : Node, (∀ node ∈ root.preorder, node.Tidy) →
      Balanced (root.latex .default).value) ∧
    ∀ q : Question, (∀ root ∈ q.nodes, ∀ node ∈ root.preorder, node.Tidy) →
      Balanced (q.latex .default).value := by
  refine ⟨fun root h => balanced_latex keepsBraces_default h, fun q h => ?_⟩
  exact balanced_latexAll fun root hroot => balanced_latex keepsBraces_default (h root hroot)

/-- A sign behind a backslash, and braces in an identifier, in rich content and at the end of
markup. -/
theorem latex_balanced_behind_backslash :
    let text (content : String) : Node := .leaf (.text content) .default
    let slot : Node := .leaf (.input ⟨"\x7d\\", "1"⟩) .default
    let marked : Node := .run .equation [text "a"] (some "x\\\x7d") .default
    let root : Node := .pair .fraction (text "\\*\x7b\x7d")
      (.run .algebraic [slot, .leaf (.rich "\x7d") .default, marked] none .default) none .default
    ((∀ node ∈ root.preorder, node.Tidy) ∧ Balanced (root.latex .default).value) ∧
      (∀ node ∈ [root, slot].flatMap Node.preorder, node.Tidy) ∧
      Balanced (Question.latex .default ⟨[root, slot]⟩).value := by
  intro text slot marked root
  have hroot : ∀ node ∈ root.preorder, node.Tidy := by decide +kernel
  have hslot : ∀ node ∈ slot.preorder, node.Tidy := by decide +kernel
  have hall : ∀ root' ∈ [root, slot], ∀ node ∈ root'.preorder, node.Tidy := by
    simpa using ⟨hroot, hslot⟩
  refine ⟨⟨hroot, latex_balanced.1 root hroot⟩, List.forall_mem_flatMap.2 hall, ?_⟩
  exact latex_balanced.2 ⟨[root, slot]⟩ hall

end MathQuiz
