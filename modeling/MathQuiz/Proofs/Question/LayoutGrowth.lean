import MathQuiz.Proofs.Question.Layout
import MathQuiz.Proofs.Question.Rules

/-!
# How the layout grows

The layout is made in one pass, and the last node ends its group only because no other one follows.
With one more node at the end, the pass goes the same way up to there. So a group is added, or the
last one gets longer, and how the new node asks to be laid out plays no part.

* `Pass`, `Pass.step`: what the pass has made so far, and one node more;
* `append_spansFrom`: the groups from the pass over all nodes but the last one;
* `groupSpans_push_of_closes`, `groupSpans_push_of_open`: one node more at the end;
* **`Question.spans_of_append`**: the layout after a draft is appended.
-/

namespace MathQuiz

/-- The pass over some nodes: the groups that have ended, and where and in which direction the next
one was begun. There are `stop` nodes so far. -/
structure Pass where
  ended : List Span
  direction : Direction
  start : Nat
  stop : Nat

namespace Pass

/-- The pass in front of the first node. -/
def init : Pass := ⟨[], .row, 0, 0⟩

/-- The group begun, together with one node more. -/
def current (p : Pass) : Span := ⟨p.direction, p.start, p.stop + 1⟩

/-- The groups, if only one node is left. -/
def finish (p : Pass) : List Span := p.ended ++ [p.current]

/-- The pass after one node more, which is not the last one. -/
def step (p : Pass) (node : Node) : Pass :=
  if node.hints.closes then ⟨p.finish, node.hints.next, p.stop + 1, p.stop + 1⟩
  else { p with stop := p.stop + 1 }

/-- The pass over some nodes, when others follow. -/
def across (p : Pass) (nodes : List Node) : Pass := nodes.foldl step p

variable {p : Pass} {node : Node}

theorem step_of_closes (h : node.hints.closes = true) :
    p.step node = ⟨p.finish, node.hints.next, p.stop + 1, p.stop + 1⟩ :=
  if_pos h

theorem step_of_open (h : node.hints.closes = false) :
    p.step node = { p with stop := p.stop + 1 } :=
  if_neg (Bool.eq_false_iff.1 h)

theorem stop_step : (p.step node).stop = p.stop + 1 := by
  unfold step
  split <;> rfl

theorem across_concat (nodes : List Node) :
    p.across (nodes ++ [node]) = (p.across nodes).step node := by
  rw [across, List.foldl_concat]
  rfl

theorem stop_across (p : Pass) (nodes : List Node) :
    (p.across nodes).stop = p.stop + nodes.length := by
  induction nodes generalizing p with
  | nil => rfl
  | cons head nodes ih =>
    change ((p.step head).across nodes).stop = _
    rw [ih, stop_step, List.length_cons]
    omega

theorem stop_init_across (nodes : List Node) : (init.across nodes).stop = nodes.length := by
  rw [stop_across]
  exact Nat.zero_add _

end Pass

/-- **The last node ends the group begun,** whatever it asks for, and those before it are passed. -/
theorem append_spansFrom (p : Pass) (nodes : List Node) (node : Node) :
    p.ended ++ spansFrom p.direction p.start p.stop (nodes ++ [node]) =
      (p.across nodes).finish := by
  induction nodes generalizing p with
  | nil =>
    have hlast : (node.hints.closes || ([] : List Node).isEmpty) = true := Bool.or_true _
    rw [List.nil_append, spansFrom, if_pos hlast, spansFrom]
    rfl
  | cons head nodes ih =>
    have hgoesOn : (head.hints.closes || (nodes ++ [node]).isEmpty) = head.hints.closes := by
      simp
    change _ = ((p.step head).across nodes).finish
    rw [List.cons_append, spansFrom, hgoesOn, ← ih]
    cases hcloses : head.hints.closes with
    | true =>
      rw [Pass.step_of_closes hcloses, if_pos rfl, Pass.finish, List.append_assoc]
      rfl
    | false => rw [Pass.step_of_open hcloses, if_neg Bool.false_ne_true]

theorem groupSpans_concat (nodes : List Node) (node : Node) :
    groupSpans (nodes ++ [node]) = (Pass.init.across nodes).finish :=
  append_spansFrom .init nodes node

/-! ## One node more -/

section Push

variable {nodes : List Node} {last : Node} (node : Node)

theorem groupSpans_push_of_closes (hlast : last ∈ nodes.getLast?)
    (hcloses : last.hints.closes = true) :
    groupSpans (nodes ++ [node]) =
      groupSpans nodes ++ [⟨last.hints.next, nodes.length, nodes.length + 1⟩] := by
  obtain ⟨front, rfl⟩ := List.getLast?_eq_some_iff.1 hlast
  have hpassed : Pass.init.across (front ++ [last]) =
      ⟨groupSpans (front ++ [last]), last.hints.next, (front ++ [last]).length,
        (front ++ [last]).length⟩ := by
    rw [Pass.across_concat, Pass.step_of_closes hcloses, groupSpans_concat, Pass.stop_init_across,
      List.length_append, List.length_singleton]
  rw [groupSpans_concat (front ++ [last]), hpassed]
  rfl

theorem groupSpans_push_of_open (hlast : last ∈ nodes.getLast?)
    (hopen : last.hints.closes = false) :
    ∃ ended s, groupSpans nodes = ended ++ [s] ∧
      groupSpans (nodes ++ [node]) = ended ++ [{ s with stop := nodes.length + 1 }] := by
  obtain ⟨front, rfl⟩ := List.getLast?_eq_some_iff.1 hlast
  refine ⟨_, _, groupSpans_concat front last, ?_⟩
  have hstop : (front ++ [last]).length = (Pass.init.across front).stop + 1 := by
    rw [Pass.stop_init_across, List.length_append, List.length_singleton]
  rw [groupSpans_concat, Pass.across_concat, Pass.step_of_open hopen, hstop]
  rfl

theorem dropLast_groupSpans_isPrefix_push :
    (groupSpans nodes).dropLast <+: groupSpans (nodes ++ [node]) := by
  cases hlast : nodes.getLast? with
  | none =>
    rw [List.getLast?_eq_none_iff.1 hlast]
    exact List.nil_prefix
  | some last =>
    cases hcloses : last.hints.closes with
    | true =>
      rw [groupSpans_push_of_closes node hlast hcloses]
      exact (List.dropLast_prefix _).trans (List.prefix_append _ _)
    | false =>
      obtain ⟨ended, s, hbefore, hafter⟩ := groupSpans_push_of_open node hlast hcloses
      rw [hbefore, hafter, List.dropLast_concat]
      exact List.prefix_append _ _

end Push

theorem Hints.next_eq_ite (h : Hints) :
    h.next = if h.placement = .newLine then .column else .row := by
  unfold next
  cases h.placement <;> rfl

namespace Question

variable {q q' : Question} {d : Draft}

theorem append_withHints (h : (q.append d).value = .ok q') (hints : Hints) :
    ∃ node, (q.append { d with hints := hints }).value = .ok (q.push node) := by
  obtain ⟨node, hnode, -⟩ := append_eq_ok_iff.1 h
  have hkeeps : d.Keeps q := Draft.keeps_of_node hnode
  have hkeeps' : { d with hints := hints }.Keeps q :=
    ⟨hkeeps.count, hkeeps.named, hkeeps.marked, hkeeps.decimal, hkeeps.fresh⟩
  obtain ⟨node', hnode'⟩ := Draft.keeps_iff.1 hkeeps'
  exact ⟨node', append_eq_ok_iff.2 ⟨node', hnode', rfl⟩⟩

/-- **The layout grows at its end.** A draft that is appended joins the last group or follows it by
itself, as the node before it decides, and all earlier groups stay as they are. -/
theorem spans_of_append (h : (q.append d).value = .ok q') :
    (groupSpans q.nodes).dropLast <+: groupSpans q'.nodes ∧
    (q.nodes = [] → groupSpans q'.nodes = [⟨.row, 0, 1⟩]) ∧
    (∀ last ∈ q.nodes.getLast?,
      (last.hints.placement = .newLine ∨ last.hints.continuation = .breakAfter →
        groupSpans q'.nodes = groupSpans q.nodes ++
          [⟨if last.hints.placement = .newLine then .column else .row, q.nodes.length,
            q.nodes.length + 1⟩]) ∧
      (¬ (last.hints.placement = .newLine ∨ last.hints.continuation = .breakAfter) →
        ∃ s ∈ (groupSpans q.nodes).getLast?, groupSpans q'.nodes =
          (groupSpans q.nodes).dropLast ++ [{ s with stop := q.nodes.length + 1 }])) ∧
    ∀ hints, ∃ q'', (q.append { d with hints := hints }).value = .ok q'' ∧
      groupSpans q''.nodes = groupSpans q'.nodes := by
  obtain ⟨node, hnode, rfl⟩ := append_eq_ok_iff.1 h
  refine ⟨dropLast_groupSpans_isPrefix_push node, fun hempty => ?_, fun last hlast => ⟨?_, ?_⟩,
    fun hints => ?_⟩
  · rw [push, hempty]
    exact groupSpans_concat [] node
  · intro hends
    rw [push, groupSpans_push_of_closes node hlast (closes_iff.2 hends), Hints.next_eq_ite]
  · intro hgoesOn
    have hopen : last.hints.closes = false := Bool.eq_false_iff.2 fun h => hgoesOn (closes_iff.1 h)
    obtain ⟨ended, s, hbefore, hafter⟩ := groupSpans_push_of_open node hlast hopen
    rw [hbefore, List.getLast?_concat, List.dropLast_concat]
    exact ⟨s, rfl, hafter⟩
  · obtain ⟨node', hnode'⟩ := append_withHints h hints
    refine ⟨_, hnode', ?_⟩
    rw [push, push, groupSpans_concat, groupSpans_concat]

/-- The column behind a node on a new line takes an input, even one that asks for a new line. -/
theorem spans_of_append_column :
    let q : Question := ⟨[.leaf (.text "Solve:") ⟨.newLine, .goOn⟩, .leaf (.text "x =") .default]⟩
    let d : Draft := ⟨.input, ["x", "3"], none, ⟨.newLine, .breakAfter⟩⟩
    let q' := q.push (.leaf (.input ⟨"x", "3"⟩) d.hints)
    (q.append d).value = .ok q' ∧ groupSpans q.nodes = [⟨.row, 0, 1⟩, ⟨.column, 1, 2⟩] ∧
      groupSpans q'.nodes = [⟨.row, 0, 1⟩, ⟨.column, 1, 3⟩] ∧
      ∀ hints, ∃ q'', (q.append { d with hints := hints }).value = .ok q'' ∧
        groupSpans q''.nodes = groupSpans q'.nodes := by
  intro q d q'
  have haccepted : (q.append d).value = .ok q' := by decide
  have hbefore : groupSpans q.nodes = [⟨.row, 0, 1⟩, ⟨.column, 1, 2⟩] := by decide
  obtain ⟨-, -, hlast, hhints⟩ := spans_of_append haccepted
  obtain ⟨-, hgoesOn⟩ := hlast _ rfl
  obtain ⟨s, hs, hafter⟩ := hgoesOn (by decide)
  rw [hbefore] at hs hafter
  obtain rfl : ⟨.column, 1, 2⟩ = s := Option.some.inj hs
  exact ⟨haccepted, hbefore, hafter, hhints⟩

end Question

end MathQuiz
