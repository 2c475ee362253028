import MathQuiz.Render.Rendering
import Mathlib.Data.List.Chain
import Mathlib.Data.List.Basic

/-!
# Which groups the nodes of a question make

The groups are ranges of positions that follow each other without gaps. Where they end and in which
direction they run is said here node by node, and there is only one way to do it.

* `EndsGroup`, `directionBehind`: whether a group ends with a node, and how the next one runs;
* `Laid`: what the groups of a list of nodes are;
* `laid_groupSpans`, `Laid.unique`: the spans computed are such groups, and there are no others;
* `Laid.flatMap_resolve`: the groups make up the nodes again;
* **`layout_determined`**: the layout of questions and of their renderings.
-/

namespace MathQuiz

/-- A group ends with the node at this position: it stands on a new line, it breaks after itself, or
it is the last one. -/
def EndsGroup (nodes : List Node) (i : Nat) : Prop :=
  ∃ node ∈ nodes[i]?, node.hints.placement = .newLine ∨ node.hints.continuation = .breakAfter ∨
    i + 1 = nodes.length

/-- The direction of a group whose predecessor ends in front of this position. -/
def directionBehind (nodes : List Node) (stop : Nat) : Direction :=
  if nodes[stop - 1]?.any (·.hints.placement = .newLine) then .column else .row

/-- The second group comes next behind the first one. -/
def Follows (nodes : List Node) (s t : Span) : Prop :=
  t.start = s.stop ∧ t.direction = directionBehind nodes s.stop

/-- These are the groups of the nodes: ranges, none of them empty, that follow each other from the
first node to the last and end where groups end, each in the direction that the last node of the
one before asks for. -/
structure Laid (nodes : List Node) (spans : List Span) : Prop where
  nonempty : ∀ s ∈ spans, s.start < s.stop
  first : ∀ s ∈ spans.head?, s.start = 0 ∧ s.direction = .row
  next : spans.IsChain (Follows nodes)
  last : ∀ s ∈ spans.getLast?, s.stop = nodes.length
  ends : ∀ i, (∃ s ∈ spans, s.stop = i + 1) ↔ EndsGroup nodes i

theorem closes_iff {h : Hints} :
    h.closes = true ↔ h.placement = .newLine ∨ h.continuation = .breakAfter := by
  simp [Hints.closes]

/-! ## The spans computed -/

/-- What holds of the groups from position `index` on, the first of them begun at `start`. -/
structure LaidFrom (nodes : List Node) (direction : Direction) (start index : Nat)
    (spans : List Span) : Prop where
  nonempty : ∀ s ∈ spans, s.start < s.stop
  first : ∀ s ∈ spans.head?, s.start = start ∧ s.direction = direction
  next : spans.IsChain (Follows nodes)
  ends : ∀ k, (∃ s ∈ spans, s.stop = k) ↔ ∃ i, index ≤ i ∧ k = i + 1 ∧ EndsGroup nodes i

section Step

variable {nodes : List Node} {direction : Direction} {start index : Nat} {spans : List Span}

theorem LaidFrom.skip (hopen : ¬ EndsGroup nodes index)
    (h : LaidFrom nodes direction start (index + 1) spans) :
    LaidFrom nodes direction start index spans where
  nonempty := h.nonempty
  first := h.first
  next := h.next
  ends k := by
    rw [h.ends]
    constructor
    · rintro ⟨i, hle, hk, hends⟩
      exact ⟨i, by omega, hk, hends⟩
    · rintro ⟨i, hle, hk, hends⟩
      have hne : index ≠ i := by
        rintro rfl
        exact hopen hends
      exact ⟨i, by omega, hk, hends⟩

theorem LaidFrom.close (hstart : start ≤ index) (hends : EndsGroup nodes index)
    (h : LaidFrom nodes (directionBehind nodes (index + 1)) (index + 1) (index + 1) spans) :
    LaidFrom nodes direction start index (⟨direction, start, index + 1⟩ :: spans) where
  nonempty := List.forall_mem_cons.2 ⟨Nat.lt_succ_of_le hstart, h.nonempty⟩
  first := by
    rintro s ⟨⟩
    exact ⟨rfl, rfl⟩
  next := List.isChain_cons.2 ⟨fun t ht => h.first t ht, h.next⟩
  ends k := by
    rw [List.exists_mem_cons_iff, h.ends]
    constructor
    · rintro (rfl | ⟨i, hle, hk, hi⟩)
      · exact ⟨index, le_rfl, rfl, hends⟩
      · exact ⟨i, by omega, hk, hi⟩
    · rintro ⟨i, hle, rfl, hi⟩
      rcases hle.eq_or_lt with rfl | hlt
      · exact .inl rfl
      · exact .inr ⟨i, hlt, rfl, hi⟩

end Step

section Split

variable {before rest : List Node} {node : Node}

theorem getElem?_split : (before ++ node :: rest)[before.length]? = some node := by
  simp

theorem endsGroup_split : EndsGroup (before ++ node :: rest) before.length ↔
    (node.hints.closes || rest.isEmpty) = true := by
  have hlast : before.length + 1 = (before ++ node :: rest).length ↔ rest = [] := by
    rw [List.length_append, List.length_cons, ← List.length_eq_zero_iff]
    omega
  simp only [EndsGroup, getElem?_split, hlast, Option.mem_some_iff, exists_eq_left', closes_iff,
    Bool.or_eq_true, List.isEmpty_iff, or_assoc]

theorem directionBehind_split :
    directionBehind (before ++ node :: rest) (before.length + 1) = node.hints.next := by
  rw [directionBehind, Nat.add_sub_cancel, getElem?_split, Hints.next, Option.any_some]
  cases node.hints.placement <;> rfl

end Split

theorem laidFrom_spansFrom (before rest : List Node) (direction : Direction) {start : Nat}
    (h : start ≤ before.length) : LaidFrom (before ++ rest) direction start before.length
      (spansFrom direction start before.length rest) := by
  -- on the nodes still to come; those before stay in the list, so that positions do not shift
  induction rest generalizing before direction start with
  | nil =>
    have hnone : ∀ k, ¬ ∃ i, before.length ≤ i ∧ k = i + 1 ∧ EndsGroup (before ++ []) i := by
      rintro k ⟨i, hle, -, node, hnode, -⟩
      rw [List.append_nil, List.getElem?_eq_none hle] at hnode
      cases hnode
    exact ⟨by simp [spansFrom], by simp [spansFrom], .nil, by simpa [spansFrom] using hnone⟩
  | cons node rest ih =>
    have hrest : ∀ direction start, start ≤ before.length + 1 →
        LaidFrom (before ++ node :: rest) direction start (before.length + 1)
          (spansFrom direction start (before.length + 1) rest) := by
      intro direction start hstart
      simpa using ih (before ++ [node]) direction (by simpa using hstart)
    rw [spansFrom]
    split
    · next hcloses =>
      refine .close h (endsGroup_split.2 hcloses) ?_
      rw [directionBehind_split]
      exact hrest _ _ le_rfl
    · next hopen =>
      exact .skip (fun hends => hopen (endsGroup_split.1 hends)) (hrest _ _ (by omega))

/-! ## Determination -/

theorem EndsGroup.lt {nodes : List Node} {i : Nat} (h : EndsGroup nodes i) : i < nodes.length := by
  obtain ⟨node, hnode, -⟩ := h
  exact (List.getElem?_eq_some_iff.1 hnode).1

theorem endsGroup_last {nodes : List Node} {i : Nat} (h : i + 1 = nodes.length) :
    EndsGroup nodes i :=
  ⟨nodes[i], List.getElem?_eq_getElem (by omega), .inr (.inr h)⟩

section Spans

variable {nodes : List Node} {spans as bs : List Span}

theorem stops_sorted (hnonempty : ∀ s ∈ spans, s.start < s.stop)
    (hnext : spans.IsChain (Follows nodes)) : (spans.map Span.stop).Pairwise (· < ·) := by
  rw [← List.isChain_iff_pairwise, List.isChain_map]
  induction spans with
  | nil => exact .nil
  | cons s spans ih =>
    obtain ⟨hfollows, hchain⟩ := List.isChain_cons.1 hnext
    obtain ⟨-, hrest⟩ := List.forall_mem_cons.1 hnonempty
    refine List.isChain_cons.2 ⟨fun t ht => ?_, ih hrest hchain⟩
    have hlt := hrest t (List.mem_of_mem_head? ht)
    rwa [(hfollows t ht).1] at hlt

/-- Groups that follow each other are told by where they end and how the first one begins. -/
theorem eq_of_stops (has : as.IsChain (Follows nodes)) (hbs : bs.IsChain (Follows nodes))
    (hfirst : ∀ s ∈ as.head?, ∀ t ∈ bs.head?, s.start = t.start ∧ s.direction = t.direction)
    (hstops : as.map Span.stop = bs.map Span.stop) : as = bs := by
  induction as generalizing bs with
  | nil => exact (List.map_eq_nil_iff.1 hstops.symm).symm
  | cons s as ih =>
    obtain ⟨t, bs, rfl, hstop, hrest⟩ := List.map_eq_cons_iff.1 hstops.symm
    obtain ⟨hstart, hdirection⟩ := hfirst s rfl t rfl
    obtain rfl : s = t := by
      cases s
      cases t
      simp_all
    obtain ⟨hnext, has⟩ := List.isChain_cons.1 has
    obtain ⟨hnext', hbs⟩ := List.isChain_cons.1 hbs
    rw [ih has hbs (fun u hu v hv => ?_) hrest.symm]
    have hu := hnext u hu
    have hv := hnext' v hv
    exact ⟨hu.1.trans hv.1.symm, hu.2.trans hv.2.symm⟩

theorem Laid.mem_stops (h : Laid nodes spans) {k : Nat} :
    k ∈ spans.map Span.stop ↔ ∃ i, k = i + 1 ∧ EndsGroup nodes i := by
  rw [List.mem_map]
  constructor
  · rintro ⟨s, hs, rfl⟩
    have hpos := h.nonempty s hs
    have hstop : s.stop = s.stop - 1 + 1 := by omega
    exact ⟨s.stop - 1, hstop, (h.ends _).1 ⟨s, hs, hstop⟩⟩
  · rintro ⟨i, rfl, hends⟩
    exact (h.ends i).2 hends

/-- There is only one way to lay out nodes. -/
theorem Laid.unique (ha : Laid nodes as) (hb : Laid nodes bs) : as = bs := by
  have hsorted := stops_sorted ha.nonempty ha.next
  have hsorted' := stops_sorted hb.nonempty hb.next
  have hperm : (as.map Span.stop).Perm (bs.map Span.stop) := by
    refine (List.perm_ext_iff_of_nodup (hsorted.imp Nat.ne_of_lt) (hsorted'.imp Nat.ne_of_lt)).2 ?_
    intro k
    rw [ha.mem_stops, hb.mem_stops]
  -- the same stops in increasing order leave no choice
  refine eq_of_stops ha.next hb.next (fun s hs t ht => ?_)
    (hperm.eq_of_pairwise (fun a b _ _ hab hba => absurd hab (Nat.lt_asymm hba)) hsorted hsorted')
  obtain ⟨hstart, hdirection⟩ := ha.first s hs
  obtain ⟨hstart', hdirection'⟩ := hb.first t ht
  exact ⟨hstart.trans hstart'.symm, hdirection.trans hdirection'.symm⟩

end Spans

theorem stop_le_last {spans : List Span} {s t : Span}
    (hsorted : (spans.map Span.stop).Pairwise (· < ·)) (hs : s ∈ spans.getLast?) (ht : t ∈ spans) :
    t.stop ≤ s.stop := by
  rw [← List.dropLast_append_getLast? s hs] at hsorted ht
  rcases List.mem_append.1 ht with hbefore | hself
  · rw [List.map_append, List.pairwise_append] at hsorted
    obtain ⟨-, -, hlt⟩ := hsorted
    exact Nat.le_of_lt (hlt _ (List.mem_map_of_mem hbefore) _ (by simp))
  · rw [List.mem_singleton.1 hself]

theorem laid_groupSpans (nodes : List Node) : Laid nodes (groupSpans nodes) := by
  obtain ⟨hnonempty, hfirst, hnext, hends⟩ := laidFrom_spansFrom [] nodes .row le_rfl
  refine ⟨hnonempty, hfirst, hnext, fun s hs => ?_, fun i => ?_⟩
  · -- some span stops behind the last node, and the last span does not stop earlier
    obtain ⟨i, -, hstop, hi⟩ := (hends s.stop).1 ⟨s, List.mem_of_getLast? hs, rfl⟩
    have hlt : i < nodes.length := hi.lt
    have hlast : nodes.length = nodes.length - 1 + 1 := by omega
    obtain ⟨t, ht, htstop⟩ := (hends nodes.length).2
      ⟨nodes.length - 1, Nat.zero_le _, hlast, endsGroup_last hlast.symm⟩
    have hle := stop_le_last (stops_sorted hnonempty hnext) hs ht
    omega
  · refine (hends (i + 1)).trans ⟨?_, fun h => ⟨i, Nat.zero_le i, rfl, h⟩⟩
    rintro ⟨j, -, hj, h⟩
    obtain rfl : i = j := Nat.succ.inj hj
    exact h

theorem laid_iff {nodes : List Node} {spans : List Span} :
    Laid nodes spans ↔ spans = groupSpans nodes := by
  constructor
  · exact fun h => h.unique (laid_groupSpans nodes)
  · rintro rfl
    exact laid_groupSpans nodes

/-! ## Groups with their nodes -/

section Resolve

variable {nodes : List Node} {spans : List Span}

theorem Laid.stop_le (h : Laid nodes spans) {s : Span} (hs : s ∈ spans) :
    s.stop ≤ nodes.length := by
  obtain ⟨i, hstop, hends⟩ := h.mem_stops.1 (List.mem_map_of_mem hs)
  rw [hstop]
  exact hends.lt

theorem flatMap_resolve_from (hnonempty : ∀ s ∈ spans, s.start < s.stop)
    (hnext : spans.IsChain (Follows nodes)) (hlast : ∀ s ∈ spans.getLast?, s.stop = nodes.length)
    {s : Span} (hs : s ∈ spans.head?) :
    (spans.flatMap fun s => (s.resolve nodes).nodes) = nodes.drop s.start := by
  induction spans generalizing s with
  | nil => cases hs
  | cons first spans ih =>
    obtain rfl : first = s := by simpa using hs
    obtain ⟨hlt, hrest⟩ := List.forall_mem_cons.1 hnonempty
    obtain ⟨hfollows, hchain⟩ := List.isChain_cons.1 hnext
    -- what is left behind the first group
    have hbehind : (spans.flatMap fun s => (s.resolve nodes).nodes) = nodes.drop first.stop := by
      cases spans with
      | nil =>
        rw [hlast first rfl, List.drop_length]
        rfl
      | cons second spans =>
        rw [← (hfollows second rfl).1]
        exact ih hrest hchain hlast rfl
    have hdrop : nodes.drop first.stop =
        (nodes.drop first.start).drop (first.stop - first.start) := by
      rw [List.drop_drop, Nat.add_sub_cancel' (Nat.le_of_lt hlt)]
    rw [List.flatMap_cons, hbehind, hdrop, Span.resolve, List.take_append_drop]

theorem Laid.flatMap_resolve (h : Laid nodes spans) :
    (spans.flatMap fun s => (s.resolve nodes).nodes) = nodes := by
  cases hspans : spans.head? with
  | some s =>
    rw [flatMap_resolve_from h.nonempty h.next h.last hspans, (h.first s hspans).1, List.drop_zero]
  | none =>
    obtain rfl := List.head?_eq_none_iff.1 hspans
    cases hlength : nodes.length with
    | zero => exact (List.length_eq_zero_iff.1 hlength).symm
    | succ n =>
      obtain ⟨s, hs, -⟩ := (h.ends n).2 (endsGroup_last hlength.symm)
      cases hs

end Resolve

/-- **The layout is determined.** The spans of some nodes are the only ones laid out by the rules,
they make up the nodes again, and a rendering has the same groups. -/
theorem layout_determined :
    (∀ nodes spans, Laid nodes spans ↔ spans = groupSpans nodes) ∧
    groupSpans [] = [] ∧
    (∀ nodes, ∀ s ∈ groupSpans nodes, s.start < s.stop ∧ s.stop ≤ nodes.length) ∧
    ∀ q : Question, q.groups.flatMap LayoutGroup.nodes = q.nodes ∧
      ∀ l w, (Rendering.compute l w q).value.groups q = q.groups := by
  refine ⟨fun nodes spans => laid_iff, rfl, fun nodes s hs => ?_, fun q => ⟨?_, fun l w => rfl⟩⟩
  · have hlaid := laid_groupSpans nodes
    exact ⟨hlaid.nonempty s hs, hlaid.stop_le hs⟩
  · rw [Question.groups, List.flatMap_map]
    exact (laid_groupSpans q.nodes).flatMap_resolve

/-- A column behind a node on a new line, and a row again behind a break in the line. -/
example :
    let node (hints : Hints) : Node := .leaf (.text "") hints
    groupSpans [node .default, node ⟨.newLine, .breakAfter⟩, node ⟨.inline, .breakAfter⟩,
      node .default] = [⟨.row, 0, 2⟩, ⟨.column, 2, 3⟩, ⟨.row, 3, 4⟩] := by
  decide

end MathQuiz
