import MathQuiz.Question.DraftText
import MathQuiz.Proofs.Question.Queries
import MathQuiz.Proofs.Question.SaveLoad

/-!
# Authoring a question draft by draft

Drafts are offered to a question one after the other, and a refused draft leaves it as it was.

* `Node.Plain`, `Draft.newId?`: operands and tokens, and the identifier that a draft brings in;
* `Built`, `built_of_node`: all that is known of the node of an accepted draft;
* `Question.offer`, `Question.offerAll`, `Question.accepted`: drafts offered, and those accepted;
* **`Question.offerAll_in_order`**: a question grows by one node for each accepted draft, and no
  identifier is used a second time;
* **`Question.load_offerAll`**: what was loaded or begun empty and then authored can be saved.
-/

namespace MathQuiz

open Json (bind_eq_ok)

/-! ## Nodes of texts and numbers -/

/-- The node is a text or a number in line. -/
def Node.Plain (node : Node) : Prop :=
  ∃ content, node = .leaf (.text content) .default ∨ node = .leaf (.decimal content) .default

namespace Node.Plain

variable {node : Node} (h : node.Plain)
include h

theorem slots_eq : node.slots = [] := by
  obtain ⟨content, rfl | rfl⟩ := h <;> rfl

theorem depth_eq : node.depth = 0 := by
  obtain ⟨content, rfl | rfl⟩ := h <;> rfl

theorem sound : ∀ leaf ∈ node.leaves, leaf.Sound := by
  obtain ⟨content, rfl | rfl⟩ := h <;> simp [Node.leaves, Leaf.Sound]

end Node.Plain

theorem plain_operand (value : String) : (Node.operand value).Plain := by
  unfold Node.operand
  dsimp only
  split
  · exact ⟨_, .inr rfl⟩
  · exact ⟨_, .inl rfl⟩

theorem plain_tokenize (value : String) : ∀ node ∈ tokenize value, node.Plain := by
  intro node hnode
  obtain ⟨piece, -, rfl⟩ := List.mem_map.1 hnode
  unfold Node.ofToken
  dsimp only
  split
  · exact ⟨_, .inr rfl⟩
  · exact ⟨_, .inl rfl⟩

/-! ## The node of a draft -/

theorem ofList?_single {values : List String} {v : String}
    (h : Arity.ofList? .single values = some v) : values = [v] := by
  match values, h with
  | [_], rfl => rfl

theorem ofList?_dual {values : List String} {v w : String}
    (h : Arity.ofList? .dual values = some (v, w)) : values = [v, w] := by
  match values, h with
  | [_, _], rfl => rfl

theorem check_eq_ok_iff {d : Draft} {values : d.kind.arity.Values} :
    d.check = .ok values ↔ d.kind.arity.ofList? d.values = some values ∧
      (∀ v ∈ d.values, Text.blankOnly v = false) ∧ (d.markup.isSome → d.kind.acceptsMarkup) := by
  unfold Draft.check
  split
  · next hvalues => simp [hvalues]
  · next values' hvalues =>
    split
    · next i hblank =>
      have hex : ∃ v ∈ d.values, Text.blankOnly v = true := by
        obtain ⟨hi, hv, -⟩ := List.findIdx?_eq_some_iff_getElem.1 hblank
        exact ⟨_, List.getElem_mem hi, hv⟩
      obtain ⟨v, hv, hb⟩ := hex
      constructor
      · intro h
        cases h
      · rintro ⟨-, hall, -⟩
        rw [hall v hv] at hb
        cases hb
    · next hblank =>
      rw [List.findIdx?_eq_none_iff] at hblank
      split
      · next hmarkup =>
        simp only [Bool.and_eq_true, Bool.not_eq_true'] at hmarkup
        simp [hmarkup]
      · next hmarkup =>
        simp only [Bool.and_eq_true, Bool.not_eq_true', not_and, Bool.not_eq_false] at hmarkup
        rw [hvalues, Except.ok.injEq, Option.some.injEq]
        exact ⟨fun h => ⟨h, hblank, hmarkup⟩, fun h => h.1⟩

/-- The identifier that a draft of an input brings in. -/
def Draft.newId? (d : Draft) : Option String :=
  if d.kind = .input then d.values.head?.map Text.trim else none

/-- **What is known of the node of a draft** accepted by a question. -/
structure Built (q : Question) (d : Draft) (node : Node) : Prop where
  kindName_eq : node.kindName = d.kind.tag
  hints_eq : node.hints = d.hints
  ids_eq : node.slots.map Slot.id = d.newId?.toList
  fresh : ∀ id ∈ d.newId?, id ∉ q.focusOrder
  answerable : ∀ slot ∈ node.slots, Text.blankOnly slot.expected = false
  sound : ∀ leaf ∈ node.leaves, leaf.Sound
  depth_le : node.depth ≤ 1

section Nodes

variable {q : Question} {d : Draft} {hints : Hints}

theorem built_of_slots_eq_nil {node : Node} (hnew : d.kind ≠ .input) (hslots : node.slots = [])
    (hname : node.kindName = d.kind.tag) (hhints : node.hints = d.hints)
    (hsound : ∀ leaf ∈ node.leaves, leaf.Sound) (hdepth : node.depth ≤ 1) : Built q d node where
  kindName_eq := hname
  hints_eq := hhints
  ids_eq := by rw [Draft.newId?, if_neg hnew, hslots]; rfl
  fresh := by rw [Draft.newId?, if_neg hnew]; simp
  answerable := by rw [hslots]; simp
  sound := hsound
  depth_le := hdepth

theorem built_leaf {leaf : Leaf} (hname : leaf.kindName = d.kind.tag) (hnew : d.kind ≠ .input)
    (hslots : leaf.slots = []) (hsound : leaf.Sound) : Built q d (.leaf leaf d.hints) :=
  built_of_slots_eq_nil hnew hslots hname rfl (by simpa [Node.leaves] using hsound)
    (Nat.zero_le 1)

theorem built_pair {op : Pairing} {first second : Node} (hname : op.kind = d.kind)
    (hnew : d.kind ≠ .input) (hfirst : first.Plain) (hsecond : second.Plain) :
    Built q d (.pair op first second d.markup d.hints) := by
  refine built_of_slots_eq_nil hnew ?slots (by rw [Node.kindName, hname]) rfl ?sound ?depth
  case slots =>
    rw [Node.slots, hfirst.slots_eq, hsecond.slots_eq]
    rfl
  case sound =>
    intro leaf hleaf
    rcases List.mem_append.1 hleaf with hleaf | hleaf
    · exact hfirst.sound leaf hleaf
    · exact hsecond.sound leaf hleaf
  case depth =>
    rw [Node.depth, hfirst.depth_eq, hsecond.depth_eq]
    omega

theorem built_run {form : Sequence} {children : List Node} (hname : form.kind = d.kind)
    (hnew : d.kind ≠ .input) (hchildren : ∀ child ∈ children, child.Plain) :
    Built q d (.run form children d.markup d.hints) := by
  refine built_of_slots_eq_nil hnew ?slots (by rw [Node.kindName, hname]) rfl ?sound ?depth
  case slots =>
    rw [Node.slots, slotsOf_eq_flatMap, List.flatMap_eq_nil_iff]
    exact fun child hchild => (hchildren child hchild).slots_eq
  case sound =>
    intro leaf hleaf
    obtain ⟨child, hchild, hleaf⟩ := mem_leavesOf.1 hleaf
    exact (hchildren child hchild).sound leaf hleaf
  case depth =>
    refine levels_le_iff.2 fun child hchild => ?_
    rw [(hchildren child hchild).depth_eq]
    exact Nat.zero_lt_one

/-- **An accepted draft has a node of its kind,** and brings in a new identifier at most. -/
theorem built_of_node {node : Node} (h : d.node q = .ok node) : Built q d node := by
  obtain ⟨kind, values, markup, hints⟩ := d
  obtain ⟨checked, hcheck, hbuild⟩ := bind_eq_ok.1 h
  obtain ⟨hvalues, hnamed, -⟩ := check_eq_ok_iff.1 hcheck
  cases kind with
  | text | rich =>
    cases hbuild
    exact built_leaf rfl (by simp) rfl trivial
  | decimal =>
    simp only [Node.build] at hbuild
    split at hbuild
    · cases hbuild
      exact built_leaf rfl (by simp) rfl trivial
    · cases hbuild
  | fraction | exponent =>
    cases hbuild
    exact built_pair rfl (by simp) (plain_operand _) (plain_operand _)
  | algebraic | equation =>
    cases hbuild
    exact built_run rfl (by simp) (plain_tokenize _)
  | input =>
    obtain ⟨id, expected⟩ := checked
    simp only [Node.build] at hbuild
    split at hbuild
    · cases hbuild
    · next hfree =>
      obtain ⟨hblank, rfl⟩ := Node.input?_eq_ok_iff.1 hbuild
      obtain rfl : values = [id, expected] := ofList?_dual hvalues
      have hnew : Draft.newId? ⟨.input, [id, expected], markup, hints⟩ = some (Text.trim id) := rfl
      -- the identifier is trimmed before it is looked for, so it is new as it stands in the node
      refine ⟨rfl, rfl, ?_, ?_, ?_, ?_, Nat.zero_le 1⟩
      · rw [hnew]
        rfl
      · rw [hnew]
        intro id' hid'
        rw [← Option.mem_some_iff.1 hid', ← Question.input?_eq_none_iff]
        simpa using hfree
      · simpa [Node.slots, Leaf.slots] using hnamed expected (by simp)
      · simpa [Node.leaves, Leaf.Sound] using hblank

end Nodes

namespace Question

theorem append_eq_ok_iff {q q' : Question} {d : Draft} :
    (q.append d).value = .ok q' ↔ ∃ node, d.node q = .ok node ∧ q' = q.push node := by
  unfold append
  split
  · next node hnode => simp [hnode, eq_comm]
  · next e he => simp [he]

/-! ## Offering drafts -/

/-- The question after a draft is offered, which a refusal leaves as it was. -/
def offer (q : Question) (d : Draft) : Question :=
  match (q.append d).value with
  | .ok q' => q'
  | .error _ => q

/-- The question after some drafts are offered from left to right. -/
def offerAll (q : Question) (drafts : List Draft) : Question := drafts.foldl offer q

/-- The drafts among them that are accepted. -/
def accepted (q : Question) : List Draft → List Draft
  | [] => []
  | d :: drafts =>
    match (q.append d).value with
    | .ok q' => d :: q'.accepted drafts
    | .error _ => q.accepted drafts

/-- The identifiers that the accepted drafts bring in. -/
def newIds (q : Question) (drafts : List Draft) : List String :=
  (q.accepted drafts).filterMap Draft.newId?

/-- **Induction over drafts:** the first one is refused, or it is accepted with its node. -/
theorem offerAll_induction {P : Question → List Draft → Prop} (nil : ∀ q, P q [])
    (refused : ∀ q d drafts, q.offerAll (d :: drafts) = q.offerAll drafts →
      q.accepted (d :: drafts) = q.accepted drafts → P q drafts → P q (d :: drafts))
    (accepted : ∀ q d drafts node, Built q d node →
      q.offerAll (d :: drafts) = (q.push node).offerAll drafts →
      q.accepted (d :: drafts) = d :: (q.push node).accepted drafts → P (q.push node) drafts →
      P q (d :: drafts)) : ∀ q drafts, P q drafts := by
  intro q drafts
  induction drafts generalizing q with
  | nil => exact nil q
  | cons d drafts ih =>
    cases h : (q.append d).value with
    | error e =>
      refine refused q d drafts ?_ ?_ (ih q)
      · rw [offerAll, List.foldl_cons, offer, h]
        rfl
      · rw [Question.accepted, h]
    | ok q' =>
      obtain ⟨node, hnode, rfl⟩ := append_eq_ok_iff.1 h
      refine accepted q d drafts node (built_of_node hnode) ?_ ?_ (ih _)
      · rw [offerAll, List.foldl_cons, offer, h]
        rfl
      · rw [Question.accepted, h]

theorem focusOrder_push {q : Question} {d : Draft} {node : Node} (h : Built q d node) :
    (q.push node).focusOrder = q.focusOrder ++ d.newId?.toList := by
  rw [focusOrder, slots_push, List.map_append, h.ids_eq, focusOrder]

theorem newIds_cons {q q' : Question} {d : Draft} {drafts : List Draft}
    (h : q.accepted (d :: drafts) = d :: q'.accepted drafts) :
    q.newIds (d :: drafts) = d.newId?.toList ++ q'.newIds drafts := by
  rw [newIds, h, List.filterMap_cons]
  cases d.newId? <;> rfl

theorem nodes_offerAll (q : Question) (drafts : List Draft) :
    ∃ nodes, (q.offerAll drafts).nodes = q.nodes ++ nodes ∧
      List.Forall₂ (fun d node => node.kindName = d.kind.tag ∧ node.hints = d.hints)
        (q.accepted drafts) nodes := by
  induction q, drafts using offerAll_induction with
  | nil q => exact ⟨[], by simp [offerAll], .nil⟩
  | refused q d drafts hoffer haccepted ih => rwa [hoffer, haccepted]
  | accepted q d drafts node hbuilt hoffer haccepted ih =>
    obtain ⟨nodes, hnodes, hall⟩ := ih
    rw [hoffer, haccepted, hnodes]
    exact ⟨node :: nodes, by simp [push], .cons ⟨hbuilt.kindName_eq, hbuilt.hints_eq⟩ hall⟩

theorem focusOrder_offerAll (q : Question) (drafts : List Draft) :
    (q.offerAll drafts).focusOrder = q.focusOrder ++ q.newIds drafts := by
  induction q, drafts using offerAll_induction with
  | nil q => simp [offerAll, newIds, Question.accepted]
  | refused q d drafts hoffer haccepted ih => rwa [hoffer, newIds, haccepted]
  | accepted q d drafts node hbuilt hoffer haccepted ih =>
    rw [hoffer, ih, focusOrder_push hbuilt, newIds_cons haccepted, List.append_assoc]

theorem newIds_fresh (q : Question) (drafts : List Draft) :
    (q.newIds drafts).Nodup ∧ ∀ id ∈ q.newIds drafts, id ∉ q.focusOrder := by
  induction q, drafts using offerAll_induction with
  | nil q => simp [newIds, Question.accepted]
  | refused q d drafts hoffer haccepted ih => rwa [newIds, haccepted]
  | accepted q d drafts node hbuilt hoffer haccepted ih =>
    obtain ⟨hnodup, hfresh⟩ := ih
    rw [focusOrder_push hbuilt] at hfresh
    rw [newIds_cons haccepted]
    cases hid : d.newId? with
    | none =>
      rw [hid] at hfresh
      exact ⟨hnodup, fun id hmem => by simpa using hfresh id hmem⟩
    | some new =>
      rw [hid] at hfresh
      simp only [Option.toList_some, List.mem_append, List.mem_singleton, not_or] at hfresh
      refine ⟨List.nodup_cons.2 ⟨fun hmem => (hfresh new hmem).2 rfl, hnodup⟩, fun id hmem => ?_⟩
      rcases List.mem_cons.1 hmem with rfl | hmem
      · exact hbuilt.fresh id hid
      · exact (hfresh id hmem).1

theorem answerable_offerAll {q : Question}
    (h : ∀ slot ∈ q.slots, Text.blankOnly slot.expected = false) (drafts : List Draft) :
    ∀ slot ∈ (q.offerAll drafts).slots, Text.blankOnly slot.expected = false := by
  induction q, drafts using offerAll_induction with
  | nil q => exact h
  | refused q d drafts hoffer haccepted ih => rw [hoffer]; exact ih h
  | accepted q d drafts node hbuilt hoffer haccepted ih =>
    rw [hoffer]
    refine ih fun slot hslot => ?_
    rw [slots_push] at hslot
    rcases List.mem_append.1 hslot with hslot | hslot
    · exact h slot hslot
    · exact hbuilt.answerable slot hslot

/-! ## The question as a whole -/

/-- **A question grows in order.** Each accepted draft adds one node of its kind, with its hints,
and an accepted input an identifier that no slot had. -/
theorem offerAll_in_order (q : Question) (drafts : List Draft) :
    (∃ nodes, (q.offerAll drafts).nodes = q.nodes ++ nodes ∧
      List.Forall₂ (fun d node => node.kindName = d.kind.tag ∧ node.hints = d.hints)
        (q.accepted drafts) nodes) ∧
    (q.offerAll drafts).focusOrder = q.focusOrder ++ q.newIds drafts ∧
    (q.newIds drafts).Nodup ∧ (∀ id ∈ q.newIds drafts, id ∉ q.focusOrder) ∧
    (q.offerAll drafts).duplicateIds = q.duplicateIds := by
  obtain ⟨hnodup, hfresh⟩ := newIds_fresh q drafts
  have hfocus := focusOrder_offerAll q drafts
  refine ⟨nodes_offerAll q drafts, hfocus, hnodup, hfresh, ?_⟩
  rw [duplicateIds, hfocus, duplicateIds]
  exact secondOccurrences_append hnodup fun id hmem => ⟨by simp, hfresh id hmem⟩

/-! ## Saving what was authored -/

theorem storable_push {q : Question} {d : Draft} {node : Node} (h : q.Storable)
    (hbuilt : Built q d node) : (q.push node).Storable := by
  obtain ⟨hsound, hshallow⟩ := storable_iff.1 h
  refine storable_iff.2 ⟨fun leaf hleaf => ?_, fun node' hmem => ?_⟩
  · obtain ⟨node', hmem, hleaf⟩ := mem_leavesOf.1 hleaf
    rcases List.mem_append.1 hmem with hmem | hmem
    · exact hsound leaf (mem_leavesOf.2 ⟨node', hmem, hleaf⟩)
    · rw [List.mem_singleton.1 hmem] at hleaf
      exact hbuilt.sound leaf hleaf
  · rcases List.mem_append.1 hmem with hmem | hmem
    · exact hshallow node' hmem
    · have := hbuilt.depth_le
      rw [List.mem_singleton.1 hmem]
      omega

theorem storable_offerAll {q : Question} (h : q.Storable) (drafts : List Draft) :
    (q.offerAll drafts).Storable := by
  induction q, drafts using offerAll_induction with
  | nil q => exact h
  | refused q d drafts hoffer haccepted ih => rw [hoffer]; exact ih h
  | accepted q d drafts node hbuilt hoffer haccepted ih =>
    rw [hoffer]
    exact ih (storable_push h hbuilt)

/-- **What was authored can be saved.** A question that was loaded or begun empty, and then had any
drafts offered to it, is read back from its written form. -/
theorem load_offerAll {q : Question} (h : q = empty ∨ ∃ text, (load text).value = .ok q)
    (drafts : List Draft) :
    (load (q.offerAll drafts).json).value = .ok (q.offerAll drafts) ∧
      (q.offerAll drafts).Storable := by
  have hq : q.Storable := by
    rcases h with rfl | ⟨text, htext⟩
    · exact storable_iff.2 ⟨by simp [empty, leavesOf], by simp [empty]⟩
    · exact storable_of_load htext
  have hall := storable_offerAll hq drafts
  exact ⟨load_json hall, hall⟩

/-- An unknown kind, an ignored key, a blank around an identifier, and an identifier that is
refused. -/
theorem load_offerAll_unknown_kind :
    let text := "[[\"mystery\"],\x7b\"kind\":\"input\",\"id\":\" a\",\"x\":0,\"expected\":\"\"\x7d]"
    let drafts : List Draft := [⟨.input, ["b ", "\"1\""], none, .default⟩,
      ⟨.input, ["b", "2"], none, ⟨.newLine, .goOn⟩⟩, ⟨.equation, ["x = 2"], some "y", .default⟩]
    ∃ q, (load text).value = .ok q ∧ (q.offerAll drafts).nodes.length = 4 ∧
      (load (q.offerAll drafts).json).value = .ok (q.offerAll drafts) := by
  intro text drafts
  let q : Question :=
    ⟨[.leaf (.unrecognized "mystery") .default, .leaf (.input ⟨" a", ""⟩) .default]⟩
  have hload : (load text).value = .ok q := by decide +kernel
  have hlength : (q.offerAll drafts).nodes.length = 4 := by decide +kernel
  exact ⟨q, hload, hlength, (load_offerAll (.inr ⟨text, hload⟩) drafts).1⟩

end Question

end MathQuiz
