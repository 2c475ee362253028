import MathQuiz.Proofs.Expr.Record

/-!
# Fields that a kind uses

Reading a tree from a record passes over the fields that its kind does not use, and writing the tree
again leaves them out. So a record comes back without those fields, at every depth that is read.

* `Record.Part`, `Kind.parts`, `Record.uses`: which kinds use which fields;
* `Record.cleaned`: a record without the fields that are not used;
* `Record.Visits`, `Record.cleaned_eq_self_iff_visits`: the records that are looked at, and those
  that have nothing to leave out;
* `Record.ofNode_of_toNode`: what is read from a record is written as the cleaned record;
* **`Record.written_back`**: this record is read as the same tree, and it is the record itself
  exactly if no record that is looked at has a field that its kind does not use.
-/

namespace MathQuiz

open Json (bind_eq_ok)

/-- The fields of a record that only some kinds use. -/
inductive Record.Part
  | value
  | children
  | markup
  | id
  | expected
  | payload
  deriving DecidableEq

/-- The fields that a kind uses. -/
def Kind.parts : Kind → List Record.Part
  | text | decimal => [.value]
  | fraction | exponent | algebraic | equation => [.children, .markup]
  | input => [.id, .expected]
  | rich => [.payload]

namespace Record

open Checked

/-- Records of this kind use the field. An unknown kind uses none. -/
def uses (kind : String) (part : Part) : Bool :=
  (Kind.ofTag? kind).any fun k => part ∈ k.parts

/-- The field is there. -/
def has (r : Record) : Part → Bool
  | .value => r.value.isSome
  | .children => !r.children.isEmpty
  | .markup => r.markup.isSome
  | .id => r.id.isSome
  | .expected => r.expected.isSome
  | .payload => r.payload.isSome

mutual

/-- The record without the fields that its kind does not use, and its children likewise. -/
def cleaned : Record → Record
  | ⟨kind, value, children, markup, id, expected, payload, placement, continuation⟩ =>
    { kind := kind
      value := if uses kind .value then value else none
      children := if uses kind .children then cleanedAll children else []
      markup := if uses kind .markup then markup else none
      id := if uses kind .id then id else none
      expected := if uses kind .expected then expected else none
      payload := if uses kind .payload then payload else none
      placement := placement
      continuation := continuation }

/-- Some records without the fields that their kinds do not use. -/
def cleanedAll : List Record → List Record
  | [] => []
  | r :: rs => cleaned r :: cleanedAll rs

end

theorem cleanedAll_eq_self_iff {rs : List Record} :
    cleanedAll rs = rs ↔ ∀ r ∈ rs, r.cleaned = r := by
  induction rs with
  | nil => simp [cleanedAll]
  | cons r rs ih => rw [cleanedAll, List.cons.injEq, ih, List.forall_mem_cons]

/-- A record that is looked at when another one is read: that record itself, or one below it along
children that are used. -/
inductive Visits : Record → Record → Prop
  | self (r : Record) : Visits r r
  | child {r c v : Record} :
    uses r.kind .children = true → c ∈ r.children → Visits c v → Visits r v

/-! ## Clean records -/

theorem uses_tag (k : Kind) (part : Part) : uses k.tag part = decide (part ∈ k.parts) := by
  rw [uses, Kind.ofTag?_tag, Option.any_some]

theorem uses_eq_false {kind : String} (h : Kind.ofTag? kind = none) (part : Part) :
    uses kind part = false := by
  rw [uses, h, Option.any_none]

theorem Part.forall_iff {P : Part → Prop} : (∀ part, P part) ↔
    P .value ∧ P .children ∧ P .markup ∧ P .id ∧ P .expected ∧ P .payload := by
  constructor
  · intro h
    exact ⟨h .value, h .children, h .markup, h .id, h .expected, h .payload⟩
  · rintro ⟨hv, hc, hm, hi, he, hp⟩ part
    cases part with
    | value => exact hv
    | children => exact hc
    | markup => exact hm
    | id => exact hi
    | expected => exact he
    | payload => exact hp

theorem ite_eq_self_iff {b : Bool} {field : Option String} :
    (if b then field else none) = field ↔ (field.isSome = true → b = true) := by
  cases b <;> cases field <;> simp

/-- **A record is clean** if its kind uses all its fields and the children that it uses are clean.
-/
theorem cleaned_eq_self_iff (r : Record) : r.cleaned = r ↔
    (∀ part, r.has part = true → uses r.kind part = true) ∧
      (uses r.kind .children = true → ∀ c ∈ r.children, c.cleaned = c) := by
  obtain ⟨kind, value, children, markup, id, expected, payload, placement, continuation⟩ := r
  have hchildren : (if uses kind .children then cleanedAll children else []) = children ↔
      ((!children.isEmpty) = true → uses kind .children = true) ∧
        (uses kind .children = true → ∀ c ∈ children, c.cleaned = c) := by
    cases huses : uses kind .children with
    | false => cases children <;> simp
    | true => simpa using cleanedAll_eq_self_iff
  rw [Part.forall_iff, cleaned]
  simp only [has, mk.injEq, ite_eq_self_iff, hchildren, true_and, and_true]
  constructor
  · rintro ⟨hv, ⟨hc, hclean⟩, hm, hi, he, hp⟩
    exact ⟨⟨hv, hc, hm, hi, he, hp⟩, hclean⟩
  · rintro ⟨⟨hv, hc, hm, hi, he, hp⟩, hclean⟩
    exact ⟨hv, ⟨hc, hclean⟩, hm, hi, he, hp⟩

/-- **The clean records** have no field that is not used anywhere in what is read. -/
theorem cleaned_eq_self_iff_visits (r : Record) : r.cleaned = r ↔
    ∀ v, r.Visits v → ∀ part, v.has part = true → uses v.kind part = true := by
  induction r using Record.induction with
  | h r ih =>
    rw [cleaned_eq_self_iff]
    constructor
    · rintro ⟨hparts, hchildren⟩ v hvisits
      cases hvisits with
      | self => exact hparts
      | child huses hc hvisits => exact (ih _ hc).1 (hchildren huses _ hc) v hvisits
    · intro h
      refine ⟨h r (.self r), fun huses c hc => (ih c hc).2 fun v hvisits => ?_⟩
      exact h v (.child huses hc hvisits)

/-! ## Reading and writing -/

theorem required_eq_ok_iff {kind : Kind} {field : RequiredField} {value : Option String}
    {s : String} : required kind field value = .ok s ↔ value = some s := by
  cases value <;> simp [required]

theorem ofNodes_of_toNodes {rs : List Record} {nodes : List Node}
    (ih : ∀ r ∈ rs, ∀ node, outcome (toNode r) = .ok node → ofNode node = r.cleaned)
    (h : outcome (toNodes rs) = .ok nodes) : ofNodes nodes = cleanedAll rs := by
  rw [toNodes_eq_ok_iff] at h
  induction h with
  | nil => rfl
  | cons hnode _ ihl =>
    rw [ofNodes, cleanedAll, ih _ List.mem_cons_self _ hnode,
      ihl fun r hr => ih r (List.mem_cons_of_mem _ hr)]

/-- **What is read from a record** is written as the cleaned record. -/
theorem ofNode_of_toNode {r : Record} {node : Node} (h : outcome (toNode r) = .ok node) :
    ofNode node = r.cleaned := by
  induction r using Record.induction generalizing node with
  | h r ih =>
    obtain ⟨kind, value, children, markup, id, expected, payload, placement, continuation⟩ := r
    have hnodes : ∀ {nodes}, outcome (toNodes children) = .ok nodes →
        ofNodes nodes = cleanedAll children := fun hnodes =>
      ofNodes_of_toNodes (fun c hc _ => ih c hc) hnodes
    rw [toNode] at h
    split at h
    all_goals
      simp only [outcome_bind, outcome_pure, outcome_lift, outcome_tell, bind_eq_ok,
        required_eq_ok_iff] at h
    -- the kinds in the order of `toNode`, those with the same fields together
    case h_1 hkind | h_2 hkind | h_8 hkind =>
      obtain rfl := Kind.ofTag?_eq_some_iff.1 hkind
      obtain ⟨v, rfl, heq⟩ := h
      cases heq
      simp [cleaned, uses_tag, Kind.parts, ofNode, ofLeaf, bare]
    case h_3 hkind | h_4 hkind =>
      obtain rfl := Kind.ofTag?_eq_some_iff.1 hkind
      obtain ⟨nodes, hconverted, hpair⟩ := h
      obtain ⟨first, second, rfl, rfl⟩ := Node.pair?_eq_ok_iff.1 hpair
      simp [cleaned, uses_tag, Kind.parts, ofNode, bare, Pairing.kind, ← hnodes hconverted,
        ofNodes]
    case h_5 hkind | h_6 hkind =>
      obtain rfl := Kind.ofTag?_eq_some_iff.1 hkind
      obtain ⟨nodes, hconverted, heq⟩ := h
      cases heq
      simp [cleaned, uses_tag, Kind.parts, ofNode, bare, Sequence.kind, hnodes hconverted]
    case h_7 hkind =>
      obtain rfl := Kind.ofTag?_eq_some_iff.1 hkind
      obtain ⟨i, rfl, e, rfl, hinput⟩ := h
      obtain ⟨-, rfl⟩ := Node.input?_eq_ok_iff.1 hinput
      simp [cleaned, uses_tag, Kind.parts, ofNode, ofLeaf, bare]
    case h_9 hkind =>
      obtain ⟨-, -, heq⟩ := h
      cases heq
      simp [cleaned, uses_eq_false hkind, ofNode, ofLeaf, bare]

/-- **Writing undoes reading up to the fields that are not used,** so the records that are written
exactly as they were read are those without such fields at any place that was looked at. -/
theorem written_back {r : Record} {node : Node} (h : outcome (toNode r) = .ok node) :
    ofNode node = r.cleaned ∧ outcome (toNode r.cleaned) = .ok node ∧
      (ofNode node = r ↔
        ∀ v, r.Visits v → ∀ part, v.has part = true → uses v.kind part = true) := by
  have hwritten := ofNode_of_toNode h
  have hagain := toNode_ofNode node (sound_of_toNode h)
  refine ⟨hwritten, hwritten ▸ hagain, ?_⟩
  rw [hwritten]
  exact cleaned_eq_self_iff_visits r

/-- Fields that an expression does not use, an unknown kind with a child, and a payload of an input.
-/
theorem written_back_algebraic :
    let child := { bare "text" .default with value := some "x" }
    let unknown := { bare "matrix" .default with children := [child], id := some "m" }
    let slot := { bare "input" ⟨.newLine, .goOn⟩ with id := some "a", expected := some "2" }
    let r := { bare "algebraic" .default with
      value := some "1"
      children := [unknown, { slot with payload := some "p" }] }
    let node := .run .algebraic
      [.leaf (.unrecognized "matrix") .default, .leaf (.input ⟨"a", "2"⟩) ⟨.newLine, .goOn⟩] none
      .default
    outcome (toNode r) = .ok node ∧ ofNode node = r.cleaned ∧
      r.cleaned = { bare "algebraic" .default with children := [bare "matrix" .default, slot] } ∧
      ofNode node ≠ r := by
  intro child unknown slot r node
  have hread : outcome (toNode r) = .ok node := by rfl
  obtain ⟨hwritten, -, hsame⟩ := written_back hread
  refine ⟨hread, hwritten, by decide +kernel, fun heq => ?_⟩
  exact absurd (hsame.1 heq r (.self r) .value rfl) (by decide)

end Record

end MathQuiz
