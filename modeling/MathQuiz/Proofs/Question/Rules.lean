import MathQuiz.Proofs.Expr.Trees
import MathQuiz.Proofs.Question.Authoring
import MathQuiz.Proofs.Text.Joining

/-!
# The rules for drafts

A draft is appended exactly if it keeps all rules for drafts. Of the rules that it breaks, the one
that comes first is what the refusal reports.

* `Question.Uses`: an identifier stands somewhere in a question;
* `Draft.Keeps`, `Draft.Breaks`: the rules, each with the refusal that reports it;
* `ShapeError.rank`, `Draft.BreaksFirst`: which of them comes first;
* `Draft.assemble?`: the node built with look-ups and constructions that can fail, and
  `Draft.assemble?_of_check`: none of them fails for a draft that was checked;
* **`Question.append_by_rules`**: what is appended, what is refused, and what is told.
-/

namespace MathQuiz

/-- An input of the question has this identifier, at whatever depth it stands. -/
def Question.Uses (q : Question) (id : String) : Prop :=
  ∃ root ∈ q.nodes, ∃ n expected hints, root.Below n (.leaf (.input ⟨id, expected⟩) hints)

theorem Question.mem_focusOrder_iff {q : Question} {id : String} :
    id ∈ q.focusOrder ↔ q.Uses id := by
  rw [focusOrder, List.mem_map]
  constructor
  · rintro ⟨slot, hslot, rfl⟩
    obtain ⟨root, hroot, hleaf⟩ := mem_leavesOf.1 (mem_slotsOf.1 hslot)
    obtain ⟨n, hints, hbelow⟩ := Node.mem_leaves_iff_below.1 hleaf
    exact ⟨root, hroot, n, slot.expected, hints, hbelow⟩
  · rintro ⟨root, hroot, n, expected, hints, hbelow⟩
    have hleaf : .input ⟨id, expected⟩ ∈ root.leaves :=
      Node.mem_leaves_iff_below.2 ⟨n, hints, hbelow⟩
    exact ⟨⟨id, expected⟩, mem_slotsOf.2 (mem_leavesOf.2 ⟨root, hroot, hleaf⟩), rfl⟩

theorem Question.isSome_input?_iff {q : Question} {id : String} :
    (q.input? id).isSome = true ↔ q.Uses id := by
  rw [← mem_focusOrder_iff, Option.isSome_iff_ne_none, ne_eq, input?_eq_none_iff, not_not]

/-! ## The rules -/

/-- The kinds whose nodes can carry markup. -/
def Kind.marked : List Kind := [fraction, exponent, algebraic, equation]

theorem Kind.acceptsMarkup_iff {k : Kind} : k.acceptsMarkup = true ↔ k ∈ marked := by
  cases k <;> decide

namespace Draft

/-- **The draft keeps all rules.** -/
structure Keeps (d : Draft) (q : Question) : Prop where
  count : d.values.length = d.kind.arity.count
  named : ∀ v ∈ d.values, ∃ c ∈ v.toList, Text.isBlank c = false
  marked : d.markup.isSome → d.kind ∈ Kind.marked
  decimal : d.kind = .decimal → ∀ v ∈ d.values[0]?, isDecimal v = true
  fresh : d.kind = .input → ∀ v ∈ d.values[0]?, ¬ q.Uses (Text.trim v)

/-- **The draft breaks a rule,** and this is how a refusal reports it. Of values that are blank the
first one is reported. -/
inductive Breaks (d : Draft) (q : Question) : ShapeError → Prop
  | count : d.values.length ≠ d.kind.arity.count → Breaks d q (.valueCount d.kind d.values.length)
  | blank {i : Nat} {v : String} : d.values[i]? = some v → (∀ c ∈ v.toList, Text.isBlank c = true) →
    (∀ j < i, ∀ w ∈ d.values[j]?, ∃ c ∈ w.toList, Text.isBlank c = false) →
    Breaks d q (.blankValue d.kind i)
  | markup : d.markup.isSome → d.kind ∉ Kind.marked → Breaks d q (.markupNotSupported d.kind)
  | decimal {v : String} : d.kind = .decimal → d.values[0]? = some v → isDecimal v = false →
    Breaks d q (.notADecimal v)
  | fresh {v : String} : d.kind = .input → d.values[0]? = some v → q.Uses (Text.trim v) →
    Breaks d q (.duplicateInputId (Text.trim v))

end Draft

/-- The place of a rule among the rules for drafts. The shapes that are no such rule come last. -/
def ShapeError.rank : ShapeError → Nat
  | valueCount .. => 0
  | blankValue .. => 1
  | markupNotSupported _ => 2
  | notADecimal _ | duplicateInputId _ => 3
  | childCount .. | blankInputId | missingField .. => 4

namespace Draft

variable {d : Draft} {q : Question} {e : ShapeError}

/-- This is the first rule that the draft breaks. -/
def BreaksFirst (d : Draft) (q : Question) (e : ShapeError) : Prop :=
  d.Breaks q e ∧ ∀ e', d.Breaks q e' → e.rank ≤ e'.rank

theorem blankOnly_eq_false_iff {v : String} :
    Text.blankOnly v = false ↔ ∃ c ∈ v.toList, Text.isBlank c = false := by
  simp [Text.blankOnly]

theorem Keeps.not_breaks (h : d.Keeps q) : ¬ d.Breaks q e := by
  intro hbreaks
  cases hbreaks with
  | count hcount => exact hcount h.count
  | blank hv hblank _ =>
    obtain ⟨c, hc, hnot⟩ := h.named _ (List.mem_of_getElem? hv)
    rw [hblank c hc] at hnot
    cases hnot
  | markup hsome hkind => exact hkind (h.marked hsome)
  | decimal hkind hv hnot =>
    rw [h.decimal hkind _ hv] at hnot
    cases hnot
  | fresh hkind hv huses => exact h.fresh hkind _ hv huses

theorem le_of_blank {i j : Nat} {v : String} (hv : d.values[i]? = some v)
    (hblank : ∀ c ∈ v.toList, Text.isBlank c = true)
    (hbefore : ∀ k < j, ∀ w ∈ d.values[k]?, ∃ c ∈ w.toList, Text.isBlank c = false) : j ≤ i := by
  by_contra hlt
  obtain ⟨c, hc, hnot⟩ := hbefore i (Nat.lt_of_not_le hlt) v hv
  rw [hblank c hc] at hnot
  cases hnot

theorem Breaks.eq_of_rank {e' : ShapeError} (h : d.Breaks q e) (h' : d.Breaks q e')
    (hrank : e.rank = e'.rank) : e = e' := by
  cases h with
  | count =>
    cases h' <;> first | rfl | cases hrank
  | blank hv hblank hbefore =>
    cases h' with
    | blank hw hblank' hbefore' =>
      rw [Nat.le_antisymm (le_of_blank hw hblank' hbefore) (le_of_blank hv hblank hbefore')]
    | count | markup | decimal | fresh => cases hrank
  | markup =>
    cases h' <;> first | rfl | cases hrank
  | decimal hkind hv =>
    cases h' with
    | decimal _ hw => rw [Option.some.inj (hv.symm.trans hw)]
    | fresh hkind' => cases hkind.symm.trans hkind'
    | count | blank | markup => cases hrank
  | fresh hkind hv =>
    cases h' with
    | fresh _ hw => rw [Option.some.inj (hv.symm.trans hw)]
    | decimal hkind' => cases hkind.symm.trans hkind'
    | count | blank | markup => cases hrank

theorem Breaks.rank_cases (h : d.Breaks q e) :
    (e.rank = 0 ∧ d.values.length ≠ d.kind.arity.count) ∨
    (e.rank = 1 ∧ ∃ v ∈ d.values, Text.blankOnly v = true) ∨
    (e.rank = 2 ∧ d.markup.isSome ∧ d.kind ∉ Kind.marked) ∨ e.rank = 3 := by
  cases h with
  | count hcount => exact .inl ⟨rfl, hcount⟩
  | blank hv hblank =>
    exact .inr (.inl ⟨rfl, _, List.mem_of_getElem? hv, List.all_eq_true.2 hblank⟩)
  | markup hsome hkind => exact .inr (.inr (.inl ⟨rfl, hsome, hkind⟩))
  | decimal | fresh => exact .inr (.inr (.inr rfl))

/-! ## What the check reports -/

theorem ofList?_eq_none_iff {a : Arity} {values : List String} :
    a.ofList? values = none ↔ values.length ≠ a.count := by
  cases a <;> match values with
  | [] | [_] | [_, _] | _ :: _ :: _ :: _ => simp [Arity.ofList?, Arity.count]

theorem length_of_ofList? {a : Arity} {values : List String} {v : a.Values}
    (h : a.ofList? values = some v) : values.length = a.count := by
  by_contra hne
  rw [ofList?_eq_none_iff.2 hne] at h
  cases h

theorem breaks_of_findIdx? {i : Nat} (h : d.values.findIdx? Text.blankOnly = some i) :
    d.Breaks q (.blankValue d.kind i) := by
  obtain ⟨hi, hblank, hbefore⟩ := List.findIdx?_eq_some_iff_getElem.1 h
  refine .blank (List.getElem?_eq_getElem hi) (List.all_eq_true.1 hblank) fun j hj w hw => ?_
  obtain ⟨-, rfl⟩ := List.getElem?_eq_some_iff.1 hw
  exact blankOnly_eq_false_iff.1 (Bool.eq_false_iff.2 (hbefore j hj))

/-- **The check reports the first rule that is broken,** if it is one that the check looks at. -/
theorem breaksFirst_of_check (h : d.check = .error e) : d.BreaksFirst q e := by
  unfold check at h
  split at h
  · next hvalues =>
    cases h
    exact ⟨.count (ofList?_eq_none_iff.1 hvalues), fun e' _ => Nat.zero_le _⟩
  · next values hvalues =>
    have hcount := length_of_ofList? hvalues
    split at h
    · next i hblank =>
      cases h
      refine ⟨breaks_of_findIdx? hblank, fun e' hbreaks => ?_⟩
      change 1 ≤ e'.rank
      rcases hbreaks.rank_cases with ⟨-, hne⟩ | ⟨hrank, -⟩ | ⟨hrank, -⟩ | hrank
      · exact absurd hcount hne
      all_goals omega
    · next hnamed =>
      rw [List.findIdx?_eq_none_iff] at hnamed
      split at h
      · next hmarkup =>
        cases h
        simp only [Bool.and_eq_true, Bool.not_eq_true', ← Bool.not_eq_true,
          Kind.acceptsMarkup_iff] at hmarkup
        refine ⟨.markup hmarkup.1 hmarkup.2, fun e' hbreaks => ?_⟩
        change 2 ≤ e'.rank
        rcases hbreaks.rank_cases with ⟨-, hne⟩ | ⟨-, v, hv, hblank⟩ | ⟨hrank, -⟩ | hrank
        · exact absurd hcount hne
        · exact absurd hblank (by simp [hnamed v hv])
        all_goals omega
      · cases h

/-! ## What the construction reports -/

theorem three_le_rank {values : d.kind.arity.Values} (hcheck : d.check = .ok values)
    (h : d.Breaks q e) : 3 ≤ e.rank := by
  obtain ⟨hvalues, hnamed, hmarked⟩ := check_eq_ok_iff.1 hcheck
  rcases h.rank_cases with ⟨-, hne⟩ | ⟨-, v, hv, hblank⟩ | ⟨-, hsome, hkind⟩ | hrank
  · exact absurd (length_of_ofList? hvalues) hne
  · rw [hnamed v hv] at hblank
    cases hblank
  · exact absurd (Kind.acceptsMarkup_iff.1 (hmarked hsome)) hkind
  · omega

/-- A draft that was checked can only break the rule of its kind when its node is built. -/
theorem breaks_of_build {values : d.kind.arity.Values} (hcheck : d.check = .ok values)
    (h : Node.build q d.markup d.hints d.kind values = .error e) : d.Breaks q e ∧ e.rank = 3 := by
  obtain ⟨kind, given, markup, hints⟩ := d
  obtain ⟨hvalues, hnamed, -⟩ := check_eq_ok_iff.1 hcheck
  cases kind with
  | text | rich | fraction | exponent | algebraic | equation => cases h
  | decimal =>
    have hgiven : given = [values] := ofList?_single hvalues
    simp only [Node.build] at h
    split at h
    · cases h
    · next hnot =>
      cases h
      exact ⟨.decimal rfl (by rw [hgiven]; rfl) (Bool.eq_false_iff.2 hnot), rfl⟩
  | input =>
    obtain ⟨id, expected⟩ := values
    obtain rfl : given = [id, expected] := ofList?_dual hvalues
    simp only [Node.build] at h
    split at h
    · next huses =>
      cases h
      exact ⟨.fresh rfl rfl (Question.isSome_input?_iff.1 huses), rfl⟩
    · -- trimming leaves something of an identifier that is not blank
      obtain ⟨hblank, -⟩ := Node.input?_eq_error_iff.1 h
      rw [Text.blankOnly_trim, hnamed id List.mem_cons_self] at hblank
      cases hblank

theorem breaksFirst_of_node (h : d.node q = .error e) : d.BreaksFirst q e := by
  unfold node at h
  cases hcheck : d.check with
  | error e' =>
    rw [hcheck] at h
    cases h
    exact breaksFirst_of_check hcheck
  | ok values =>
    rw [hcheck] at h
    obtain ⟨hbreaks, hrank⟩ := breaks_of_build hcheck h
    exact ⟨hbreaks, fun e' hbreaks' => hrank ▸ three_le_rank hcheck hbreaks'⟩

theorem keeps_of_node {node : Node} (h : d.node q = .ok node) : d.Keeps q := by
  obtain ⟨values, hcheck, hbuild⟩ := Json.bind_eq_ok.1 h
  obtain ⟨hvalues, hnamed, hmarked⟩ := check_eq_ok_iff.1 hcheck
  have hbuilt := built_of_node h
  refine ⟨length_of_ofList? hvalues, fun v hv => blankOnly_eq_false_iff.1 (hnamed v hv),
    fun hsome => Kind.acceptsMarkup_iff.1 (hmarked hsome), ?decimal, ?fresh⟩
  case decimal =>
    intro hkind v hv
    obtain ⟨kind, given, markup, hints⟩ := d
    cases hkind
    have hgiven : given = [values] := ofList?_single hvalues
    rw [hgiven] at hv
    cases hv
    simp only [Node.build] at hbuild
    split at hbuild
    · assumption
    · cases hbuild
  case fresh =>
    intro hkind v hv
    have hnew : d.newId? = some (Text.trim v) := by
      rw [newId?, if_pos hkind, List.head?_eq_getElem?, hv]
      rfl
    rw [← Question.mem_focusOrder_iff]
    exact hbuilt.fresh _ hnew

theorem keeps_iff : d.Keeps q ↔ ∃ node, d.node q = .ok node := by
  constructor
  · intro hkeeps
    cases hnode : d.node q with
    | ok node => exact ⟨node, rfl⟩
    | error e => exact absurd (breaksFirst_of_node hnode).1 hkeeps.not_breaks
  · rintro ⟨node, hnode⟩
    exact keeps_of_node hnode

theorem node_eq_error_iff : d.node q = .error e ↔ d.BreaksFirst q e := by
  constructor
  · exact breaksFirst_of_node
  · rintro ⟨hbreaks, hfirst⟩
    cases hnode : d.node q with
    | ok node => exact absurd hbreaks (keeps_of_node hnode).not_breaks
    | error e' =>
      obtain ⟨hbreaks', hfirst'⟩ := breaksFirst_of_node hnode
      rw [hbreaks'.eq_of_rank hbreaks (Nat.le_antisymm (hfirst' e hbreaks) (hfirst e' hbreaks'))]

/-! ## Construction from the values as they stand -/

/-- The node of a draft from its values as they stand in the list, without a look at how many there
are. Each look-up of a value can fail, and so can the constructions that check the shape. -/
def assemble? (q : Question) (d : Draft) : Option (Except ShapeError Node) :=
  match d.kind with
  | .text => do return .ok (.leaf (.text (← d.values[0]?)) d.hints)
  | .decimal => do
    let v ← d.values[0]?
    return if isDecimal v then .ok (.leaf (.decimal (Text.trim v)) d.hints)
      else .error (.notADecimal v)
  | .fraction => do
    let operands := [.operand (← d.values[0]?), .operand (← d.values[1]?)]
    return Node.pair? .fraction operands d.markup d.hints
  | .exponent => do
    let operands := [.operand (← d.values[0]?), .operand (← d.values[1]?)]
    return Node.pair? .exponent operands d.markup d.hints
  | .algebraic => do return .ok (.run .algebraic (tokenize (← d.values[0]?)) d.markup d.hints)
  | .equation => do return .ok (.run .equation (tokenize (← d.values[0]?)) d.markup d.hints)
  | .input => do
    let id := Text.trim (← d.values[0]?)
    if (q.input? id).isSome then return .error (.duplicateInputId id)
    else return Node.input? id (← d.values[1]?) d.hints
  | .rich => do return .ok (.leaf (.rich (← d.values[0]?)) d.hints)

/-- **No look-up fails for a draft that was checked,** and no pair lacks an operand. -/
theorem assemble?_of_check {values : d.kind.arity.Values} (hcheck : d.check = .ok values) :
    assemble? q d = some (d.node q) := by
  have hnode : d.node q = Node.build q d.markup d.hints d.kind values := by
    rw [node, hcheck]
    rfl
  obtain ⟨hvalues, -, -⟩ := check_eq_ok_iff.1 hcheck
  rw [hnode]
  obtain ⟨kind, given, markup, hints⟩ := d
  cases kind with
  | text | rich | decimal | algebraic | equation =>
    have hgiven : given = [values] := ofList?_single hvalues
    rw [assemble?, hgiven]
    rfl
  | fraction | exponent =>
    obtain ⟨first, second⟩ := values
    have hgiven : given = [first, second] := ofList?_dual hvalues
    rw [assemble?, hgiven]
    rfl
  | input =>
    obtain ⟨id, expected⟩ := values
    have hgiven : given = [id, expected] := ofList?_dual hvalues
    rw [assemble?, hgiven]
    by_cases huses : (q.input? (Text.trim id)).isSome
    · simp [Node.build, huses]
    · simp [Node.build, huses]

end Draft

namespace Question

variable {q : Question} {d : Draft}

theorem append_of_node {node : Node} (h : d.node q = .ok node) :
    q.append d = pure (.ok (q.push node)) := by
  rw [append, h]

theorem append_of_error {e : ShapeError} (h : d.node q = .error e) :
    q.append d = ⟨.error e, [.refusedDraft d.kind e]⟩ := by
  rw [append, h]
  rfl

theorem append_eq_error_iff {e : ShapeError} :
    (q.append d).value = .error e ↔ d.node q = .error e := by
  cases hnode : d.node q with
  | ok node => simp [append_of_node hnode]
  | error e' => simp [append_of_error hnode]

/-- **Appending goes by the rules.** A draft is appended exactly if it keeps them all, and otherwise
refused for the first one that it breaks, with one notice. -/
theorem append_by_rules (q : Question) (d : Draft) :
    ((∃ q', (q.append d).value = .ok q') ↔ d.Keeps q) ∧
    (∀ e, (q.append d).value = .error e ↔ d.BreaksFirst q e) ∧
    (∀ e, (q.append d).value = .error e → (∀ k n, e ≠ .childCount k n) ∧ e ≠ .blankInputId ∧
      ∀ k field, e ≠ .missingField k field) ∧
    (∀ values, d.check = .ok values → d.assemble? q = some (d.node q)) ∧
    (∀ q', (q.append d).value = .ok q' → (q.append d).notices = []) ∧
    ∀ e, (q.append d).value = .error e →
      (q.append d).notices = [.refusedDraft d.kind e] ∧
        (Notice.refusedDraft d.kind e).level = .debug := by
  refine ⟨?_, fun e => ?_, fun e he => ?_, fun values => Draft.assemble?_of_check,
    fun q' hq' => ?_, fun e he => ⟨?_, rfl⟩⟩
  · rw [Draft.keeps_iff]
    constructor
    · rintro ⟨q', hq'⟩
      obtain ⟨node, hnode, -⟩ := append_eq_ok_iff.1 hq'
      exact ⟨node, hnode⟩
    · rintro ⟨node, hnode⟩
      exact ⟨_, append_eq_ok_iff.2 ⟨node, hnode, rfl⟩⟩
  · rw [append_eq_error_iff, Draft.node_eq_error_iff]
  · obtain ⟨hbreaks, -⟩ := Draft.node_eq_error_iff.1 (append_eq_error_iff.1 he)
    cases hbreaks <;> exact ⟨nofun, nofun, nofun⟩
  · obtain ⟨node, hnode, -⟩ := append_eq_ok_iff.1 hq'
    rw [append_of_node hnode]
    rfl
  · rw [append_of_error (append_eq_error_iff.1 he)]

/-- Three broken rules, and what is reported as they are mended one by one. -/
example :
    let d : Draft := ⟨.decimal, ["x", " ", "\t"], some "y", .default⟩
    (empty.append d).value = .error (.valueCount .decimal 3) ∧
      (empty.append { d with values := ["\t"] }).value = .error (.blankValue .decimal 0) ∧
      (empty.append { d with values := ["x"] }).value = .error (.markupNotSupported .decimal) := by
  decide

end Question

end MathQuiz
