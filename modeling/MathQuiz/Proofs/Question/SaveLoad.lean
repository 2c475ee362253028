import MathQuiz.Expr.Record
import MathQuiz.Proofs.Expr.Trees
import MathQuiz.Proofs.Json.Kept
import MathQuiz.Proofs.Json.Reading
import MathQuiz.Question.Basic
import MathQuiz.Proofs.Expr.Record
import MathQuiz.Proofs.Text.Joining

/-!
# Saving and loading questions

Not every question can be read back from its written form: the text can name an input by blanks or
an unrecognized leaf by a known kind, and it can nest more deeply than the reader allows.

* **`Record.reads_json`**, **`Record.depth_of_read`**: a record is read back from its written form,
  if its depth leaves two brackets for each level and one for itself, and none is deeper than that;
* `Question.Storable`: a question without such names, which is not too deep;
* `Question.listed`, `Question.records_listed`: the list of some records, and that it is read back;
* **`Question.storable_of_load`**, **`Question.load_json`**: every question that is read is
  storable, and every storable one is read back from its written form;
* `Node.Told`, `Question.storable_iff_below`: a question is storable exactly if the texts of all its
  nodes, at every depth, tell what they are and none is too deep;
* **`Question.load_json_iff`**: those questions, and no others, are read back.
-/

namespace MathQuiz

open Json

theorem named_placement (p : Placement) : named placements p.name = .ok p := by
  cases p <;> decide

theorem named_continuation (c : Continuation) : named continuations c.name = .ok c := by
  cases c <;> decide

namespace Record

/-! ## Members of a record -/

section Members

variable {schema : Json.Schema Record} {s s' : Record} {room : Nat}

theorem stores_text (key : String) {set : Record → Option String → Record} {v : Option String}
    (hfield : schema.fields.find? (·.name == key) = some (.optional key optionalString set))
    (hnone : set s none = s) (hset : set s v = s') : Stores schema s (textMember key v) s' := by
  subst hset
  cases v with
  | none =>
    rw [hnone]
    exact .nil s
  | some v => exact .optional hfield (reads_optional v)

theorem stores_placement {set : Record → Placement → Record} {p : Placement}
    (hfield : schema.fields.find? (·.name == "placement") =
      some (.optional "placement" (oneOf placements room) set))
    (hdefault : set s .inline = s) (hset : set s p = s') :
    Stores schema s (placementMember p) s' := by
  subst hset
  cases p with
  | inline =>
    rw [hdefault]
    exact .nil s
  | newLine => exact .optional hfield (reads_oneOf room (named_placement .newLine))

theorem stores_continuation {set : Record → Continuation → Record} {c : Continuation}
    (hfield : schema.fields.find? (·.name == "continuation") =
      some (.optional "continuation" (oneOf continuations room) set))
    (hdefault : set s .goOn = s) (hset : set s c = s') :
    Stores schema s (continuationMember c) s' := by
  subst hset
  cases c with
  | goOn =>
    rw [hdefault]
    exact .nil s
  | breakAfter => exact .optional hfield (reads_oneOf room (named_continuation .breakAfter))

end Members

/-- The members of a record, in the order of its fields. -/
def members (r : Record) : List (String × List Char) :=
  ("kind", quote r.kind) :: textMember "value" r.value ++ childrenMember (jsons r.children) ++
    textMember "markup" r.markup ++ textMember "id" r.id ++ textMember "expected" r.expected ++
    textMember "payload" r.payload ++ placementMember r.placement ++
    continuationMember r.continuation

theorem json_eq (r : Record) : r.json = object r.members := by
  cases r
  rw [json]
  rfl

theorem begun_json (r : Record) : Begun r.json := by
  rw [json_eq]
  exact begun_object _

theorem keys_textMember (key : String) (v : Option String) :
    ((textMember key v).map Prod.fst).Sublist [key] := by
  cases v <;> simp [textMember]

theorem keys_childrenMember (children : List (List Char)) :
    ((childrenMember children).map Prod.fst).Sublist ["children"] := by
  unfold childrenMember
  split <;> simp

theorem keys_placementMember (p : Placement) :
    ((placementMember p).map Prod.fst).Sublist ["placement"] := by
  cases p <;> simp [placementMember]

theorem keys_continuationMember (c : Continuation) :
    ((continuationMember c).map Prod.fst).Sublist ["continuation"] := by
  cases c <;> simp [continuationMember]

theorem nodup_members (r : Record) : (r.members.map Prod.fst).Nodup := by
  have hsub : (r.members.map Prod.fst).Sublist (["kind"] ++ ["value"] ++ ["children"] ++
      ["markup"] ++ ["id"] ++ ["expected"] ++ ["payload"] ++ ["placement"] ++
      ["continuation"]) := by
    simp only [members, List.map_append, List.map_cons]
    exact ((((((((List.Sublist.refl ["kind"]).append (keys_textMember _ _)).append
      (keys_childrenMember _)).append (keys_textMember _ _)).append (keys_textMember _ _)).append
      (keys_textMember _ _)).append (keys_textMember _ _)).append (keys_placementMember _)).append
      (keys_continuationMember _)
  exact List.Nodup.sublist hsub (by decide)

section Filling

variable {child : Reader Record} {room : Nat}

theorem stores_children {s : Record} (hs : s.children = []) (children : List Record)
    (hroom : children ≠ [] → 0 < room) (h : ∀ c ∈ children, Reads child c.json c) :
    Stores (schema child room) s (childrenMember (jsons children))
      { s with children := children } := by
  cases children with
  | nil =>
    have heq : { s with children := [] } = s := by
      cases s
      cases hs
      rfl
    rw [heq]
    exact .nil s
  | cons c cs =>
    obtain ⟨n, rfl⟩ : ∃ n, room = n + 1 := Nat.exists_eq_add_one.2 (hroom (by simp))
    have hread : Reads (list (n + 1) fun _ => child) (array ((c :: cs).map json)) (c :: cs) :=
      reads_list (fun c _ => begun_json c) h
    have hfield : (schema child (n + 1)).fields.find? (·.name == "children") =
        some (.optional "children" (list (n + 1) fun _ => child)
          fun r children => { r with children := children }) := rfl
    rw [jsons_eq_map]
    exact .optional hfield hread

/-- **The members of a record fill it,** if its children are read. -/
theorem stores_members (r : Record) (hroom : r.children ≠ [] → 0 < room)
    (h : ∀ c ∈ r.children, Reads child c.json c) :
    Stores (schema child room) (schema child room).defaults r.members r := by
  obtain ⟨kind, value, children, markup, id, expected, payload, placement, continuation⟩ := r
  have hkind : Stores (schema child room) (schema child room).defaults [("kind", quote kind)]
      (bare kind .default) := by
    refine .single rfl fun rest => ?_
    simp only [SchemaField.needed, SchemaField.optional, reads_quote kind rest, Except.map]
    rfl
  have hvalue : Stores (schema child room) _ _
      ⟨kind, value, [], none, none, none, none, .inline, .goOn⟩ :=
    hkind.append (stores_text "value" rfl rfl rfl)
  have hchildren : Stores (schema child room) _ _
      ⟨kind, value, children, none, none, none, none, .inline, .goOn⟩ :=
    hvalue.append (stores_children rfl children hroom h)
  have hmarkup : Stores (schema child room) _ _
      ⟨kind, value, children, markup, none, none, none, .inline, .goOn⟩ :=
    hchildren.append (stores_text "markup" rfl rfl rfl)
  have hid : Stores (schema child room) _ _
      ⟨kind, value, children, markup, id, none, none, .inline, .goOn⟩ :=
    hmarkup.append (stores_text "id" rfl rfl rfl)
  have hexpected : Stores (schema child room) _ _
      ⟨kind, value, children, markup, id, expected, none, .inline, .goOn⟩ :=
    hid.append (stores_text "expected" rfl rfl rfl)
  have hpayload : Stores (schema child room) _ _
      ⟨kind, value, children, markup, id, expected, payload, .inline, .goOn⟩ :=
    hexpected.append (stores_text "payload" rfl rfl rfl)
  have hplacement : Stores (schema child room) _ _
      ⟨kind, value, children, markup, id, expected, payload, placement, .goOn⟩ :=
    hpayload.append (stores_placement rfl rfl rfl)
  exact hplacement.append (stores_continuation rfl rfl rfl)

theorem reads_readWith (r : Record) (hroom : r.children ≠ [] → 0 < room)
    (h : ∀ c ∈ r.children, Reads child c.json c) : Reads (readWith child (room + 1)) r.json r := by
  rw [json_eq]
  refine reads_object (stores_members r hroom h) (nodup_members r) ?_
  intro field hfield hrequired
  simp only [schema, List.mem_cons, List.not_mem_nil, or_false] at hfield
  rcases hfield with rfl | rfl | rfl | rfl | rfl | rfl | rfl | rfl | rfl
  · exact List.mem_cons_self
  all_goals cases hrequired

end Filling

/-! ## Records of bounded depth -/

/-- **A record is read back from its written form,** with two brackets for each level below it. -/
theorem reads_json (r : Record) {room : Nat} (h : 2 * r.depth + 1 ≤ room) :
    Reads (read room) r.json r := by
  induction r using Record.induction generalizing room with
  | h r ih =>
    have hchild : ∀ c ∈ r.children, c.depth < r.depth :=
      levels_le_iff.1 (Nat.le_of_eq r.depth_eq.symm)
    match room with
    | 0 => omega
    -- no bracket is left for a list of children, and a record of depth zero has none
    | 1 =>
      refine reads_readWith r (fun hne => ?_) (fun c hc => ?_)
      · obtain ⟨c, hc⟩ := List.exists_mem_of_ne_nil _ hne
        have := hchild c hc
        omega
      · have := hchild c hc
        omega
    | room + 2 =>
      refine reads_readWith r (fun _ => Nat.succ_pos room) (fun c hc => ih c hc ?_)
      have := hchild c hc
      omega

theorem depth_of_readWith {child : Reader Record} {room : Nat}
    (h : ∀ n, room = n + 1 → Yields child fun c => 2 * c.depth + 2 ≤ n) :
    Yields (readWith child room) fun r => 2 * r.depth + 1 ≤ room := by
  have hkept : Yields (readWith child room) fun r => 2 * levels r.children + 1 ≤ room := by
    refine yields_structure (fun n hn => ?_) (fun n hn field hfield => ?_)
    · simp [schema, bare, levels, hn]
    · simp only [schema, List.mem_cons, List.not_mem_nil, or_false] at hfield
      rcases hfield with rfl | rfl | rfl | rfl | rfl | rfl | rfl | rfl | rfl
      · exact yields_needed "kind" (yields_true _) fun _ _ hs _ => hs
      · exact yields_optional "value" (yields_true _) fun _ _ hs _ => hs
      · refine yields_optional "children" (yields_list fun _ _ => h n hn) fun s children _ hc => ?_
        have : levels children ≤ n / 2 :=
          levels_le_iff.2 fun c hmem => by have := hc c hmem; omega
        dsimp only
        omega
      · exact yields_optional "markup" (yields_true _) fun _ _ hs _ => hs
      · exact yields_optional "id" (yields_true _) fun _ _ hs _ => hs
      · exact yields_optional "expected" (yields_true _) fun _ _ hs _ => hs
      · exact yields_optional "payload" (yields_true _) fun _ _ hs _ => hs
      · exact yields_optional "placement" (yields_true _) fun _ _ hs _ => hs
      · exact yields_optional "continuation" (yields_true _) fun _ _ hs _ => hs
  intro cs r rest hread
  rw [depth_eq]
  exact hkept cs r rest hread

/-- **No record that is read is deeper** than the brackets that can be opened allow. -/
theorem depth_of_read : ∀ room, Yields (read room) fun r => 2 * r.depth + 1 ≤ room
  | 0 => depth_of_readWith fun _ hn => nomatch hn
  | 1 => depth_of_readWith fun _ _ _ _ _ hread => nomatch hread
  | room + 2 => depth_of_readWith fun n hn cs r rest hread => by
    have := depth_of_read room cs r rest hread
    omega

end Record

end MathQuiz

/-! ## Questions -/

namespace MathQuiz.Question

open Json Record

/-- The identifiers of all slots are not blank, no unrecognized leaf has the name of a known kind,
and no node lies more than 62 levels below a top-level node. -/
structure Storable (q : Question) : Prop where
  named : ∀ slot ∈ q.slots, Text.blankOnly slot.id = false
  unknown : ∀ name, .unrecognized name ∈ leavesOf q.nodes → ∀ kind : Kind, name ≠ kind.tag
  shallow : ∀ node ∈ q.nodes, node.depth ≤ 62

theorem ofTag?_eq_none_iff {name : String} :
    Kind.ofTag? name = none ↔ ∀ kind : Kind, name ≠ kind.tag := by
  simp only [Option.eq_none_iff_forall_ne_some, ne_eq, Kind.ofTag?_eq_some_iff]

theorem storable_iff {q : Question} :
    q.Storable ↔ (∀ leaf ∈ leavesOf q.nodes, leaf.Sound) ∧ ∀ node ∈ q.nodes, node.depth ≤ 62 := by
  constructor
  · rintro ⟨hnamed, hunknown, hshallow⟩
    refine ⟨fun leaf hleaf => ?_, hshallow⟩
    cases leaf with
    | input slot => exact hnamed slot (mem_slotsOf.2 hleaf)
    | unrecognized name => exact ofTag?_eq_none_iff.2 (hunknown name hleaf)
    | text | decimal | rich => trivial
  · rintro ⟨hsound, hshallow⟩
    exact ⟨fun slot hslot => hsound _ (mem_slotsOf.1 hslot),
      fun name hname => ofTag?_eq_none_iff.1 (hsound _ hname), hshallow⟩

/-! ### Loading -/

theorem value_load (text : String) : (load text).value =
    match Checked.outcome (toNodes (records text).state) with
    | .error e => .error (.shape e)
    | .ok nodes =>
      match (records text).ending.bind (finish ⟨nodes⟩) with
      | .error f => .error (.text f)
      | .ok q => .ok q := by
  rw [load, Logged.value_bind]
  change Logged.value (match Checked.outcome (toNodes (records text).state) with
    | .error e => _ | .ok nodes => _) = _
  cases Checked.outcome (toNodes (records text).state) with
  | error e => rfl
  | ok nodes =>
    simp only
    cases (records text).ending.bind (finish (⟨nodes⟩ : Question)) with
    | error f => rfl
    | ok q => rfl

/-- **A loaded question has the trees of the records of its text,** behind which are only blanks. -/
theorem load_eq_ok_iff {text : String} {q : Question} :
    (load text).value = .ok q ↔ Checked.outcome (toNodes (records text).state) = .ok q.nodes ∧
      ∃ rest, (records text).ending = .ok rest ∧ (skipBlanks rest).isEmpty = true := by
  rw [value_load]
  constructor
  · intro h
    split at h
    · cases h
    · next nodes hnodes =>
      split at h
      · cases h
      · next q' hq' =>
        cases h
        obtain ⟨rest, hrest, hfinish⟩ := bind_eq_ok.1 hq'
        rw [finish] at hfinish
        split at hfinish
        · next hempty =>
          cases hfinish
          exact ⟨hnodes, rest, hrest, hempty⟩
        · cases hfinish
  · rintro ⟨hnodes, rest, hrest, hempty⟩
    simp only [hnodes, hrest, Except.bind, finish, hempty, if_true]

theorem depth_of_records (text : String) : ∀ r ∈ (records text).state, r.depth ≤ 62 := by
  rw [records]
  split
  · have hread : Yields (read (maxOpen - 1)) fun r => r.depth ≤ 62 := by
      intro cs r rest h
      have := depth_of_read (maxOpen - 1) cs r rest h
      simp only [maxOpen] at this
      omega
    exact bracketed_state (yields_nextItem hread) (by simp) _
  · simp

/-- **Every question that is read is storable.** -/
theorem storable_of_load {text : String} {q : Question} (h : (load text).value = .ok q) :
    q.Storable := by
  have hnodes := toNodes_eq_ok_iff.1 (load_eq_ok_iff.1 h).1
  refine storable_iff.2 ⟨fun leaf hleaf => ?_, fun node hnode => ?_⟩
  · obtain ⟨node, hnode, hleaf⟩ := mem_leavesOf.1 hleaf
    obtain ⟨r, -, hr⟩ := forall₂_exists_left hnodes hnode
    exact sound_of_toNode hr leaf hleaf
  · obtain ⟨r, hmem, hr⟩ := forall₂_exists_left hnodes hnode
    exact Nat.le_trans (depth_of_toNode hr) (depth_of_records text r hmem)

/-! ### Saving -/

/-- The JSON array of some records. -/
def listed (rs : List Record) : String := String.ofList (array (jsons rs))

theorem reads_of_depth_le {r : Record} (h : r.depth ≤ 62) :
    Reads (read (maxOpen - 1)) r.json r := by
  refine reads_json r ?_
  simp only [maxOpen]
  omega

theorem records_listed {rs : List Record} (h : ∀ r ∈ rs, r.depth ≤ 62) :
    records (listed rs) = ⟨rs, .ok []⟩ := by
  have hpass := bracketed_passes (.inl rfl)
    (passes_nextItem (fun r hr => reads_of_depth_le (h r hr)) [])
    (by simpa using fun r _ => begun_json r) []
  rw [records, listed, jsons_eq_map, String.toList_ofList, array, List.cons_append,
    skipBlanks_cons (by rfl)]
  exact hpass

theorem records_json {q : Question} (h : ∀ node ∈ q.nodes, node.depth ≤ 62) :
    records q.json = ⟨ofNodes q.nodes, .ok []⟩ := by
  refine records_listed fun r hr => ?_
  rw [ofNodes_eq_map] at hr
  obtain ⟨node, hnode, rfl⟩ := List.mem_map.1 hr
  rw [depth_ofNode]
  exact h node hnode

/-- **Every storable question is read back from its written form.** -/
theorem load_json {q : Question} (h : q.Storable) : (load q.json).value = .ok q := by
  obtain ⟨hsound, hshallow⟩ := storable_iff.1 h
  have hnodes : Checked.outcome (toNodes (ofNodes q.nodes)) = .ok q.nodes :=
    toNodes_ofNodes fun node hnode => toNode_ofNode node fun leaf hleaf =>
      hsound leaf (mem_leavesOf.2 ⟨node, hnode, hleaf⟩)
  rw [load_eq_ok_iff, records_json hshallow]
  exact ⟨hnodes, [], rfl, rfl⟩

end MathQuiz.Question

/-! ## Which questions survive saving -/

namespace MathQuiz

/-- The text of a node tells what it is: an input has an identifier that is not blank, and the name
of an unrecognized kind is not that of a known one. -/
def Node.Told : Node → Prop
  | .leaf (.input slot) _ => Text.trim slot.id ≠ ""
  | .leaf (.unrecognized name) _ => ∀ kind : Kind, name ≠ kind.tag
  | .leaf (.text _) _ | .leaf (.decimal _) _ | .leaf (.rich _) _ | .pair .. | .run .. => True

namespace Question

theorem told_leaf_iff {leaf : Leaf} {hints : Hints} :
    (Node.leaf leaf hints).Told ↔ leaf.Sound := by
  cases leaf with
  | input slot => simp [Node.Told, Leaf.Sound, Text.trim_eq_empty_iff]
  | unrecognized name => exact ofTag?_eq_none_iff.symm
  | text | decimal | rich => exact Iff.rfl

theorem told_below_iff {root : Node} :
    (∀ n node, root.Below n node → node.Told) ↔ ∀ leaf ∈ root.leaves, leaf.Sound := by
  constructor
  · intro h leaf hleaf
    obtain ⟨n, hints, hbelow⟩ := Node.mem_leaves_iff_below.1 hleaf
    exact told_leaf_iff.1 (h n _ hbelow)
  · intro h n node hbelow
    cases node with
    | leaf content hints =>
      exact told_leaf_iff.2 (h content (Node.mem_leaves_iff_below.2 ⟨n, hints, hbelow⟩))
    | pair | run => trivial

theorem storable_iff_below {q : Question} : q.Storable ↔
    ∀ root ∈ q.nodes, ∀ n node, root.Below n node → n ≤ 62 ∧ node.Told := by
  rw [storable_iff]
  constructor
  · rintro ⟨hsound, hshallow⟩ root hroot n node hbelow
    have htold : ∀ n node, root.Below n node → node.Told :=
      told_below_iff.2 fun leaf hleaf => hsound leaf (mem_leavesOf.2 ⟨root, hroot, hleaf⟩)
    exact ⟨Node.depth_le_iff_below.1 (hshallow root hroot) n node hbelow, htold n node hbelow⟩
  · intro h
    constructor
    · intro leaf hleaf
      obtain ⟨root, hroot, hleaf⟩ := mem_leavesOf.1 hleaf
      exact told_below_iff.1 (fun n node hbelow => (h root hroot n node hbelow).2) leaf hleaf
    · intro root hroot
      exact Node.depth_le_iff_below.2 fun n node hbelow => (h root hroot n node hbelow).1

/-- **Which questions survive saving:** those with identifiers that are not blank, no unrecognized
leaf of a known kind, and no node more than 62 levels below a top-level one. -/
theorem load_json_iff (q : Question) :
    ((load q.json).value = .ok q ↔
      ∀ root ∈ q.nodes, ∀ n node, root.Below n node → n ≤ 62 ∧ node.Told) ∧
    ((¬ ∀ root ∈ q.nodes, ∀ n node, root.Below n node → n ≤ 62 ∧ node.Told) →
      (∃ e, (load q.json).value = .error e) ∨
        ∃ other, (load q.json).value = .ok other ∧ other ≠ q) := by
  have hiff : (load q.json).value = .ok q ↔ q.Storable := ⟨storable_of_load, load_json⟩
  rw [storable_iff_below] at hiff
  refine ⟨hiff, fun hnot => ?_⟩
  cases hload : (load q.json).value with
  | error e => exact .inl ⟨e, rfl⟩
  | ok other =>
    refine .inr ⟨other, rfl, fun heq => hnot (hiff.1 ?_)⟩
    rw [hload, heq]

end Question

end MathQuiz
