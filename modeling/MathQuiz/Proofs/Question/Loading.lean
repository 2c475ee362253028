import MathQuiz.Proofs.Expr.Fields
import MathQuiz.Proofs.Question.SaveLoad

/-!
# What loading reports

A record can break the shape of its kind by itself, whatever its children are. Reading trees from
records looks at the children of a record before the record, goes from left to right, and ends with
the first flaw. A text is turned into nodes record by record, so this flaw is what loading reports,
whatever stands behind the record that has it.

* `Record.flaw?`: the shape that a record itself breaks;
* `Record.postorder`, `Record.mem_postorder`: the records that are looked at, in order;
* `Record.firstFlaw`, `Record.told`: the first flaw on a way along records, and what is told before;
* `Record.Along`, **`Record.along_toNodes`**: a computation that goes this way, and that reading
  trees is one;
* `Question.load_of_flaw`: a flaw of the records that are read first decides;
* `Question.Spells`, `Question.begun`: the texts of some records, and those that go on in any way;
* **`Question.load_first_flaw`**: loading the list of any records.
-/

namespace MathQuiz

namespace Record

open Checked

theorem required_eq_error_iff {kind : Kind} {field : RequiredField} {value : Option String}
    {e : ShapeError} : required kind field value = .error e ↔
      value = none ∧ e = .missingField kind field := by
  cases value <;> simp [required, eq_comm]

/-! ## Flaws and the way along records -/

/-- The flaw of a field that should be there. -/
def lacking? (kind : Kind) (field : RequiredField) (value : Option String) : Option ShapeError :=
  if value.isNone then some (.missingField kind field) else none

/-- The flaw of children that should be two. -/
def uncoupled? (kind : Kind) (children : List Record) : Option ShapeError :=
  if children.length = 2 then none else some (.childCount kind children.length)

/-- **The shape that a record itself breaks,** whatever its children are. An input lacks its
identifier before it lacks its expected answer, and that before its identifier is blank. -/
def flaw? (r : Record) : Option ShapeError :=
  match Kind.ofTag? r.kind with
  | some .text => lacking? .text .value r.value
  | some .decimal => lacking? .decimal .value r.value
  | some .rich => lacking? .rich .payload r.payload
  | some .input =>
    (lacking? .input .id r.id).or <| (lacking? .input .expected r.expected).or <|
      if r.id.any Text.blankOnly then some .blankInputId else none
  | some .fraction => uncoupled? .fraction r.children
  | some .exponent => uncoupled? .exponent r.children
  | some .algebraic | some .equation | none => none

mutual

/-- The records that are looked at, children before their parent and from left to right. Children
that the kind does not use are not among them. -/
def postorder : Record → List Record
  | ⟨kind, value, children, markup, id, expected, payload, placement, continuation⟩ =>
    (if uses kind .children then postorderAll children else []) ++
      [⟨kind, value, children, markup, id, expected, payload, placement, continuation⟩]

/-- The records that are looked at when some records are read from left to right. -/
def postorderAll : List Record → List Record
  | [] => []
  | r :: rs => postorder r ++ postorderAll rs

end

theorem postorder_eq (r : Record) : r.postorder =
    (if uses r.kind .children then postorderAll r.children else []) ++ [r] := by
  cases r
  rw [postorder]

theorem postorder_of_kind {r : Record} {k : Kind} (hkind : Kind.ofTag? r.kind = some k) :
    r.postorder = (if .children ∈ k.parts then postorderAll r.children else []) ++ [r] := by
  rw [postorder_eq, uses, hkind, Option.any_some]
  simp only [decide_eq_true_eq]

theorem postorderAll_eq_flatMap (rs : List Record) : postorderAll rs = rs.flatMap postorder := by
  induction rs with
  | nil => rfl
  | cons r rs ih => rw [postorderAll, ih, List.flatMap_cons]

/-- **The order has exactly the records that are looked at.** -/
theorem mem_postorder {r v : Record} : v ∈ r.postorder ↔ r.Visits v := by
  induction r using Record.induction with
  | h r ih =>
    have hchildren : v ∈ (if uses r.kind .children then postorderAll r.children else []) ↔
        uses r.kind .children = true ∧ ∃ c ∈ r.children, c.Visits v := by
      cases uses r.kind .children with
      | false => simp
      | true =>
        simp only [if_true, postorderAll_eq_flatMap, List.mem_flatMap, true_and]
        exact exists_congr fun c => and_congr_right fun hc => ih c hc
    rw [postorder_eq, List.mem_append, hchildren, List.mem_singleton]
    constructor
    · rintro (⟨huses, c, hc, hvisits⟩ | rfl)
      · exact .child huses hc hvisits
      · exact .self v
    · intro hvisits
      cases hvisits with
      | self => exact .inr rfl
      | child huses hc hvisits => exact .inl ⟨huses, _, hc, hvisits⟩

theorem mem_postorderAll {rs : List Record} {v : Record} :
    v ∈ postorderAll rs ↔ ∃ r ∈ rs, r.Visits v := by
  simp only [postorderAll_eq_flatMap, List.mem_flatMap, mem_postorder]

/-- The notice about a record of an unknown kind. -/
def notice? (r : Record) : Option Notice :=
  if (Kind.ofTag? r.kind).isNone then some (.unknownRecord r.kind) else none

/-- The first flaw on the way along some records. -/
def firstFlaw (way : List Record) : Option ShapeError := way.findSome? flaw?

/-- What is told on the way along some records: each unknown kind before the first flaw. -/
def told (way : List Record) : List Notice := (way.takeWhile (·.flaw?.isNone)).filterMap notice?

theorem firstFlaw_cons (r : Record) (way : List Record) :
    firstFlaw (r :: way) = r.flaw?.or (firstFlaw way) := by
  rw [firstFlaw, List.findSome?_cons]
  cases r.flaw? <;> rfl

theorem told_cons (r : Record) (way : List Record) :
    told (r :: way) = if r.flaw?.isNone then r.notice?.toList ++ told way else [] := by
  rw [told, List.takeWhile_cons]
  cases r.flaw?.isNone with
  | false => rfl
  | true =>
    simp only [if_true, List.filterMap_cons, told]
    cases r.notice? <;> rfl

theorem firstFlaw_eq_none_iff {way : List Record} :
    firstFlaw way = none ↔ ∀ r ∈ way, r.flaw? = none :=
  List.findSome?_eq_none_iff

theorem firstFlaw_append (way more : List Record) :
    firstFlaw (way ++ more) = (firstFlaw way).or (firstFlaw more) :=
  List.findSome?_append

theorem told_append (way more : List Record) :
    told (way ++ more) = told way ++ if (firstFlaw way).isNone then told more else [] := by
  induction way with
  | nil => rfl
  | cons r way ih =>
    rw [List.cons_append, told_cons, told_cons, firstFlaw_cons, ih]
    cases r.flaw? <;> simp

/-! ## Computations along records -/

variable {α β : Type}

/-- **The computation goes along the records:** it fails with their first flaw, if they have one,
and tells what is told on the way. -/
structure Along (x : Checked α) (way : List Record) : Prop where
  error_iff : ∀ e, outcome x = .error e ↔ firstFlaw way = some e
  notices_eq : x.run.notices = told way

theorem notices_bind (x : Checked α) (f : α → Checked β) :
    (x >>= f).run.notices = x.run.notices ++
      match outcome x with
      | .ok a => (f a).run.notices
      | .error _ => [] := by
  unfold outcome
  rw [ExceptT.run_bind, Logged.notices_bind]
  cases x.run.value <;> rfl

namespace Along

theorem pure (a : α) : Along (pure a : Checked α) [] := ⟨fun e => by simp [firstFlaw], rfl⟩

theorem eq_none_of_ok {x : Checked α} {way : List Record} {a : α} (h : Along x way)
    (ha : outcome x = .ok a) : firstFlaw way = none := by
  cases hflaw : firstFlaw way with
  | none => rfl
  | some e =>
    rw [(h.error_iff e).2 hflaw] at ha
    cases ha

theorem ok_iff {x : Checked α} {way : List Record} (h : Along x way) :
    (∃ a, outcome x = .ok a) ↔ firstFlaw way = none := by
  constructor
  · rintro ⟨a, ha⟩
    exact h.eq_none_of_ok ha
  · intro hnone
    cases hx : outcome x with
    | ok a => exact ⟨a, rfl⟩
    | error e =>
      rw [(h.error_iff e).1 hx] at hnone
      cases hnone

/-- One computation after another goes along the records of both. -/
theorem bind {x : Checked α} {f : α → Checked β} {way more : List Record} (h : Along x way)
    (hf : ∀ a, outcome x = .ok a → Along (f a) more) : Along (x >>= f) (way ++ more) := by
  cases hx : outcome x with
  | error e =>
    have hflaw := (h.error_iff e).1 hx
    constructor
    · intro e'
      rw [outcome_bind, hx, firstFlaw_append, hflaw]
      exact Iff.of_eq (by simp [Bind.bind, Except.bind])
    · rw [notices_bind, hx, told_append, hflaw, h.notices_eq]
      rfl
  | ok a =>
    have hflaw := h.eq_none_of_ok hx
    have hmore := hf a hx
    constructor
    · intro e'
      rw [outcome_bind, hx, firstFlaw_append, hflaw]
      exact hmore.error_iff e'
    · rw [notices_bind, hx, told_append, hflaw, h.notices_eq, ← hmore.notices_eq]
      rfl

theorem bind_pure {x : Checked α} {way : List Record} (h : Along x way) (f : α → β) :
    Along (x >>= fun a => Pure.pure (f a)) way := by
  have hbind := h.bind fun a _ => Along.pure (f a)
  rwa [List.append_nil] at hbind

end Along

theorem length_of_toNodes {rs : List Record} {nodes : List Node}
    (h : outcome (toNodes rs) = .ok nodes) : nodes.length = rs.length :=
  (toNodes_eq_ok_iff.1 h).length_eq.symm

theorem along_lift {e : Except ShapeError α} {r : Record} {k : Kind}
    (hkind : Kind.ofTag? r.kind = some k) (h : ∀ err, e = .error err ↔ r.flaw? = some err) :
    Along (liftM e : Checked α) [r] := by
  constructor
  · intro err
    rw [outcome_lift, h, firstFlaw, List.findSome?_singleton]
  · have hnotices : (liftM e : Checked α).run.notices = [] := by cases e <;> rfl
    rw [hnotices, told, List.takeWhile_cons]
    split <;> simp [notice?, hkind]

/-! ## Trees of records -/

section Kinds

variable {r : Record}

theorem along_required {k : Kind} {field : RequiredField} {value : Option String}
    (hkind : Kind.ofTag? r.kind = some k) (hflaw : r.flaw? = lacking? k field value) :
    Along (liftM (required k field value)) [r] := by
  refine along_lift hkind fun e => ?_
  rw [required_eq_error_iff, hflaw, lacking?]
  cases value <;> simp [eq_comm]

theorem along_input (hkind : Kind.ofTag? r.kind = some .input) (hints : Hints) :
    Along (do
      let id ← liftM (required .input .id r.id)
      let expected ← liftM (required .input .expected r.expected)
      liftM (Node.input? id expected hints)) [r] := by
  have hlift : (do
      let id ← liftM (required .input .id r.id)
      let expected ← liftM (required .input .expected r.expected)
      liftM (Node.input? id expected hints) : Checked Node) = liftM (do
        let id ← required .input .id r.id
        let expected ← required .input .expected r.expected
        Node.input? id expected hints) := by
    cases r.id <;> cases r.expected <;> rfl
  rw [hlift]
  refine along_lift hkind fun e => ?_
  rw [flaw?, hkind]
  cases r.id with
  | none => simp [required, lacking?, bind, Except.bind]
  | some id =>
    cases r.expected with
    | none => simp [required, lacking?, bind, Except.bind]
    | some expected =>
      change Node.input? id expected hints = .error e ↔ _
      rw [Node.input?_eq_error_iff]
      cases hblank : Text.blankOnly id <;> simp [lacking?, hblank, eq_comm]

theorem along_pair {op : Pairing} (hkind : Kind.ofTag? r.kind = some op.kind)
    (h : Along (toNodes r.children) (postorderAll r.children)) (markup : Option String)
    (hints : Hints) :
    Along (toNodes r.children >>= fun nodes => liftM (Node.pair? op nodes markup hints))
      (postorderAll r.children ++ [r]) := by
  refine h.bind fun nodes hnodes => along_lift hkind fun e => ?_
  have hflaw : r.flaw? = uncoupled? op.kind r.children := by
    rw [flaw?, hkind]
    cases op <;> rfl
  rw [Node.pair?_eq_error_iff, length_of_toNodes hnodes, hflaw, uncoupled?]
  split <;> simp_all [eq_comm]

theorem along_run {k : Kind} (hkind : Kind.ofTag? r.kind = some k) (hflaw : r.flaw? = none)
    (h : Along (toNodes r.children) (postorderAll r.children)) (f : List Node → Node) :
    Along (toNodes r.children >>= fun nodes => pure (f nodes))
      (postorderAll r.children ++ [r]) := by
  refine h.bind fun nodes _ => ?_
  have hok : Along (liftM (.ok (f nodes) : Except ShapeError Node) : Checked Node) [r] :=
    along_lift hkind fun e => by simp [hflaw]
  exact hok

theorem along_tell (hkind : Kind.ofTag? r.kind = none) :
    Along (liftM (Logged.tell (.unknownRecord r.kind)) : Checked Unit) [r] := by
  have hflaw : r.flaw? = none := by rw [flaw?, hkind]
  constructor
  · intro e
    simp [hflaw, firstFlaw]
  · rw [told_cons, hflaw, notice?, hkind]
    rfl

end Kinds

theorem along_toNodes_of {rs : List Record} (h : ∀ r ∈ rs, Along (toNode r) r.postorder) :
    Along (toNodes rs) (postorderAll rs) := by
  induction rs with
  | nil => exact .pure []
  | cons r rs ih =>
    obtain ⟨hfirst, hrest⟩ := List.forall_mem_cons.1 h
    rw [toNodes, postorderAll]
    exact hfirst.bind fun node _ => (ih hrest).bind_pure fun nodes => node :: nodes

/-- **Reading a tree goes along what is looked at** below its record. -/
theorem along_toNode (r : Record) : Along (toNode r) r.postorder := by
  induction r using Record.induction with
  | h r ih =>
    have hchildren := along_toNodes_of ih
    obtain ⟨kind, value, children, markup, id, expected, payload, placement, continuation⟩ := r
    rw [toNode]
    split
    -- the kinds in the order of `toNode`, those that are read in one way together
    case h_1 hkind | h_2 hkind | h_8 hkind =>
      rw [postorder_of_kind hkind]
      exact (along_required hkind (by rw [flaw?, hkind])).bind_pure _
    case h_3 hkind | h_4 hkind =>
      rw [postorder_of_kind hkind]
      exact along_pair hkind hchildren _ _
    case h_5 hkind | h_6 hkind =>
      rw [postorder_of_kind hkind]
      exact along_run hkind (by rw [flaw?, hkind]) hchildren _
    case h_7 hkind =>
      rw [postorder_of_kind hkind]
      exact along_input (r := ⟨kind, value, children, markup, id, expected, payload, placement,
        continuation⟩) hkind _
    case h_9 hkind =>
      rw [postorder_eq, uses_eq_false hkind]
      exact (along_tell (r := ⟨kind, value, children, markup, id, expected, payload, placement,
        continuation⟩) hkind).bind_pure _

/-- **Reading trees goes along what is looked at.** -/
theorem along_toNodes (rs : List Record) : Along (toNodes rs) (postorderAll rs) :=
  along_toNodes_of fun r _ => along_toNode r

end Record

end MathQuiz

/-! ## Loading -/

namespace MathQuiz.Question

open Json Record

/-! ### Any text -/

theorem notices_load (text : String) :
    (load text).notices = told (postorderAll (records text).state) := by
  have htold := (along_toNodes (records text).state).notices_eq
  unfold load
  rw [Logged.notices_bind, htold, List.append_right_eq_self]
  split
  · rfl
  · split <;> rfl

theorem prefix_postorderAll {front rs : List Record} (h : front <+: rs) :
    postorderAll front <+: postorderAll rs := by
  obtain ⟨back, rfl⟩ := h
  rw [postorderAll_eq_flatMap, postorderAll_eq_flatMap, List.flatMap_append]
  exact List.prefix_append _ _

/-- **A flaw of the records that are read first decides,** and nothing behind it is told. -/
theorem load_of_flaw {text : String} {front : List Record} {e : ShapeError}
    (hfront : front <+: (records text).state) (hflaw : firstFlaw (postorderAll front) = some e) :
    load text = ⟨.error (.shape e), told (postorderAll front)⟩ := by
  obtain ⟨behind, hway⟩ := prefix_postorderAll hfront
  have hfirst : firstFlaw (postorderAll (records text).state) = some e := by
    rw [← hway, firstFlaw_append, hflaw, Option.some_or]
  have hfails := ((along_toNodes _).error_iff e).2 hfirst
  refine Logged.ext_iff.2 ⟨?_, ?_⟩
  · rw [value_load, hfails]
  · rw [notices_load, ← hway, told_append, hflaw]
    exact List.append_nil _

theorem nodes_of_load {text : String} {q : Question} (h : (load text).value = .ok q) :
    List.Forall₂ (fun r node => ofNode node = r.cleaned) (records text).state q.nodes :=
  (toNodes_eq_ok_iff.1 (load_eq_ok_iff.1 h).1).imp fun _ _ hnode => ofNode_of_toNode hnode

/-! ### Lists of records -/

/-- The text is a list of these records, however they are spelled, and nothing else. -/
def Spells (text : String) (rs : List Record) : Prop :=
  ∃ rest, records text = ⟨rs, .ok rest⟩ ∧ (skipBlanks rest).isEmpty = true

theorem spells_listed {rs : List Record} (h : ∀ r ∈ rs, r.depth ≤ 62) : Spells (listed rs) rs :=
  ⟨[], records_listed h, rfl⟩

theorem load_ok_iff {text : String} {rs : List Record} (h : Spells text rs) :
    (∃ q, (load text).value = .ok q) ↔ firstFlaw (postorderAll rs) = none := by
  obtain ⟨rest, hread, hrest⟩ := h
  rw [← (along_toNodes rs).ok_iff]
  simp only [load_eq_ok_iff, hread]
  constructor
  · rintro ⟨q, hnodes, -⟩
    exact ⟨q.nodes, hnodes⟩
  · rintro ⟨nodes, hnodes⟩
    exact ⟨⟨nodes⟩, hnodes, rest, rfl, hrest⟩

/-- The text that begins as the list of some records and goes on in any way behind the last one. -/
def begun (rs : List Record) (rest : List Char) : String :=
  String.ofList ('[' :: commaSeparated (jsons rs) ++ rest)

theorem records_begun {rs : List Record} (h : ∀ r ∈ rs, r.depth ≤ 62) (rest : List Char) :
    rs <+: (records (begun rs rest)).state := by
  have hpass : Passes (nextItem (read (maxOpen - 1))) [] (rs.map Record.json) rs :=
    passes_nextItem (fun r hr => reads_of_depth_le (h r hr)) []
  have hkept : ∀ s : List Record, rs <+: s →
      Yields (nextItem (read (maxOpen - 1)) s) fun s' => rs <+: s' := by
    intro s hs cs s' rest' hread
    obtain ⟨⟨r, rest''⟩, -, heq⟩ := map_eq_ok.1 hread
    cases heq
    exact hs.trans (List.prefix_append s [r])
  rw [records, begun, jsons_eq_map, String.toList_ofList, List.cons_append,
    skipBlanks_cons (by rfl)]
  exact bracketed_begins hkept (.inl rfl) hpass (by simpa using fun r _ => begun_json r)
    (List.prefix_refl rs) rest

theorem level_of_mem_told {way : List Record} {n : Notice} (h : n ∈ told way) :
    n.level = .debug := by
  obtain ⟨r, -, hnotice⟩ := List.mem_filterMap.1 h
  unfold notice? at hnotice
  split at hnotice
  · cases hnotice
    rfl
  · cases hnotice

/-- **Loading reports the first flaw** on the way along the records, children before parents, with
the unknown kinds met up to there, whatever follows. -/
theorem load_first_flaw (rs : List Record) (h : ∀ r ∈ rs, r.depth ≤ 62) :
    Spells (listed rs) rs ∧ ∀ text, Spells text rs →
      ((∃ q, (load text).value = .ok q) ↔ ∀ r ∈ rs, ∀ v, r.Visits v → v.flaw? = none) ∧
      (∀ q, (load text).value = .ok q →
        List.Forall₂ (fun r node => ofNode node = r.cleaned) rs q.nodes) ∧
      (∀ e, firstFlaw (postorderAll rs) = some e → (load text).value = .error (.shape e)) ∧
      (load text).notices = told (postorderAll rs) ∧
      (∀ n ∈ (load text).notices, n.level = .debug) ∧
      ∀ front, front <+: rs → (firstFlaw (postorderAll front)).isSome →
        ∀ rest, load (begun front rest) = load text := by
  refine ⟨spells_listed h, fun text hspells => ?_⟩
  have hread : (records text).state = rs := by
    obtain ⟨rest, hread, -⟩ := hspells
    rw [hread]
  have hnotices : (load text).notices = told (postorderAll rs) := by
    rw [notices_load, hread]
  refine ⟨?_, fun q hq => ?_, fun e he => ?_, hnotices, fun n hn => ?_, ?_⟩
  · rw [load_ok_iff hspells, firstFlaw_eq_none_iff]
    simp only [mem_postorderAll, forall_exists_index, and_imp]
    exact ⟨fun hall r hr v hv => hall v r hr hv, fun hall v r hr hv => hall r hr v hv⟩
  · rw [← hread]
    exact nodes_of_load hq
  · rw [load_of_flaw (hread ▸ List.prefix_refl rs) he]
  · rw [hnotices] at hn
    exact level_of_mem_told hn
  · intro front hfront hsome rest
    obtain ⟨e, he⟩ := Option.isSome_iff_exists.1 hsome
    have hdepth : ∀ r ∈ front, r.depth ≤ 62 := fun r hr => h r (hfront.subset hr)
    rw [load_of_flaw (records_begun hdepth rest) he, load_of_flaw (by rwa [hread]) he]

/-- The flaw of an input comes before those of its parent and of all records behind that one, of
which the second text has only a piece. -/
theorem load_first_flaw_inner :
    let text := { bare "text" .default with value := some "x" }
    let unknown := { bare "matrix" .default with children := [bare "text" .default] }
    let slot := { bare "input" .default with id := some " " }
    let power := { bare "exponent" .default with children := [unknown, slot, text] }
    let rs := [text, power, bare "fraction" .default]
    (load (listed rs)).value = .error (.shape (.missingField .input .expected)) ∧
      (load (listed rs)).notices = [.unknownRecord "matrix"] ∧
      load (begun [text, power] ", \x7b\"kind\": fra".toList) = load (listed rs) := by
  intro text unknown slot power rs
  obtain ⟨hspells, hload⟩ := load_first_flaw rs (by decide)
  obtain ⟨-, -, hfails, hnotices, -, hbegun⟩ := hload _ hspells
  refine ⟨hfails _ (by decide), hnotices.trans (by decide), ?_⟩
  exact hbegun [text, power] ⟨[bare "fraction" .default], rfl⟩ (by decide) _

end MathQuiz.Question
