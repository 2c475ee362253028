import MathQuiz.Json.Scalar
import MathQuiz.Json.Quoted
import MathQuiz.Json.Schema

/-!
# Reading what was written

The written form of a value has no number in it, so its end shows without a look at what follows. A
reader therefore takes it off the front of any text and leaves the rest as it was. An object whose
keys are fields of a structure, each at most once, is read by storing its values in turn.

* `Reads`: a reader reads a text as a value, whatever follows;
* `Begun`, `Passes`: texts that begin like a written value, and items that lead from one state to
  another;
* **`bracketed_passes`**: items between brackets are read to the closing bracket;
* `reads_quote`, `reads_optional`, `reads_key`, `reads_oneOf`, `reads_list`: the written forms;
* `Stores`: the values of some members lead from one state of a structure to another;
* **`reads_object`**: the written object is read as the structure that its members fill.
-/

namespace MathQuiz.Json

variable {α σ : Type}

/-- The reader takes this text off the front of any text and gives this value. -/
def Reads (read : Reader α) (text : List Char) (a : α) : Prop :=
  ∀ rest, read (text ++ rest) = .ok (a, rest)

/-- The text begins with a quote or an opening bracket. -/
def Begun (text : List Char) : Prop :=
  ∃ c cs, text = c :: cs ∧ (c = '"' ∨ c = '[' ∨ c = '{')

theorem begun_quote (s : String) : Begun (quote s) := ⟨'"', _, rfl, .inl rfl⟩

theorem begun_pair (key : String) (value : List Char) : Begun (pair key value) :=
  ⟨'"', _, rfl, .inl rfl⟩

theorem begun_object (members : List (String × List Char)) : Begun (object members) :=
  ⟨'{', _, rfl, .inr (.inr rfl)⟩

theorem skipBlanks_cons {c : Char} (h : isSpace c = false) (cs : List Char) :
    skipBlanks (c :: cs) = c :: cs := by
  rw [skipBlanks, List.dropWhile_cons_of_neg (by simp [h])]

theorem skipBlanks_begun {text : List Char} (h : Begun text) (rest : List Char) :
    skipBlanks (text ++ rest) = text ++ rest := by
  obtain ⟨c, cs, rfl, hc⟩ := h
  refine skipBlanks_cons ?_ _
  rcases hc with rfl | rfl | rfl <;> rfl

theorem expect_cons {c : Char} (h : isSpace c = false) (rest : List Char) :
    expect c (c :: rest) = .ok rest := by
  simp [expect, skipBlanks_cons h]

/-! ## Items between brackets -/

/-- Reading the texts one after the other as items leads from the first state to the last. -/
inductive Passes (item : σ → Reader σ) : σ → List (List Char) → σ → Prop
  | nil (s : σ) : Passes item s [] s
  | cons {s s' s'' : σ} {text : List Char} {texts : List (List Char)} :
    Reads (item s) text s' → Passes item s' texts s'' → Passes item s (text :: texts) s''

theorem length_le_commaSeparated {texts : List (List Char)} (h : ∀ text ∈ texts, Begun text) :
    texts.length ≤ (commaSeparated texts).length := by
  induction texts with
  | nil => simp
  | cons text texts ih =>
    obtain ⟨c, cs, rfl, -⟩ := h _ List.mem_cons_self
    have := ih fun t ht => h t (List.mem_cons_of_mem _ ht)
    cases texts with
    | nil => simp [commaSeparated]
    | cons text' texts =>
      simp only [commaSeparated, List.length_append, List.length_cons] at this ⊢
      omega

theorem length_lt_commaSeparated {text : List Char} {texts : List (List Char)}
    (h : ∀ text' ∈ text :: texts, Begun text') (rest : List Char) :
    texts.length < (commaSeparated (text :: texts) ++ rest).length := by
  have := length_le_commaSeparated h
  simp only [List.length_append, List.length_cons] at this ⊢
  omega

section Items

variable {close : Char} {item : σ → Reader σ} (hclose : close = ']' ∨ close = '}')
include hclose

theorem separated_passes {text : List Char} {texts : List (List Char)} {s s' : σ} {limit : Nat}
    (h : Passes item s (text :: texts) s') (hlimit : texts.length < limit) (rest : List Char) :
    separated close item limit s (commaSeparated (text :: texts) ++ close :: rest) =
      ⟨s', .ok rest⟩ := by
  have hspace : isSpace close = false := by rcases hclose with rfl | rfl <;> rfl
  have hcomma : close ≠ ',' := by rcases hclose with rfl | rfl <;> decide
  induction texts generalizing text s limit with
  | nil =>
    obtain ⟨limit, rfl⟩ : ∃ n, limit = n + 1 := ⟨limit - 1, by simp at hlimit; omega⟩
    obtain - | ⟨hread, hnil⟩ := h
    cases hnil
    rw [commaSeparated, separated, hread]
    simp only [skipBlanks_cons hspace, if_neg hcomma, if_true]
  | cons text' texts ih =>
    obtain ⟨limit, rfl⟩ : ∃ n, limit = n + 1 := ⟨limit - 1, by simp at hlimit; omega⟩
    obtain - | ⟨hread, hmore⟩ := h
    rw [commaSeparated, List.append_assoc, separated, hread]
    simp only [List.cons_append, skipBlanks_cons (show isSpace ',' = false from rfl), if_true]
    · exact ih hmore (by simpa using hlimit)
    · exact fun h => nomatch h

theorem bracketed_cons {text : List Char} {texts : List (List Char)} {s : σ} (hbegun : Begun text)
    (rest : List Char) :
    bracketed close item s (commaSeparated (text :: texts) ++ rest) =
      separated close item (commaSeparated (text :: texts) ++ rest).length s
        (commaSeparated (text :: texts) ++ rest) := by
  obtain ⟨c, cs, hc, hne, hs⟩ : ∃ c cs, commaSeparated (text :: texts) = c :: cs ∧ c ≠ close ∧
      isSpace c = false := by
    obtain ⟨c, cs, rfl, hc⟩ := hbegun
    have hc' : c ≠ close ∧ isSpace c = false := by
      rcases hclose with rfl | rfl <;> rcases hc with rfl | rfl | rfl <;> decide
    cases texts with
    | nil => exact ⟨c, cs, rfl, hc'⟩
    | cons => exact ⟨c, _, rfl, hc'⟩
  rw [hc, List.cons_append, bracketed, skipBlanks_cons hs]
  simp only [if_neg hne]

/-- **Items between brackets are read to the closing bracket.** -/
theorem bracketed_passes {texts : List (List Char)} {s s' : σ} (h : Passes item s texts s')
    (hbegun : ∀ text ∈ texts, Begun text) (rest : List Char) :
    bracketed close item s (commaSeparated texts ++ close :: rest) = ⟨s', .ok rest⟩ := by
  cases texts with
  | nil =>
    have hspace : isSpace close = false := by rcases hclose with rfl | rfl <;> rfl
    cases h
    rw [commaSeparated, List.nil_append, bracketed, skipBlanks_cons hspace]
    simp only [if_true]
  | cons text texts =>
    rw [bracketed_cons hclose (hbegun text List.mem_cons_self)]
    exact separated_passes hclose h (length_lt_commaSeparated hbegun _) rest

end Items

/-! ## Written values -/

theorem reads_quote (s : String) : Reads string (quote s) s := by
  intro rest
  obtain ⟨hquote, hread⟩ := quoted_quote s rest
  rw [string, stringAs, skipBlanks_begun (begun_quote s), hquote]
  exact hread

theorem reads_optional (s : String) : Reads optionalString (quote s) (some s) := by
  intro rest
  obtain ⟨hquote, -⟩ := quoted_quote s rest
  have hread := reads_quote s rest
  rw [optionalString, skipBlanks_begun (begun_quote s)]
  rw [hquote] at hread ⊢
  change (string _).map _ = _
  rw [hread]
  rfl

theorem reads_key (s : String) : Reads (key codePoint) (quote s) s := by
  intro rest
  obtain ⟨hquote, hread⟩ := quoted_quote s rest
  rw [key, skipBlanks_begun (begun_quote s), hquote]
  exact hread

theorem reads_oneOf {names : List (String × α)} {name : String} {a : α} (room : Nat)
    (h : named names name = .ok a) : Reads (oneOf names room) (quote name) a := by
  intro rest
  obtain ⟨hquote, hread⟩ := quoted_quote name rest
  rw [oneOf, skipBlanks_begun (begun_quote name), hquote]
  simp only [hread, h, bind, Except.bind, pure, Except.pure]

theorem passes_nextItem {item : Reader α} {write : α → List Char} {items : List α}
    (h : ∀ a ∈ items, Reads item (write a) a) (before : List α) :
    Passes (nextItem item) before (items.map write) (before ++ items) := by
  induction items generalizing before with
  | nil => simpa using Passes.nil before
  | cons a items ih =>
    have hfirst : Reads (nextItem item before) (write a) (before ++ [a]) := by
      intro rest
      rw [nextItem, h a List.mem_cons_self]
      rfl
    have hmore := ih (fun b hb => h b (List.mem_cons_of_mem _ hb)) (before ++ [a])
    rw [List.append_assoc, List.singleton_append] at hmore
    exact .cons hfirst hmore

/-- **A list is read item by item,** if one bracket more can be opened than its items need. -/
theorem reads_list {item : Nat → Reader α} {write : α → List Char} {items : List α} {room : Nat}
    (hbegun : ∀ a ∈ items, Begun (write a)) (h : ∀ a ∈ items, Reads (item room) (write a) a) :
    Reads (list (room + 1) item) (array (items.map write)) items := by
  intro rest
  have hread := bracketed_passes (.inl rfl) (passes_nextItem h [])
    (by simpa using hbegun) rest
  rw [list, array, List.append_assoc, List.cons_append, skipBlanks_cons (by rfl)]
  simp only [opening, List.nil_append, List.singleton_append] at hread ⊢
  rw [hread]
  rfl

/-! ## Written structures -/

/-- Storing the values of the members one after the other leads from the first state to the last. -/
inductive Stores (schema : Schema σ) : σ → List (String × List Char) → σ → Prop
  | nil (s : σ) : Stores schema s [] s
  | cons {s s' s'' : σ} {name : String} {value : List Char} {members : List (String × List Char)}
    {field : SchemaField σ} : schema.fields.find? (·.name == name) = some field →
    Reads (field.store s) value s' → Stores schema s' members s'' →
    Stores schema s ((name, value) :: members) s''

namespace Stores

variable {schema : Schema σ} {s s' s'' : σ} {members more : List (String × List Char)}

theorem append (h : Stores schema s members s') (h' : Stores schema s' more s'') :
    Stores schema s (members ++ more) s'' := by
  induction h with
  | nil => exact h'
  | cons hfield hread _ ih => exact .cons hfield hread (ih h')

theorem single {name : String} {value : List Char} {field : SchemaField σ}
    (hfield : schema.fields.find? (·.name == name) = some field)
    (hread : Reads (field.store s) value s') : Stores schema s [(name, value)] s' :=
  .cons hfield hread (.nil s')

theorem optional {α : Type} {name : String} {read : Reader α} {set : σ → α → σ} {a : α}
    {text : List Char} (hfield : schema.fields.find? (·.name == name) =
      some (.optional name read set)) (hread : Reads read text a) :
    Stores schema s [(name, text)] (set s a) :=
  single hfield fun rest => by simp only [SchemaField.optional, hread rest, Except.map]

/-- No key may be among those given before, or stand twice among the members. -/
theorem passes (h : Stores schema s members s') (given : List String)
    (hnew : ∀ name ∈ members.map Prod.fst, name ∉ given) (hnodup : (members.map Prod.fst).Nodup) :
    Passes schema.member (s, given) (members.map fun (key, value) => pair key value)
      (s', (members.map Prod.fst).reverse ++ given) := by
  induction h generalizing given with
  | nil s => exact .nil (s, given)
  | @cons s s' s'' name value members field hfield hread _ ih =>
    rw [List.map_cons, List.nodup_cons] at hnodup
    have hname : name ∉ given := hnew name List.mem_cons_self
    have hfirst : Reads (schema.member (s, given)) (pair name value) (s', name :: given) := by
      intro rest
      rw [Schema.member, pair, List.append_assoc, reads_key name]
      simp only [bind, Except.bind, hfield, if_neg hname, List.cons_append,
        expect_cons (show isSpace ':' = false from rfl), hread rest]
      rfl
    have hmore := ih (name :: given)
      (fun n hn => by
        rw [List.mem_cons, not_or]
        exact ⟨fun e => hnodup.1 (e ▸ hn), hnew n (List.mem_cons_of_mem _ hn)⟩) hnodup.2
    rw [List.map_cons, List.map_cons, List.reverse_cons, List.append_assoc]
    exact .cons hfirst hmore

end Stores

/-- **A written object is read as the structure that its members fill,** if it has all required keys
once. -/
theorem reads_object {schema : Nat → Schema σ} {room : Nat} {members : List (String × List Char)}
    {s : σ} (h : Stores (schema room) (schema room).defaults members s)
    (hnodup : (members.map Prod.fst).Nodup)
    (hall : ∀ field ∈ (schema room).fields, field.required → field.name ∈ members.map Prod.fst) :
    Reads (Schema.read schema (room + 1)) (object members) s := by
  intro rest
  have hpass := bracketed_passes (.inr rfl) (h.passes [] (by simp) hnodup)
    (by
      intro text htext
      obtain ⟨⟨key, value⟩, -, rfl⟩ := List.mem_map.1 htext
      exact begun_pair key value) rest
  have hgiven : (schema room).missing? ((members.map Prod.fst).reverse ++ []) = none := by
    rw [Schema.missing?, List.find?_eq_none]
    intro field hfield
    have := hall field hfield
    grind
  rw [Schema.read, object, List.append_assoc, List.cons_append, skipBlanks_cons (by rfl)]
  simp only [opening, Schema.ofObject, List.singleton_append, hpass, Progress.toExcept, Except.map,
    hgiven]

end MathQuiz.Json
