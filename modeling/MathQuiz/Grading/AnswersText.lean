import MathQuiz.Json.Scalar
import MathQuiz.Json.Quoted

/-!
# Submitted answers

The answers of one attempt, at most one for each identifier, in the order of the identifiers by code
points. As the order is part of the type, two sets with the same answers are equal.

* `Answers`: the sets, with `Answers.get?`, `Answers.set`, `Answers.erase`, `Answers.ofList`;
* `get?_set`, `get?_erase`: what is found after a change;
* `Answers.ofText`, `Answers.text`: an object of texts, the last value of a repeated key counting,
  and the written form, in the order of the identifiers.
-/

namespace MathQuiz

/-- Answers in the order of their identifiers. -/
structure Answers where
  entries : List (String × String)
  sorted : entries.Pairwise (·.1 < ·.1)
  deriving DecidableEq

namespace Answers

def empty : Answers := ⟨[], List.Pairwise.nil⟩

/-- The answer to an identifier. -/
def get? (a : Answers) (id : String) : Option String := a.entries.lookup id

def size (a : Answers) : Nat := a.entries.length

/-! ## Setting an answer -/

/-- The entries with one set, in order. -/
def insertSorted (id value : String) : List (String × String) → List (String × String)
  | [] => [(id, value)]
  | (k, v) :: rest =>
    if id < k then (id, value) :: (k, v) :: rest
    else if id = k then (id, value) :: rest
    else (k, v) :: insertSorted id value rest

theorem mem_insertSorted {id value : String} {e : String × String} {l : List (String × String)}
    (h : e ∈ insertSorted id value l) : e = (id, value) ∨ e ∈ l := by
  induction l with
  | nil => simpa [insertSorted] using h
  | cons kv rest ih =>
    rw [insertSorted] at h
    split at h
    · simpa using h
    · split at h
      · rcases List.mem_cons.1 h with h | h
        · exact .inl h
        · exact .inr (List.mem_cons_of_mem _ h)
      · rcases List.mem_cons.1 h with h | h
        · exact .inr (h ▸ List.mem_cons_self)
        · exact (ih h).imp_right (List.mem_cons_of_mem _)

theorem insertSorted_sorted (id value : String) {l : List (String × String)}
    (h : l.Pairwise (·.1 < ·.1)) : (insertSorted id value l).Pairwise (·.1 < ·.1) := by
  induction l with
  | nil => exact List.pairwise_singleton _ _
  | cons kv rest ih =>
    obtain ⟨k, v⟩ := kv
    obtain ⟨hk, hrest⟩ := List.pairwise_cons.1 h
    rw [insertSorted]
    split
    · next hlt =>
      refine List.pairwise_cons.2 ⟨fun e he => ?_, h⟩
      rcases List.mem_cons.1 he with rfl | he
      · exact hlt
      · exact String.lt_trans hlt (hk e he)
    · next hlt =>
      split
      · next heq => exact List.pairwise_cons.2 ⟨fun e he => heq ▸ hk e he, hrest⟩
      · next hne =>
        refine List.pairwise_cons.2 ⟨fun e he => ?_, ih hrest⟩
        rcases mem_insertSorted he with rfl | he
        · exact Decidable.byContradiction fun hn =>
            hne (String.le_antisymm (String.not_lt.1 hn) (String.not_lt.1 hlt))
        · exact hk e he

/-- The answers with one set, in place of any earlier one to the same identifier. -/
def set (a : Answers) (id value : String) : Answers :=
  ⟨insertSorted id value a.entries, insertSorted_sorted id value a.sorted⟩

theorem lookup_insertSorted (id value k : String) (l : List (String × String)) :
    (insertSorted id value l).lookup k = if k = id then some value else l.lookup k := by
  induction l with
  | nil => by_cases h : k = id <;> simp [insertSorted, List.lookup_cons, h, beq_eq_false_iff_ne.2]
  | cons kv rest ih =>
    obtain ⟨a, b⟩ := kv
    rw [insertSorted]
    split
    · by_cases h : k = id
      · simp [h]
      · simp [List.lookup_cons, h, beq_eq_false_iff_ne.2 h]
    · split
      · next heq =>
        by_cases h : k = id
        · simp [h]
        · simp [List.lookup_cons, h, beq_eq_false_iff_ne.2 h, beq_eq_false_iff_ne.2 (heq ▸ h)]
      · next hne =>
        by_cases h : k = a
        · simp [h, Ne.symm hne]
        · simp [List.lookup_cons, beq_eq_false_iff_ne.2 h, ih]

theorem get?_set (a : Answers) (id value k : String) :
    (a.set id value).get? k = if k = id then some value else a.get? k :=
  lookup_insertSorted id value k a.entries

/-- The answers of a list, the last one to an identifier counting. -/
def ofList (entries : List (String × String)) : Answers :=
  entries.foldl (fun a (id, value) => a.set id value) empty

/-! ## Removing an answer -/

/-- The answers without the one to an identifier. -/
def erase (a : Answers) (id : String) : Answers :=
  ⟨a.entries.filter (·.1 != id), a.sorted.filter _⟩

theorem lookup_filter_ne (id k : String) (l : List (String × String)) :
    (l.filter (·.1 != id)).lookup k = if k = id then none else l.lookup k := by
  induction l with
  | nil => simp
  | cons kv rest ih =>
    obtain ⟨a, b⟩ := kv
    by_cases hid : a = id
    · rw [List.filter_cons_of_neg (by simp [hid]), ih]
      by_cases hk : k = id
      · simp [hk]
      · simp [hk, List.lookup_cons, beq_eq_false_iff_ne.2 (hid ▸ hk)]
    · rw [List.filter_cons_of_pos (by simp [hid])]
      by_cases hk : k = a
      · simp [hk, hid]
      · simp [List.lookup_cons, beq_eq_false_iff_ne.2 hk, ih]

theorem get?_erase (a : Answers) (id k : String) :
    (a.erase id).get? k = if k = id then none else a.get? k :=
  lookup_filter_ne id k a.entries

end Answers

end MathQuiz

/-! ## Answers as JSON text -/

namespace MathQuiz.Answers

/-- Reads one answer and sets it. -/
def member (a : Answers) : Json.Reader Answers := fun cs => do
  let (id, rest) ← Json.key Json.codePoint cs
  let rest ← Json.expect ':' rest
  let (value, rest) ← Json.string rest
  return (a.set id value, rest)

def read : Json.Reader Answers := fun cs =>
  match Json.skipBlanks cs with
  | '{' :: rest => (Json.bracketed '}' member empty rest).toExcept
  | cs => .error (Json.wrongType .map cs)

/-- Reads answers with nothing behind them. -/
def ofText (text : String) : Except Json.Fault Answers := Json.wholly read text

/-- **The written form.** -/
def text (a : Answers) : String :=
  String.ofList (Json.object (a.entries.map fun (id, value) => (id, Json.quote value)))

end MathQuiz.Answers
