import MathQuiz.Text.Basic
import Mathlib.Data.List.Infix

/-!
# Substitution in one pass and in several

A table of words is substituted in a single pass over the text, or in a pass for each word, one
after the other. Both come to the same where no word gets in the way of a later one: it begins
nowhere inside the later one, and no character of what stands in for it occurs there, so that no
word is ever put together from what was written.

* `Clear`: no word begins in a text, whatever follows it; `substitute_append_of_clear`,
  `substitute_word_append`: what a pass does to such a text, and to a word;
* `substitute_flatMap`: one word, character by character;
* `SinglePass`: the pass over a whole table, told by what stands in the text;
* `Staged`: no word gets in the way of a later one; `Staged.substitute_eq_iff`: the pass is the
  only one;
* `substitute_substitute`, **`foldl_substitute`**: words one after the other come to a single pass;
* **`decodeEntities_single_pass`**: so it is with entities.
-/

namespace MathQuiz.Text

/-! ## Words that begin nowhere in a text -/

/-- No occurrence of the word begins in the text, whatever follows the text. -/
def Clear (word : List Char) : List Char → Prop
  | [] => True
  | c :: cs => (c :: cs).take word.length ≠ word.take (c :: cs).length ∧ Clear word cs

instance decidableClear (word : List Char) : (text : List Char) → Decidable (Clear word text)
  | [] => .isTrue trivial
  | _ :: cs =>
    have := decidableClear word cs
    inferInstanceAs (Decidable (_ ∧ _))

theorem take_eq_take_of_begins {word text rest : List Char} (h : word <+: text ++ rest) :
    text.take word.length = word.take text.length := by
  have hword : word = (text ++ rest).take word.length := List.prefix_iff_eq_take.1 h
  calc text.take word.length
      = ((text ++ rest).take text.length).take word.length := by rw [List.take_left]
    _ = ((text ++ rest).take word.length).take text.length := by
      rw [List.take_take, List.take_take, Nat.min_comm]
    _ = word.take text.length := by rw [← hword]

theorem Clear.not_begins {word text : List Char} (h : Clear word text) (hne : text ≠ [])
    (rest : List Char) : ¬ word <+: text ++ rest := by
  cases text with
  | nil => exact absurd rfl hne
  | cons c text => exact fun hbegins => h.1 (take_eq_take_of_begins hbegins)

theorem Clear.of_disjoint {word text : List Char} (hne : word ≠ []) (h : ∀ c ∈ text, c ∉ word) :
    Clear word text := by
  induction text with
  | nil => trivial
  | cons c text ih =>
    obtain ⟨hc, htext⟩ := List.forall_mem_cons.1 h
    obtain ⟨d, word, rfl⟩ := List.exists_cons_of_ne_nil hne
    have hcd : c ≠ d := List.ne_of_not_mem_cons hc
    exact ⟨by simp [hcd], ih htext⟩

/-! ## One pass -/

section Pass

variable {table : List Entry} {e : Entry} {cs : List Char}

theorem Entry.at?_eq_none_iff : Entry.at? table cs = none ↔ ∀ e ∈ table, ¬ e.word <+: cs := by
  simp [Entry.at?]

theorem Entry.of_at?_eq_some (h : Entry.at? table cs = some e) : e ∈ table ∧ e.word <+: cs := by
  have hbegins := List.find?_some h
  exact ⟨List.mem_of_find?_eq_some h, List.isPrefixOf_iff_prefix.1 hbegins⟩

theorem at?_of_begins (h : e.word <+: cs) : Entry.at? [e] cs = some e := by
  simp [Entry.at?, List.isPrefixOf_iff_prefix.2 h]

theorem substituteFrom_length (skipped rest : List Char) :
    substituteFrom table skipped.length (skipped ++ rest) = substitute table rest := by
  induction skipped with
  | nil => rfl
  | cons c skipped ih => exact ih

theorem substitute_of_at?_eq_some {rest : List Char} (hne : e.word ≠ [])
    (hat : Entry.at? table (e.word ++ rest) = some e) :
    substitute table (e.word ++ rest) = e.substitute ++ substitute table rest := by
  obtain ⟨c, word, hword⟩ := List.exists_cons_of_ne_nil hne
  have hlength : e.word.length - 1 = word.length := by rw [hword]; rfl
  rw [hword, List.cons_append] at hat ⊢
  rw [substitute, substituteFrom, hat]
  dsimp only
  rw [hlength, substituteFrom_length]

theorem substitute_of_at?_eq_none {c : Char} (hat : Entry.at? table (c :: cs) = none) :
    substitute table (c :: cs) = c :: substitute table cs := by
  rw [substitute, substituteFrom, hat]
  rfl

theorem substitute_append_of_clear {text : List Char} (h : ∀ e ∈ table, Clear e.word text)
    (rest : List Char) : substitute table (text ++ rest) = text ++ substitute table rest := by
  induction text with
  | nil => rfl
  | cons c text ih =>
    have hnone : Entry.at? table (c :: (text ++ rest)) = none :=
      Entry.at?_eq_none_iff.2 fun e he => (h e he).not_begins (List.cons_ne_nil c text) rest
    rw [List.cons_append, substitute_of_at?_eq_none hnone, ih fun e he => (h e he).2,
      List.cons_append]

theorem substitute_nil (cs : List Char) : substitute [] cs = cs := by
  have hkept : substitute [] (cs ++ []) = cs ++ substitute [] [] :=
    substitute_append_of_clear (fun _ he => absurd he List.not_mem_nil) []
  simpa [substitute, substituteFrom] using hkept

theorem substitute_word_append (hne : e.word ≠ []) (rest : List Char) :
    substitute [e] (e.word ++ rest) = e.substitute ++ substitute [e] rest :=
  substitute_of_at?_eq_some hne (at?_of_begins (List.prefix_append e.word rest))

/-- **A substitution, character by character,** of which each is the word or keeps clear of it. -/
theorem substitute_flatMap (hne : e.word ≠ []) {f g : Char → List Char}
    (h : ∀ c, f c = e.word ∧ g c = e.substitute ∨ Clear e.word (f c) ∧ g c = f c)
    (cs : List Char) : substitute [e] (cs.flatMap f) = cs.flatMap g := by
  induction cs with
  | nil => rfl
  | cons c cs ih =>
    rw [List.flatMap_cons, List.flatMap_cons, ← ih]
    rcases h c with ⟨hf, hg⟩ | ⟨hclear, hg⟩
    · rw [hf, hg, substitute_word_append hne]
    · rw [hg, substitute_append_of_clear (List.forall_mem_singleton.2 hclear)]

end Pass

/-! ## A single pass, told by what stands in the text -/

/-- A single pass from left to right: a word of the table is replaced where it begins, a character
at which no word begins is kept, and the pass goes on behind it. Words are looked for in the text
alone, never in what was written. -/
inductive SinglePass (table : List Entry) : List Char → List Char → Prop
  | nil : SinglePass table [] []
  | word {e : Entry} {cs out : List Char} (he : e ∈ table) (h : SinglePass table cs out) :
      SinglePass table (e.word ++ cs) (e.substitute ++ out)
  | kept {c : Char} {cs out : List Char} (hnone : ∀ e ∈ table, ¬ e.word <+: c :: cs)
      (h : SinglePass table cs out) : SinglePass table (c :: cs) (c :: out)

theorem singlePass_substitute {table : List Entry} (hne : ∀ e ∈ table, e.word ≠ [])
    (cs : List Char) : SinglePass table cs (substitute table cs) := by
  induction hn : cs.length using Nat.strong_induction_on generalizing cs with
  | _ n ih =>
    subst hn
    cases cs with
    | nil => exact .nil
    | cons c cs =>
      cases hat : Entry.at? table (c :: cs) with
      | none =>
        rw [substitute_of_at?_eq_none hat]
        exact .kept (Entry.at?_eq_none_iff.1 hat) (ih cs.length (Nat.lt_succ_self _) cs rfl)
      | some e =>
        obtain ⟨he, rest, hrest⟩ := Entry.of_at?_eq_some hat
        have hless : rest.length < (c :: cs).length := by
          rw [← hrest, List.length_append]
          exact Nat.lt_add_of_pos_left (List.length_pos_of_ne_nil (hne e he))
        rw [← hrest] at hat ⊢
        rw [substitute_of_at?_eq_some (hne e he) hat]
        exact .word he (ih rest.length hless rest rfl)

/-! ## Words that do not get in each other's way -/

/-- The words can be substituted one after the other: none begins inside a later one, whatever
follows that, and no character of its substitute occurs in a later one. -/
structure Staged (table : List Entry) : Prop where
  word_ne_nil : ∀ e ∈ table, e.word ≠ []
  substitute_ne_nil : ∀ e ∈ table, e.substitute ≠ []
  apart : table.Pairwise fun e e' =>
    Clear e.word e'.word ∧ ∀ c ∈ e.substitute, c ∉ e'.word

namespace Staged

variable {table : List Entry} {e e' : Entry} {cs out : List Char}

theorem tail (h : Staged (e :: table)) : Staged table where
  word_ne_nil := (List.forall_mem_cons.1 h.word_ne_nil).2
  substitute_ne_nil := (List.forall_mem_cons.1 h.substitute_ne_nil).2
  apart := (List.pairwise_cons.1 h.apart).2

/-- **Only one word of the table begins at a place.** -/
theorem eq_of_begins (h : Staged table) (he : e ∈ table) (he' : e' ∈ table)
    (hbegins : e.word <+: cs) (hbegins' : e'.word <+: cs) : e = e' := by
  have hpair : table.Pairwise fun e e' => e.word <+: cs → e'.word <+: cs → e = e' := by
    refine h.apart.imp_of_mem ?_
    rintro e e' - he' ⟨hclear, -⟩ hbegins ⟨rest, rfl⟩
    exact absurd hbegins (hclear.not_begins (h.word_ne_nil e' he') rest)
  have hflip := hpair.imp fun heq hbegins' hbegins => (heq hbegins hbegins').symm
  exact hpair.forall_of_forall_of_flip (fun _ _ _ _ => rfl) hflip he he' hbegins hbegins'

theorem at?_eq_some_iff (h : Staged table) :
    Entry.at? table cs = some e ↔ e ∈ table ∧ e.word <+: cs := by
  refine ⟨Entry.of_at?_eq_some, fun ⟨he, hbegins⟩ => ?_⟩
  cases hat : Entry.at? table cs with
  | none => exact absurd hbegins (Entry.at?_eq_none_iff.1 hat e he)
  | some e' =>
    obtain ⟨he', hbegins'⟩ := Entry.of_at?_eq_some hat
    rw [h.eq_of_begins he he' hbegins hbegins']

theorem substitute_word (h : Staged table) (he : e ∈ table) (rest : List Char) :
    substitute table (e.word ++ rest) = e.substitute ++ substitute table rest :=
  substitute_of_at?_eq_some (h.word_ne_nil e he)
    (h.at?_eq_some_iff.2 ⟨he, List.prefix_append e.word rest⟩)

/-- **There is one single pass over a text,** and it is what substitution does. -/
theorem substitute_eq_iff (h : Staged table) :
    substitute table cs = out ↔ SinglePass table cs out := by
  constructor
  · rintro rfl
    exact singlePass_substitute h.word_ne_nil cs
  · intro hpass
    induction hpass with
    | nil => rfl
    | word he _ ih => rw [h.substitute_word he, ih]
    | kept hnone _ ih => rw [substitute_of_at?_eq_none (Entry.at?_eq_none_iff.2 hnone), ih]

end Staged

/-! ## Passes one after the other -/

theorem begins_of_begins_substitute {e : Entry} (hne : e.substitute ≠ []) {word cs : List Char}
    (h : ∀ c ∈ e.substitute, c ∉ word) (hbegins : word <+: substitute [e] cs) : word <+: cs := by
  induction word generalizing cs with
  | nil => exact List.nil_prefix
  | cons d word ih =>
    cases cs with
    | nil => exact hbegins
    | cons c cs =>
      cases hat : Entry.at? [e] (c :: cs) with
      | none =>
        rw [substitute_of_at?_eq_none hat, List.cons_prefix_cons] at hbegins
        refine List.cons_prefix_cons.2 ⟨hbegins.1, ih (fun c hc => ?_) hbegins.2⟩
        exact List.not_mem_of_not_mem_cons (h c hc)
      | some e' =>
        -- the text now begins with a character that was written
        obtain ⟨he', -⟩ := Entry.of_at?_eq_some hat
        obtain rfl := List.mem_singleton.1 he'
        obtain ⟨s, rest, hs⟩ := List.exists_cons_of_ne_nil hne
        rw [substitute, substituteFrom, hat] at hbegins
        dsimp only at hbegins
        rw [hs, List.cons_append, List.cons_prefix_cons] at hbegins
        obtain ⟨rfl, -⟩ := hbegins
        exact absurd List.mem_cons_self (h d (hs ▸ List.mem_cons_self))

/-- **The first word may go first:** a pass for it and a pass for the others come to one for all. -/
theorem substitute_substitute {e : Entry} {table : List Entry} (h : Staged (e :: table))
    (cs : List Char) : substitute table (substitute [e] cs) = substitute (e :: table) cs := by
  obtain ⟨hapart, -⟩ := List.pairwise_cons.1 h.apart
  have hword : e.word ≠ [] := h.word_ne_nil e List.mem_cons_self
  have hne : e.substitute ≠ [] := h.substitute_ne_nil e List.mem_cons_self
  -- by what the single pass finds, from left to right
  have hpass := h.substitute_eq_iff.1 (rfl : substitute (e :: table) cs = _)
  generalize substitute (e :: table) cs = out at hpass
  induction hpass with
  | nil => rfl
  | @word e' cs out he' _ ih =>
    rcases List.mem_cons.1 he' with rfl | he'
    · have hclear : ∀ e'' ∈ table, Clear e''.word e'.substitute := fun e'' he'' =>
        .of_disjoint (h.tail.word_ne_nil e'' he'') (hapart e'' he'').2
      rw [substitute_word_append hword, substitute_append_of_clear hclear, ih]
    · have hclear : Clear e.word e'.word := (hapart e' he').1
      rw [substitute_append_of_clear (List.forall_mem_singleton.2 hclear),
        h.tail.substitute_word he', ih]
  | @kept c cs out hnone _ ih =>
    obtain ⟨hfirst, hlater⟩ := List.forall_mem_cons.1 hnone
    have hstays : substitute [e] (c :: cs) = c :: substitute [e] cs :=
      substitute_of_at?_eq_none (Entry.at?_eq_none_iff.2 (List.forall_mem_singleton.2 hfirst))
    have hnext : Entry.at? table (c :: substitute [e] cs) = none := by
      refine Entry.at?_eq_none_iff.2 fun e' he' hbegins => hlater e' he' ?_
      rw [← hstays] at hbegins
      exact begins_of_begins_substitute hne (hapart e' he').2 hbegins
    rw [hstays, substitute_of_at?_eq_none hnext, ih]

/-- **Words one after the other** come to a single pass for all of them. -/
theorem foldl_substitute {table : List Entry} (h : Staged table) (cs : List Char) :
    table.foldl (fun text e => substitute [e] text) cs = substitute table cs := by
  induction table generalizing cs with
  | nil => exact (substitute_nil cs).symm
  | cons e table ih => rw [List.foldl_cons, ih h.tail, substitute_substitute h]

/-! ## Entities -/

theorem staged_entities : Staged entities where
  word_ne_nil := by decide
  substitute_ne_nil := by decide
  -- a decision might run through all characters there are, not only those of a substitute
  apart := by simp [entities, Clear]

/-- **Entities are decoded in a single pass.** Decoding the five one after the other is the only
pass that replaces each of them where it stands and never reads what it has written. -/
theorem decodeEntities_single_pass (cs : List Char) :
    decodeEntities cs = decodeOnce cs ∧
      ∀ out, decodeEntities cs = out ↔ SinglePass entities cs out := by
  have honce : decodeEntities cs = decodeOnce cs := foldl_substitute staged_entities cs
  refine ⟨honce, fun out => ?_⟩
  rw [honce]
  exact staged_entities.substitute_eq_iff

/-- What is written is not decoded again; with the ampersand decoded first it would be. -/
example : decodeEntities "&amp;lt;".toList = "&lt;".toList ∧
    entities.reverse.foldl (fun text e => substitute [e] text) "&amp;lt;".toList = ['<'] := by
  decide

end MathQuiz.Text
