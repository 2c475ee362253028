import MathQuiz.Render.Rendering
import Mathlib.Data.List.Forall2
import Mathlib.Data.List.Infix
import Mathlib.InformationTheory.Coding.UniquelyDecodable

/-!
# Escaped identifiers

The identifier of an answer slot stands in its box as LaTeX text, with an escape sequence for each
character that LaTeX would take for its own. No escape sequence begins another one, and none begins
like a character that stands for itself, so the identifier can be read off what is written.

* `PrefixCode`: words none of which begins another; `PrefixCode.flatten_prefix_iff`,
  `PrefixCode.uniquelyDecodable`: such words in a row are told apart;
* `escapeSequences`, `Escapes`: the ten escape sequences, and what stands for a character;
* `escapes_escapeChar`, `prefixCode_escapes`: escaping writes these words, which are a prefix code;
* `escapeText_prefix_iff`: escaping keeps and reflects beginnings;
* **`placeholders_identify`**: a box tells whose it is.
-/

namespace MathQuiz

open InformationTheory (UniquelyDecodable)

/-! ## Prefix codes -/

/-- The words are not empty, and none of them begins another one. -/
structure PrefixCode (code : Set (List Char)) : Prop where
  ne_nil : ∀ word ∈ code, word ≠ []
  eq_of_begins : ∀ word ∈ code, ∀ word' ∈ code, word <+: word' → word = word'

namespace PrefixCode

variable {code : Set (List Char)} (h : PrefixCode code)
include h

theorem head_eq {word word' rest rest' : List Char} (hword : word ∈ code) (hword' : word' ∈ code)
    (hbegins : word ++ rest <+: word' ++ rest') : word = word' := by
  have hfirst : word <+: word' ++ rest' := (List.prefix_append word rest).trans hbegins
  rcases List.prefix_or_prefix_of_prefix hfirst (List.prefix_append word' rest') with hle | hle
  · exact h.eq_of_begins word hword word' hword' hle
  · exact (h.eq_of_begins word' hword' word hword hle).symm

/-- **Words in a row begin as their texts do.** -/
theorem flatten_prefix_iff {words words' : List (List Char)} (hwords : ∀ word ∈ words, word ∈ code)
    (hwords' : ∀ word ∈ words', word ∈ code) :
    words.flatten <+: words'.flatten ↔ words <+: words' := by
  refine ⟨fun hbegins => ?_, List.IsPrefix.flatten⟩
  induction words generalizing words' with
  | nil => exact List.nil_prefix
  | cons word words ih =>
    obtain ⟨hword, hrest⟩ := List.forall_mem_cons.1 hwords
    cases words' with
    | nil =>
      have hnil := List.append_eq_nil_iff.1 (List.prefix_nil.1 hbegins)
      exact absurd hnil.1 (h.ne_nil word hword)
    | cons word' words' =>
      obtain ⟨hword', hrest'⟩ := List.forall_mem_cons.1 hwords'
      rw [List.flatten_cons, List.flatten_cons] at hbegins
      obtain rfl := h.head_eq hword hword' hbegins
      rw [List.prefix_append_right_inj] at hbegins
      exact List.cons_prefix_cons.2 ⟨rfl, ih hrest hrest' hbegins⟩

theorem uniquelyDecodable : UniquelyDecodable code := by
  intro words words' hwords hwords' hflat
  have hle := (h.flatten_prefix_iff hwords hwords').1 (hflat ▸ List.prefix_refl _)
  have hge := (h.flatten_prefix_iff hwords' hwords).1 (hflat ▸ List.prefix_refl _)
  exact hle.eq_of_length_le hge.length_le

end PrefixCode

/-! ## Escape sequences -/

/-- The characters that LaTeX takes for its own, with what is written for them in a text. -/
def escapeSequences : List (Char × List Char) :=
  [('\\', "\\textbackslash\x7b\x7d".toList), ('~', "\\textasciitilde\x7b\x7d".toList),
   ('^', "\\textasciicircum\x7b\x7d".toList), ('{', ['\\', '{']), ('}', ['\\', '}']),
   ('$', ['\\', '$']), ('&', ['\\', '&']), ('#', ['\\', '#']), ('_', ['\\', '_']),
   ('%', ['\\', '%'])]

/-- What stands for a character in escaped text: its escape sequence if it has one, otherwise the
character itself. -/
inductive Escapes : Char → List Char → Prop
  | sequence {c : Char} {word : List Char} (h : (c, word) ∈ escapeSequences) : Escapes c word
  | plain {c : Char} (h : ∀ entry ∈ escapeSequences, entry.1 ≠ c) : Escapes c [c]

theorem escapes_escapeChar (c : Char) : Escapes c (escapeChar c) := by
  unfold escapeChar
  split_ifs with hbackslash htilde hcaret hspecial
  · exact .sequence (by rw [hbackslash]; decide)
  · exact .sequence (by rw [htilde]; decide)
  · exact .sequence (by rw [hcaret]; decide)
  · refine .sequence ?_
    have hall : ∀ c ∈ ['{', '}', '$', '&', '#', '_', '%'], (c, ['\\', c]) ∈ escapeSequences := by
      simp [escapeSequences]
    exact hall c hspecial
  · refine .plain ?_
    simp only [List.mem_cons, not_or] at hspecial
    simp [escapeSequences, eq_comm, hbackslash, htilde, hcaret, hspecial]

theorem exists_eq_backslash_cons {c : Char} {word : List Char} (h : (c, word) ∈ escapeSequences) :
    ∃ rest, word = '\\' :: rest := by
  have hhead : ∀ entry ∈ escapeSequences, entry.2.head? = some '\\' := by decide
  exact List.head?_eq_some_iff.1 (hhead _ h)

theorem ne_backslash {c : Char} (h : ∀ entry ∈ escapeSequences, entry.1 ≠ c) : '\\' ≠ c :=
  h ('\\', "\\textbackslash\x7b\x7d".toList) List.mem_cons_self

/-- **What stands for one character begins nothing that stands for another one.** -/
theorem Escapes.eq_of_begins {c d : Char} {word word' : List Char} (h : Escapes c word)
    (h' : Escapes d word') (hle : word <+: word') : c = d ∧ word = word' := by
  cases h with
  | sequence h =>
    obtain ⟨rest, hword⟩ := exists_eq_backslash_cons h
    cases h' with
    | sequence h' =>
      have hapart : ∀ entry ∈ escapeSequences, ∀ entry' ∈ escapeSequences,
          entry.2 <+: entry'.2 → entry = entry' := by decide
      exact Prod.mk.inj (hapart _ h _ h' hle)
    | plain h' =>
      rw [hword, List.cons_prefix_cons] at hle
      exact absurd hle.1 (ne_backslash h')
  | plain h =>
    cases h' with
    | sequence h' =>
      obtain ⟨rest, hword⟩ := exists_eq_backslash_cons h'
      rw [hword, List.cons_prefix_cons] at hle
      exact absurd hle.1.symm (ne_backslash h)
    | plain =>
      obtain rfl := (List.cons_prefix_cons.1 hle).1
      exact ⟨rfl, rfl⟩

theorem prefixCode_escapes : PrefixCode {word | ∃ c, Escapes c word} where
  ne_nil := by
    rintro word ⟨c, h⟩ rfl
    cases h with
    | sequence h =>
      obtain ⟨rest, hnil⟩ := exists_eq_backslash_cons h
      cases hnil
  eq_of_begins := fun _ ⟨_, h⟩ _ ⟨_, h'⟩ hle => (h.eq_of_begins h' hle).2

theorem escapeChar_injective : Function.Injective escapeChar := fun c d heq =>
  ((escapes_escapeChar c).eq_of_begins (escapes_escapeChar d) (heq ▸ List.prefix_refl _)).1

/-! ## Escaped texts -/

theorem forall₂_escapes (cs : List Char) : List.Forall₂ Escapes cs (cs.map escapeChar) := by
  rw [List.forall₂_map_right_iff]
  exact List.forall₂_same.2 fun c _ => escapes_escapeChar c

theorem exists_escapes_of_mem (cs : List Char) :
    ∀ word ∈ cs.map escapeChar, ∃ c, Escapes c word := by
  intro word hword
  obtain ⟨c, -, rfl⟩ := List.mem_map.1 hword
  exact ⟨c, escapes_escapeChar c⟩

theorem toList_escapeText (s : String) :
    (escapeText s).toList = (s.toList.map escapeChar).flatten := by
  rw [escapeText, String.toList_ofList, List.flatMap_def]

/-- **Escaped texts begin as the texts do.** -/
theorem escapeText_prefix_iff (a b : String) :
    (escapeText a).toList <+: (escapeText b).toList ↔ a.toList <+: b.toList := by
  rw [toList_escapeText, toList_escapeText,
    prefixCode_escapes.flatten_prefix_iff (exists_escapes_of_mem _) (exists_escapes_of_mem _)]
  refine ⟨fun hle => ?_, fun hle => hle.map escapeChar⟩
  obtain ⟨front, hfront, heq⟩ := List.prefix_map_iff.1 hle
  rwa [List.map_injective_iff.2 escapeChar_injective heq]

theorem escapeText_inj {a b : String} : escapeText a = escapeText b ↔ a = b := by
  refine ⟨fun heq => ?_, congrArg escapeText⟩
  have hle := (escapeText_prefix_iff a b).1 (heq ▸ List.prefix_refl _)
  have hge := (escapeText_prefix_iff b a).1 (heq ▸ List.prefix_refl _)
  exact String.toList_inj.1 (hle.eq_of_length_le hge.length_le)

theorem braced_inj {a b : String} : braced a = braced b ↔ a = b := by
  simp [braced, ← String.toList_inj]

theorem value_latex_input (w : LatexSettings) (slot : Slot) (h : Hints) :
    ((Node.leaf (.input slot) h).latex w).value =
      "\\boxed" ++ braced ("\\text" ++ braced (escapeText slot.id)) := rfl

/-- **A box tells whose it is.** Slots are rendered alike exactly if their identifiers are the same,
and an escaped text can be taken apart in one way only. -/
theorem placeholders_identify :
    (∀ (w : LatexSettings) (s t : Slot) (h h' : Hints),
      ((Node.leaf (.input s) h).latex w).value = ((Node.leaf (.input t) h').latex w).value ↔
        s.id = t.id) ∧
    (∀ a b : String, (escapeText a).toList <+: (escapeText b).toList ↔ a.toList <+: b.toList) ∧
    ∀ id : String, ∃ words : List (List Char), words.flatten = (escapeText id).toList ∧
      List.Forall₂ Escapes id.toList words ∧
      ∀ words' : List (List Char), words'.flatten = (escapeText id).toList →
        (∀ word ∈ words', ∃ c, Escapes c word) → words' = words := by
  refine ⟨fun w s t h h' => ?alike, escapeText_prefix_iff, fun id => ?apart⟩
  case alike =>
    rw [value_latex_input, value_latex_input, String.append_right_inj, braced_inj,
      String.append_right_inj, braced_inj, escapeText_inj]
  case apart =>
    refine ⟨id.toList.map escapeChar, (toList_escapeText id).symm, forall₂_escapes _, ?_⟩
    intro words' hflat hwords'
    rw [toList_escapeText] at hflat
    exact prefixCode_escapes.uniquelyDecodable _ _ hwords' (exists_escapes_of_mem _) hflat

/-- An identifier that spells out an escape sequence is not taken for the character. -/
example : escapeText "_" = "\\_" ∧ escapeText "\\_" = "\\textbackslash\x7b\x7d\\_" := by decide

end MathQuiz
