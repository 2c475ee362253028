import MathQuiz.Text.Basic
import MathQuiz.Proofs.Text.Pieces
import MathQuiz.Proofs.Text.Substitution

/-!
# Escaped text in markup

Text that is written with entities for the characters of markup is heard as it is, tags or entities
though it may look like; tags between texts are heard as breaks between words.

* `written`, `foldl_substitute_written`: substitutions undo what a table has written;
* `escapeMarkup`, `decodeEntities_escaped`: the four characters of markup as entities;
* `Tag`, `Segment`: escaped texts and tags; `withoutTags_markup`;
* **`visible_markup`**: what is heard of a payload made of them.
-/

namespace MathQuiz.Text

/-! ## Writing with a table, and reading it back -/

/-- A character as a table writes it: by the word that it stands in for, if there is one. -/
def written (table : List Entry) (c : Char) : List Char :=
  match table.find? (·.substitute == [c]) with
  | some e => e.word
  | none => [c]

/-- All words begin with an ampersand, none of them begins in a later one, and the last one stands
for the ampersand itself. -/
structure Layered (table : List Entry) : Prop where
  head : ∀ e ∈ table, e.word.head? = some '&'
  clear : table.Pairwise fun e e' => e.substitute ≠ e'.substitute ∧ Clear e.word e'.word
  last : ∀ e ∈ table.getLast?, e.substitute = ['&']

theorem Clear.of_cons {word : List Char} (hword : word.head? = some '&') {c : Char} (hc : c ≠ '&') :
    Clear word [c] := by
  obtain ⟨tail, rfl⟩ := List.head?_eq_some_iff.1 hword
  simpa [Clear] using hc

theorem clear_written {word : List Char} {table : List Entry} {c : Char}
    (hword : word.head? = some '&') (hclear : ∀ e ∈ table, Clear word e.word)
    (hamp : c = '&' → ∃ e ∈ table, e.substitute = ['&']) : Clear word (written table c) := by
  rw [written]
  split
  · next e hfind => exact hclear e (List.mem_of_find?_eq_some hfind)
  · next hfind =>
    refine Clear.of_cons hword fun hc => ?_
    obtain ⟨e, he, hsubst⟩ := hamp hc
    rw [List.find?_eq_none] at hfind
    exact hfind e he (by rw [hsubst, hc]; rfl)

/-- The first entry of a table undoes its part of the writing. -/
theorem substitute_written {e : Entry} {table : List Entry} (h : Layered (e :: table))
    (cs : List Char) :
    substitute [e] (cs.flatMap (written (e :: table))) = cs.flatMap (written table) := by
  have hhead : e.word.head? = some '&' := h.head e List.mem_cons_self
  have hne : e.word ≠ [] := by
    intro hnil
    rw [hnil] at hhead
    cases hhead
  obtain ⟨hfirst, -⟩ := List.pairwise_cons.1 h.clear
  refine substitute_flatMap hne (fun c => ?_) cs
  by_cases hc : e.substitute = [c]
  · have hnone : table.find? (·.substitute == [c]) = none := by
      rw [List.find?_eq_none]
      intro e' he' hsubst
      exact (hfirst e' he').1 (hc.trans (beq_iff_eq.1 hsubst).symm)
    left
    simp [written, hc, hnone]
  · have hskip : written (e :: table) c = written table c := by simp [written, hc]
    refine .inr ⟨?_, hskip.symm⟩
    rw [hskip]
    refine clear_written hhead (fun e' he' => (hfirst e' he').2) fun hamp => ?_
    -- the entry of the ampersand is the last one, and it is not `e`
    have hsubst := h.last _ (List.getLast?_eq_some_getLast (List.cons_ne_nil e table))
    rcases List.mem_cons.1 (List.getLast_mem (List.cons_ne_nil e table)) with heq | hmem
    · rw [heq, ← hamp] at hsubst
      exact absurd hsubst hc
    · exact ⟨_, hmem, hsubst⟩

theorem Layered.tail {e : Entry} {table : List Entry} (h : Layered (e :: table)) :
    Layered table where
  head := fun e' he' => h.head e' (List.mem_cons_of_mem _ he')
  clear := (List.pairwise_cons.1 h.clear).2
  last := by
    intro e' he'
    refine h.last e' ?_
    rw [List.getLast?_cons, Option.mem_def.1 he']
    rfl

/-- **Substitutions one after the other** undo what their table has written. -/
theorem foldl_substitute_written {table : List Entry} (h : Layered table) (cs : List Char) :
    table.foldl (fun text e => substitute [e] text) (cs.flatMap (written table)) = cs := by
  induction table with
  | nil => exact List.flatMap_singleton' cs
  | cons e table ih =>
    rw [List.foldl_cons, substitute_written h]
    exact ih h.tail

/-! ## Entities -/

/-- A character of markup as its entity. -/
def escapeMarkup (c : Char) : List Char :=
  if c = '&' then "&amp;".toList
  else if c = '<' then "&lt;".toList
  else if c = '>' then "&gt;".toList
  else if c = '"' then "&quot;".toList
  else [c]

theorem layered_entities : Layered entities.tail where
  head := by decide
  clear := by decide
  last := by decide

theorem written_entities : written entities.tail = escapeMarkup := by
  funext c
  rw [escapeMarkup]
  split_ifs with hamp hless hgreater hquote
  · rw [hamp]
    decide
  · rw [hless]
    decide
  · rw [hgreater]
    decide
  · rw [hquote]
    decide
  · simp [written, entities, Ne.symm hamp, Ne.symm hless, Ne.symm hgreater, Ne.symm hquote]

/-- **Escaped text is decoded once.** -/
theorem decodeEntities_escaped (cs : List Char) :
    decodeEntities (cs.flatMap escapeMarkup) = cs := by
  rw [← written_entities]
  -- the space that does not break is never written, so its substitution changes nothing
  have hspace : substitute [⟨"&nbsp;".toList, [' ']⟩] (cs.flatMap (written entities.tail)) =
      cs.flatMap (written entities.tail) := by
    refine substitute_flatMap (by decide) (fun c => .inr ⟨?_, rfl⟩) cs
    exact clear_written rfl (by decide) fun _ => by decide
  have hrest := foldl_substitute_written layered_entities cs
  rwa [← hspace] at hrest

/-! ## Tags -/

theorem opensTag_iff {c : Char} : opensTag c = true ↔ c.isAlpha = true ∨ c ∈ ['/', '!', '?'] := by
  simp [opensTag, or_assoc]

/-- A tag: `<` and a character that opens one, anything up to the first `>`, and that `>`. -/
structure Tag where
  opener : Char
  body : List Char
  opens : opener.isAlpha = true ∨ opener ∈ ['/', '!', '?']
  not_mem_body : '>' ∉ body

def Tag.markup (t : Tag) : List Char := '<' :: t.opener :: t.body ++ ['>']

theorem Tag.opensTag_opener (t : Tag) : opensTag t.opener = true := opensTag_iff.2 t.opens

theorem Tag.opener_ne (t : Tag) : '>' ≠ t.opener := by
  intro h
  have hopens := t.opensTag_opener
  rw [← h] at hopens
  revert hopens
  decide

theorem outsideTags_append {text : List Char} (h : '<' ∉ text) (rest : List Char) :
    outsideTags false (text ++ rest) = text ++ outsideTags false rest := by
  induction text with
  | nil => rfl
  | cons c text ih =>
    have hc : c ≠ '<' := (List.ne_of_not_mem_cons h).symm
    rw [List.cons_append, outsideTags, if_neg Bool.false_ne_true, if_neg (by simp [hc]),
      ih (List.not_mem_of_not_mem_cons h), List.cons_append]

theorem outsideTags_closed {body : List Char} (h : '>' ∉ body) (rest : List Char) :
    outsideTags true (body ++ '>' :: rest) = ' ' :: outsideTags false rest := by
  induction body with
  | nil => rfl
  | cons c body ih =>
    have hc : c ≠ '>' := (List.ne_of_not_mem_cons h).symm
    rw [List.cons_append, outsideTags, if_pos rfl, if_neg hc]
    exact ih (List.not_mem_of_not_mem_cons h)

theorem outsideTags_tag (t : Tag) (rest : List Char) :
    outsideTags false (t.markup ++ rest) = ' ' :: outsideTags false rest := by
  have hclosed : '>' ∉ t.opener :: t.body :=
    List.not_mem_cons_of_ne_of_not_mem t.opener_ne t.not_mem_body
  have hmarkup : t.markup ++ rest = '<' :: (t.opener :: t.body ++ '>' :: rest) := by
    simp [Tag.markup]
  rw [hmarkup, outsideTags, if_neg Bool.false_ne_true, if_pos (by simp [t.opensTag_opener])]
  exact outsideTags_closed hclosed rest

/-! ## Payloads of escaped texts and tags -/

/-- A part of a payload: any text, to be escaped, or a tag. -/
inductive Segment
  | text (content : String)
  | tag (t : Tag)

namespace Segment

def markup : Segment → List Char
  | text content => content.toList.flatMap escapeMarkup
  | tag t => t.markup

/-- The part as it is meant: the text itself, or a break between words. -/
def meant : Segment → List Char
  | text content => content.toList
  | tag _ => [' ']

end Segment

theorem not_mem_escapeMarkup (c : Char) : '<' ∉ escapeMarkup c := by
  rw [escapeMarkup]
  split_ifs with hamp hless
  · decide
  · decide
  · decide
  · decide
  · simpa [eq_comm] using hless

/-- **Tags are taken out,** and the texts between them stay escaped. -/
theorem withoutTags_markup (segments : List Segment) :
    withoutTags (segments.flatMap Segment.markup) =
      (segments.flatMap Segment.meant).flatMap escapeMarkup := by
  induction segments with
  | nil => rfl
  | cons segment segments ih =>
    rw [withoutTags] at ih ⊢
    rw [List.flatMap_cons, List.flatMap_cons, List.flatMap_append, ← ih]
    cases segment with
    | text content =>
      refine outsideTags_append ?_ _
      simp only [Segment.markup, List.mem_flatMap, not_exists, not_and]
      exact fun c _ => not_mem_escapeMarkup c
    | tag t => exact outsideTags_tag t _

/-- **What is heard of escaped markup:** the words between the blanks of its texts, where each tag
is a blank. -/
theorem visible_markup (segments : List Segment) :
    visible (String.ofList (segments.flatMap Segment.markup)) =
      " ".intercalate ((((segments.flatMap Segment.meant).splitOnP isBlank).filter
        (!·.isEmpty)).map String.ofList) := by
  rw [visible, String.toList_ofList, withoutTags_markup, decodeEntities_escaped, words_eq_splitOnP,
    ofList_spaced]

/-- Escaped markup and entities are read out, and a tag breaks a word. -/
example : visible "&amp;lt;b&gt; a<br title=\"&lt;\">b < c" = "&lt;b> a b < c" := by
  decide +kernel

end MathQuiz.Text
