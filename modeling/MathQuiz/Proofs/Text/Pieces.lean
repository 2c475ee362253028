import MathQuiz.Text.Basic
import Mathlib.Data.List.Basic
import Mathlib.Data.List.Chain
import Mathlib.Data.List.TakeWhile

/-!
# Pieces and words of a text

What the runs of a class of characters are, and how they are found again in a longer text. The words
of a text, one space apart, are the text with its blanks put in order.

* `Piece`, `piece_of_mem_runs`: characters of the class in a row, or one other character;
* `Piece.runs_append`, `runs_append`: a piece in front of a text that does not prolong it comes off
  whole, and two texts in a row between which no run goes on;
* `IsWord`, `words_induction`: a text is taken apart at its blanks, from left to right;
* **`words_eq_splitOnP`**: the words of a text are what its blanks leave between them;
* `SingleSpaced`, `length_spaced_words_le`: single spaces between words are the only blanks, and
  putting blanks in order makes no text longer;
* **`singleSpaced_spaced_words`**, **`spaced_words_eq_self_iff`**: what comes out, and which texts
  stay as they are.
-/

namespace MathQuiz.Text

/-- Characters of a class in a row, or one character that is not of the class. -/
inductive Piece (p : Char → Bool) : List Char → Prop
  | run {c : Char} {cs : List Char} (h : ∀ d ∈ c :: cs, p d = true) : Piece p (c :: cs)
  | single {c : Char} (h : p c = false) : Piece p [c]

section Runs

variable {p : Char → Bool}

theorem runs_cons_of_not {c : Char} (h : p c = false) (cs : List Char) :
    runs p (c :: cs) = [c] :: runs p cs := by
  rw [runs]
  split
  · next d run rest hruns => rw [h, Bool.false_and, if_neg Bool.false_ne_true, hruns]
  · rfl

theorem runs_cons (c : Char) (cs : List Char) :
    ∃ run rest, runs p (c :: cs) = (c :: run) :: rest := by
  rw [runs]
  split
  · split
    · exact ⟨_, _, rfl⟩
    · exact ⟨[], _, rfl⟩
  · exact ⟨[], _, rfl⟩

theorem runs_cons_cons {c d : Char} {cs run : List Char} {rest : List (List Char)}
    (hc : p c = true) (hd : p d = true) (h : runs p (d :: cs) = (d :: run) :: rest) :
    runs p (c :: d :: cs) = (c :: d :: run) :: rest := by
  rw [runs, h]
  exact if_pos (by rw [hc, hd]; rfl)

theorem piece_of_mem_runs {cs piece : List Char} (h : piece ∈ runs p cs) : Piece p piece := by
  induction cs generalizing piece with
  | nil => cases h
  | cons c cs ih =>
    cases hc : p c with
    | false =>
      rw [runs_cons_of_not hc] at h
      rcases List.mem_cons.1 h with rfl | h
      · exact .single hc
      · exact ih h
    | true =>
      have hself : Piece p [c] := .run (by simpa using hc)
      cases cs with
      | nil =>
        obtain rfl := List.mem_singleton.1 h
        exact hself
      | cons d cs =>
        obtain ⟨run, rest, hruns⟩ := runs_cons (p := p) d cs
        have hfirst : Piece p (d :: run) := ih (hruns ▸ List.mem_cons_self)
        cases hd : p d with
        | false =>
          rw [runs, hruns] at h
          simp only [hd, Bool.and_false, Bool.false_eq_true, if_false, ← hruns] at h
          rcases List.mem_cons.1 h with rfl | h
          · exact hself
          · exact ih h
        | true =>
          rw [runs_cons_cons hc hd hruns] at h
          rcases List.mem_cons.1 h with rfl | h
          · cases hfirst with
            | run hall => exact .run (List.forall_mem_cons.2 ⟨hc, hall⟩)
            | single hnot => rw [hd] at hnot; cases hnot
          · exact ih (hruns ▸ List.mem_cons_of_mem _ h)

/-- **A piece comes off whole** where the text behind it does not go on with the class. -/
theorem Piece.runs_append {piece rest : List Char} (h : Piece p piece)
    (hrest : ∀ c ∈ rest.head?, p c = false) : runs p (piece ++ rest) = piece :: runs p rest := by
  cases h with
  | single hnot => exact runs_cons_of_not hnot rest
  | @run c cs hall =>
    induction cs generalizing c with
    | nil =>
      cases rest with
      | nil => rfl
      | cons d rest =>
        have hd : p d = false := hrest d rfl
        rw [List.singleton_append, runs, runs_cons_of_not hd]
        simp [hd]
    | cons d cs ih =>
      obtain ⟨hc, hcs⟩ := List.forall_mem_cons.1 hall
      exact runs_cons_cons hc (hcs d List.mem_cons_self) (ih hcs)

/-- **Two texts in a row** fall into the pieces of both, unless a run goes on from one into the
other. -/
theorem runs_append {front rest : List Char}
    (h : ∀ c ∈ front.getLast?, ∀ d ∈ rest.head?, (p c && p d) = false) :
    runs p (front ++ rest) = runs p front ++ runs p rest := by
  induction front with
  | nil => rfl
  | cons c front ih =>
    cases front with
    | nil =>
      cases rest with
      | nil => rfl
      | cons d rest =>
        obtain ⟨run, pieces, hruns⟩ := runs_cons (p := p) d rest
        rw [List.singleton_append, runs, hruns]
        simp [h c rfl d rfl, runs]
    | cons d front =>
      obtain ⟨run, pieces, hruns⟩ := runs_cons (p := p) d front
      have hrest := ih (by simpa [List.getLast?_cons_cons] using h)
      rw [hruns, List.cons_append] at hrest
      -- the first character joins the same piece in both texts, or none in both
      rw [List.cons_append, List.cons_append, runs, hrest, runs, hruns]
      dsimp only [List.cons_append]
      split_ifs <;> rfl

end Runs

/-! ## Words -/

theorem spaced_singleton (word : List Char) : spaced [word] = word := List.intercalate_singleton

theorem spaced_cons {word : List Char} {rest : List (List Char)} (h : rest ≠ []) :
    spaced (word :: rest) = word ++ ' ' :: spaced rest := by
  obtain ⟨next, rest, rfl⟩ := List.exists_cons_of_ne_nil h
  rw [spaced, List.intercalate_cons_cons, List.append_assoc, List.singleton_append, spaced]

theorem ofList_spaced (words : List (List Char)) :
    String.ofList (spaced words) = " ".intercalate (words.map String.ofList) := by
  rw [← String.toList_inj, String.toList_ofList, String.toList_intercalate, List.map_map]
  simp [spaced, Function.comp_def]

theorem filter_spaced (words : List (List Char)) :
    (spaced words).filter (!isBlank ·) = words.flatten.filter (!isBlank ·) := by
  induction words with
  | nil => rfl
  | cons word words ih =>
    by_cases hnil : words = []
    · simp [hnil, spaced_singleton]
    · have hspace : isBlank ' ' = true := rfl
      rw [spaced_cons hnil, List.filter_append, List.filter_cons_of_neg (by simp [hspace]), ih,
        List.flatten_cons, List.filter_append]

/-- The text is a word: there are no blanks in it. -/
structure IsWord (word : List Char) : Prop where
  ne_nil : word ≠ []
  voiced : ∀ c ∈ word, isBlank c = false

theorem isWord_of_mem_words {cs word : List Char} (h : word ∈ words cs) : IsWord word := by
  obtain ⟨hmem, hvoiced⟩ := List.mem_filter.1 h
  cases piece_of_mem_runs hmem with
  | run hall => exact ⟨List.cons_ne_nil _ _, by simpa using hall⟩
  | single hblank => simp [hblank] at hvoiced

theorem words_cons_of_isBlank {c : Char} (h : isBlank c = true) (cs : List Char) :
    words (c :: cs) = words cs := by
  rw [words, runs_cons_of_not (by simp [h]), List.filter_cons_of_neg (by simp [h]), words]

theorem words_append {word rest : List Char} (h : IsWord word)
    (hrest : ∀ c ∈ rest.head?, isBlank c = true) : words (word ++ rest) = word :: words rest := by
  obtain ⟨c, cs, rfl⟩ := List.exists_cons_of_ne_nil h.ne_nil
  have hpiece : Piece (!isBlank ·) (c :: cs) := .run (by simpa using h.voiced)
  have hvoiced : isBlank c = false := h.voiced c List.mem_cons_self
  rw [words, hpiece.runs_append (by simpa using hrest),
    List.filter_cons_of_pos (by simp [hvoiced]), words]

theorem words_word {word : List Char} (h : IsWord word) : words word = [word] := by
  have happend : words (word ++ []) = word :: words [] := words_append h (by simp)
  rwa [List.append_nil] at happend

theorem words_append_cons {word : List Char} (h : IsWord word) {c : Char} (hc : isBlank c = true)
    (cs : List Char) : words (word ++ c :: cs) = word :: words cs := by
  rw [words_append h (by simpa using hc), words_cons_of_isBlank hc]

/-- **Induction on the words of a text,** from left to right. -/
theorem words_induction {motive : List Char → Prop} (nil : motive [])
    (blank : ∀ c cs, isBlank c = true → motive cs → motive (c :: cs))
    (word : ∀ w, IsWord w → motive w)
    (append : ∀ w c cs, IsWord w → isBlank c = true → motive cs → motive (w ++ c :: cs))
    (cs : List Char) : motive cs := by
  induction hn : cs.length using Nat.strong_induction_on generalizing cs with
  | _ n ih =>
    subst hn
    cases cs with
    | nil => exact nil
    | cons c cs =>
      by_cases hc : isBlank c = true
      · exact blank c cs hc (ih cs.length (Nat.lt_succ_self _) cs rfl)
      · have hw : IsWord ((c :: cs).takeWhile (!isBlank ·)) :=
          ⟨by simp [hc], fun d hd => by simpa using List.mem_takeWhile_imp hd⟩
        have hsplit := List.takeWhile_append_dropWhile (p := (!isBlank ·)) (l := c :: cs)
        have hstop := List.head?_dropWhile_not (!isBlank ·) (c :: cs)
        generalize (c :: cs).takeWhile (!isBlank ·) = w at hw hsplit
        generalize (c :: cs).dropWhile (!isBlank ·) = rest at hsplit hstop
        rw [← hsplit]
        cases rest with
        | nil =>
          rw [List.append_nil]
          exact word w hw
        | cons d rest =>
          refine append w d rest hw (by simpa using hstop) (ih rest.length ?_ rest rfl)
          rw [← hsplit, List.length_append, List.length_cons]
          omega

/-- **Words are separated by blanks.** -/
theorem words_eq_splitOnP (cs : List Char) :
    words cs = (cs.splitOnP isBlank).filter (!·.isEmpty) := by
  induction cs using words_induction with
  | nil => rfl
  | blank c cs hc ih =>
    rw [words_cons_of_isBlank hc, ih, List.splitOnP_cons_eq_if_modifyHead, if_pos hc]
    rfl
  | word w hw =>
    rw [words_word hw, List.splitOnP_eq_singleton hw.voiced,
      List.filter_cons_of_pos (by simpa using hw.ne_nil), List.filter_nil]
  | append w c cs hw hc ih =>
    rw [words_append_cons hw hc, ih, List.splitOnP_append_cons_of_forall_mem hw.voiced c hc,
      List.filter_cons_of_pos (by simpa using hw.ne_nil)]

/-! ## Single spaces -/

/-- The only blanks of the text are single spaces between its words. -/
structure SingleSpaced (cs : List Char) : Prop where
  head : ∀ c ∈ cs.head?, isBlank c = false
  last : ∀ c ∈ cs.getLast?, isBlank c = false
  space : ∀ c ∈ cs, isBlank c = true → c = ' '
  apart : cs.IsChain fun c d => isBlank c = false ∨ isBlank d = false

/-! ### Putting blanks in order -/

theorem length_spaced_words_le (cs : List Char) : (spaced (words cs)).length ≤ cs.length := by
  induction cs using words_induction with
  | nil => exact Nat.le_refl 0
  | blank c cs hc ih =>
    rw [words_cons_of_isBlank hc]
    exact Nat.le_succ_of_le ih
  | word w hw => rw [words_word hw, spaced_singleton]
  | append w c cs hw hc ih =>
    rw [words_append_cons hw hc]
    by_cases hnil : words cs = []
    · rw [hnil, spaced_singleton, List.length_append]
      exact Nat.le_add_right _ _
    · rw [spaced_cons hnil, List.length_append, List.length_append]
      exact Nat.add_le_add_left (Nat.succ_le_succ ih) _

/-! ### Blanks in order -/

theorem IsWord.singleSpaced {word : List Char} (h : IsWord word) : SingleSpaced word where
  head := fun c hc => h.voiced c (List.mem_of_head? hc)
  last := fun c hc => h.voiced c (List.mem_of_getLast? hc)
  space := fun c hc hblank => by rw [h.voiced c hc] at hblank; cases hblank
  apart := (List.pairwise_of_forall_mem_list fun c hc _ _ => .inl (h.voiced c hc)).isChain

theorem singleSpaced_append_iff {word : List Char} (h : IsWord word) {c : Char}
    (hc : isBlank c = true) {cs : List Char} :
    SingleSpaced (word ++ c :: cs) ↔ c = ' ' ∧ cs ≠ [] ∧ SingleSpaced cs := by
  have hlast (hne : cs ≠ []) : (word ++ c :: cs).getLast? = cs.getLast? := by
    rw [List.getLast?_append_of_ne_nil _ (List.cons_ne_nil c cs), ← List.singleton_append,
      List.getLast?_append_of_ne_nil _ hne]
  constructor
  · intro hspaced
    have hne : cs ≠ [] := by
      rintro rfl
      have hvoiced := hspaced.last c (by simp)
      rw [hc] at hvoiced
      cases hvoiced
    obtain ⟨-, hapart, -⟩ := List.isChain_append.1 hspaced.apart
    obtain ⟨hnext, hrest⟩ := List.isChain_cons.1 hapart
    refine ⟨hspaced.space c (by simp) hc, hne, ?_, ?_, ?_, hrest⟩
    · intro d hd
      exact (hnext d hd).resolve_left (by simp [hc])
    · rw [← hlast hne]
      exact hspaced.last
    · exact fun d hd => hspaced.space d (by simp [hd])
  · rintro ⟨rfl, hne, hspaced⟩
    refine ⟨?_, ?_, ?_, ?_⟩
    · rw [List.head?_append_of_ne_nil _ h.ne_nil]
      exact h.singleSpaced.head
    · rw [hlast hne]
      exact hspaced.last
    · intro d hd hblank
      rcases List.mem_append.1 hd with hd | hd
      · exact h.singleSpaced.space d hd hblank
      · rcases List.mem_cons.1 hd with rfl | hd
        · rfl
        · exact hspaced.space d hd hblank
    · refine List.isChain_append.2 ⟨h.singleSpaced.apart, ?_, ?_⟩
      · exact List.isChain_cons.2 ⟨fun d hd => .inr (hspaced.head d hd), hspaced.apart⟩
      · exact fun d hd _ _ => .inl (h.singleSpaced.last d hd)

theorem singleSpaced_nil : SingleSpaced [] := ⟨by simp, by simp, by simp, .nil⟩

/-- **Words one space apart** are in order, and they are none if nothing comes out. -/
theorem singleSpaced_spaced {ws : List (List Char)} (h : ∀ w ∈ ws, IsWord w) :
    SingleSpaced (spaced ws) ∧ (spaced ws = [] → ws = []) := by
  induction ws with
  | nil => exact ⟨singleSpaced_nil, fun _ => rfl⟩
  | cons w ws ih =>
    obtain ⟨hw, hws⟩ := List.forall_mem_cons.1 h
    obtain ⟨hspaced, hempty⟩ := ih hws
    by_cases hnil : ws = []
    · rw [hnil, spaced_singleton]
      exact ⟨hw.singleSpaced, fun hempty => absurd hempty hw.ne_nil⟩
    · rw [spaced_cons hnil]
      refine ⟨(singleSpaced_append_iff hw rfl).2 ⟨rfl, fun hne => hnil (hempty hne), hspaced⟩, ?_⟩
      exact fun hempty => absurd (List.append_eq_nil_iff.1 hempty).1 hw.ne_nil

theorem singleSpaced_spaced_words (cs : List Char) : SingleSpaced (spaced (words cs)) :=
  (singleSpaced_spaced fun _ => isWord_of_mem_words).1

/-- **Blanks in order stay as they are.** -/
theorem spaced_words_eq_self_iff {cs : List Char} : spaced (words cs) = cs ↔ SingleSpaced cs := by
  refine ⟨fun heq => heq ▸ singleSpaced_spaced_words cs, fun h => ?_⟩
  induction cs using words_induction with
  | nil => rfl
  | blank c cs hc =>
    have hvoiced := h.head c rfl
    rw [hc] at hvoiced
    cases hvoiced
  | word w hw => rw [words_word hw, spaced_singleton]
  | append w c cs hw hc ih =>
    obtain ⟨rfl, hne, hrest⟩ := (singleSpaced_append_iff hw hc).1 h
    have hwords : words cs ≠ [] := by
      intro hnil
      have heq := ih hrest
      rw [hnil] at heq
      exact hne heq.symm
    rw [words_append_cons hw hc, spaced_cons hwords, ih hrest]

end MathQuiz.Text
