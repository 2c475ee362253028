import MathQuiz.Proofs.Text.Markup
import MathQuiz.Proofs.Text.Pieces
import Mathlib.Data.List.Infix

/-!
# Payloads that are heard as they are written

What is heard of a payload is never longer than the payload. It is the payload itself exactly if no
tag begins in it, no entity stands in it, and its blanks are single spaces between words.

* `Shrinks`: a pass that keeps some texts and makes all others shorter; `Shrinks.comp`: two passes
  one after the other;
* `shrinks_substitute`, `shrinks_decodeEntities`: substitution of words by shorter ones;
* `shrinks_withoutTags`: leaving tags out;
* **`visible_literal`**: what is heard at all, and what is heard as it is written.
-/

namespace MathQuiz.Text

/-! ## Passes that shorten a text -/

/-- The pass leaves the texts with the property alone and makes all other texts shorter. -/
structure Shrinks (pass : List Char → List Char) (Kept : List Char → Prop) : Prop where
  keeps : ∀ cs, Kept cs → pass cs = cs
  shortens : ∀ cs, ¬ Kept cs → (pass cs).length < cs.length

namespace Shrinks

variable {pass next : List Char → List Char} {Kept Kept' : List Char → Prop}

theorem length_le (h : Shrinks pass Kept) (cs : List Char) : (pass cs).length ≤ cs.length := by
  by_cases hkept : Kept cs
  · rw [h.keeps cs hkept]
  · exact Nat.le_of_lt (h.shortens cs hkept)

/-- **Passes one after the other** leave alone what both of them do. -/
theorem comp (h : Shrinks pass Kept) (h' : Shrinks next Kept') :
    Shrinks (fun cs => next (pass cs)) (fun cs => Kept cs ∧ Kept' cs) where
  keeps := by
    rintro cs ⟨hkept, hkept'⟩
    rw [h.keeps cs hkept, h'.keeps cs hkept']
  shortens := by
    intro cs hnot
    by_cases hkept : Kept cs
    · rw [h.keeps cs hkept]
      exact h'.shortens cs fun hkept' => hnot ⟨hkept, hkept'⟩
    · exact (h'.length_le (pass cs)).trans_lt (h.shortens cs hkept)

end Shrinks

/-! ## Entities -/

section Substitute

variable {table : List Entry} (h : ∀ e ∈ table, e.substitute.length < e.word.length)
include h

theorem length_substitute_cons_lt {e : Entry} {c : Char} {cs : List Char}
    (hat : Entry.at? table (c :: cs) = some e)
    (hrest : (substituteFrom table (e.word.length - 1) cs).length ≤
      cs.length - (e.word.length - 1)) :
    (substitute table (c :: cs)).length < (c :: cs).length := by
  obtain ⟨hmem, hbegins⟩ := Entry.of_at?_eq_some hat
  have hless := h e hmem
  have hword := hbegins.length_le
  rw [substitute, substituteFrom, hat]
  rw [List.length_cons] at hword ⊢
  rw [List.length_append]
  omega

theorem length_substituteFrom_le (skip : Nat) (cs : List Char) :
    (substituteFrom table skip cs).length ≤ cs.length - skip := by
  induction cs generalizing skip with
  | nil => cases skip <;> exact Nat.zero_le _
  | cons c cs ih =>
    cases skip with
    | succ skip =>
      rw [substituteFrom, List.length_cons, Nat.add_sub_add_right]
      exact ih skip
    | zero =>
      cases hat : Entry.at? table (c :: cs) with
      | some e => exact Nat.le_of_lt (length_substitute_cons_lt h hat (ih _))
      | none =>
        rw [substituteFrom, hat]
        exact Nat.succ_le_succ (ih 0)

/-- **A substitution by shorter words** leaves exactly the texts alone in which no word stands. -/
theorem shrinks_substitute :
    Shrinks (substitute table) (fun cs => ∀ e ∈ table, ¬ e.word <:+: cs) where
  keeps := by
    intro cs hkept
    induction cs with
    | nil => rfl
    | cons c cs ih =>
      have hnone : Entry.at? table (c :: cs) = none :=
        Entry.at?_eq_none_iff.2 fun e he hbegins => hkept e he hbegins.isInfix
      have hrest := ih fun e he hmem => hkept e he (hmem.trans (List.suffix_cons c cs).isInfix)
      rw [substitute, substituteFrom, hnone]
      exact congrArg _ hrest
  shortens := by
    intro cs hnot
    induction cs with
    | nil =>
      refine absurd (fun e he hmem => ?_) hnot
      have hless := h e he
      rw [List.infix_nil.1 hmem] at hless
      exact Nat.not_lt_zero _ hless
    | cons c cs ih =>
      cases hat : Entry.at? table (c :: cs) with
      | some e => exact length_substitute_cons_lt h hat (length_substituteFrom_le h _ cs)
      | none =>
        -- no word stands in front, so one stands further behind
        have hrest : ¬ ∀ e ∈ table, ¬ e.word <:+: cs := fun hkept => hnot fun e he hmem =>
          (List.infix_cons_iff.1 hmem).elim (Entry.at?_eq_none_iff.1 hat e he) (hkept e he)
        rw [substitute, substituteFrom, hat]
        exact Nat.succ_lt_succ (ih hrest)

end Substitute

theorem shrinks_decodeEntities :
    Shrinks decodeEntities (fun cs => ∀ e ∈ entities, ¬ e.word <:+: cs) := by
  have hpass : decodeEntities = substitute entities := funext (foldl_substitute staged_entities)
  rw [hpass]
  exact shrinks_substitute (by decide)

/-! ## Tags -/

theorem length_outsideTags_le (inTag : Bool) (cs : List Char) :
    (outsideTags inTag cs).length ≤ cs.length := by
  induction cs generalizing inTag with
  | nil => exact Nat.le_refl 0
  | cons c cs ih =>
    rw [outsideTags]
    split_ifs
    · exact Nat.succ_le_succ (ih false)
    · exact Nat.le_succ_of_le (ih true)
    · exact Nat.le_succ_of_le (ih true)
    · exact Nat.succ_le_succ (ih false)

/-- A tag begins in front of the text. -/
def BeginsTag (cs : List Char) : Prop := ∃ c, opensTag c = true ∧ ['<', c] <+: cs

theorem beginsTag_iff {c : Char} {cs : List Char} :
    BeginsTag (c :: cs) ↔ (c = '<' && cs.head?.any opensTag) = true := by
  rw [Bool.and_eq_true, decide_eq_true_iff]
  constructor
  · rintro ⟨d, hd, rest, heq⟩
    obtain ⟨rfl, rfl⟩ := List.cons.inj heq
    exact ⟨rfl, hd⟩
  · rintro ⟨rfl, hhead⟩
    obtain ⟨d, hd, hopens⟩ := (Option.any_eq_true _ _).1 hhead
    obtain ⟨rest, rfl⟩ := List.head?_eq_some_iff.1 hd
    exact ⟨d, hopens, rest, rfl⟩

/-- **Leaving tags out** leaves exactly the texts alone in which no tag begins. -/
theorem shrinks_withoutTags :
    Shrinks withoutTags (fun cs => ∀ c, opensTag c = true → ¬ ['<', c] <:+: cs) where
  keeps := by
    intro cs hkept
    rw [withoutTags]
    induction cs with
    | nil => rfl
    | cons c cs ih =>
      have hnot : ¬ BeginsTag (c :: cs) := by
        rintro ⟨d, hd, hbegins⟩
        exact hkept d hd hbegins.isInfix
      rw [beginsTag_iff] at hnot
      rw [outsideTags, if_neg Bool.false_ne_true, if_neg hnot,
        ih fun d hd hmem => hkept d hd (hmem.trans (List.suffix_cons c cs).isInfix)]
  shortens := by
    intro cs hnot
    rw [withoutTags]
    induction cs with
    | nil => simp at hnot
    | cons c cs ih =>
      rw [outsideTags, if_neg Bool.false_ne_true]
      split
      · exact Nat.lt_succ_of_le (length_outsideTags_le true cs)
      · next hfront =>
        rw [← beginsTag_iff] at hfront
        refine Nat.succ_lt_succ (ih fun hkept => hnot fun d hd hmem => ?_)
        rcases List.infix_cons_iff.1 hmem with hbegins | hmem
        · exact hfront ⟨d, hd, hbegins⟩
        · exact hkept d hd hmem

/-! ## What is heard -/

theorem toList_visible (payload : String) : (visible payload).toList =
    spaced (words (decodeEntities (withoutTags payload.toList))) := by
  rw [visible, String.toList_ofList]

theorem shrinks_markup : Shrinks (fun cs => decodeEntities (withoutTags cs)) (fun cs =>
    (∀ c, opensTag c = true → ¬ ['<', c] <:+: cs) ∧ ∀ e ∈ entities, ¬ e.word <:+: cs) :=
  shrinks_withoutTags.comp shrinks_decodeEntities

theorem length_visible_le (payload : String) : (visible payload).length ≤ payload.length := by
  rw [← String.length_toList, ← String.length_toList, toList_visible]
  exact (length_spaced_words_le _).trans (shrinks_markup.length_le payload.toList)

theorem visible_eq_self_iff {payload : String} : visible payload = payload ↔
    SingleSpaced payload.toList ∧
      (∀ c, opensTag c = true → ¬ ['<', c] <:+: payload.toList) ∧
      ∀ e ∈ entities, ¬ e.word <:+: payload.toList := by
  rw [← String.toList_inj, toList_visible]
  constructor
  · intro heq
    have hle := length_spaced_words_le (decodeEntities (withoutTags payload.toList))
    rw [heq] at hle
    -- what comes out is as long as the payload, so nothing was taken away on the way
    have hkept := Classical.not_not.1 fun hnot =>
      Nat.not_lt.2 hle (shrinks_markup.shortens payload.toList hnot)
    rw [shrinks_markup.keeps payload.toList hkept] at heq
    exact ⟨spaced_words_eq_self_iff.1 heq, hkept⟩
  · rintro ⟨hspaced, hkept⟩
    rw [shrinks_markup.keeps payload.toList hkept, spaced_words_eq_self_iff.2 hspaced]

/-- **What is heard of any payload** is not longer than it, with single spaces for blanks, and is
the payload exactly if it has no tag, no entity and its blanks in order. -/
theorem visible_literal (payload : String) :
    (visible payload).length ≤ payload.length ∧ SingleSpaced (visible payload).toList ∧
    (visible payload = payload ↔ SingleSpaced payload.toList ∧
      (∀ c : Char, c.isAlpha = true ∨ c ∈ ['/', '!', '?'] → ¬ ['<', c] <:+: payload.toList) ∧
      ∀ entity ∈ ["&nbsp;", "&lt;", "&gt;", "&quot;", "&amp;"],
        ¬ entity.toList <:+: payload.toList) := by
  have hentities : (∀ e ∈ entities, ¬ e.word <:+: payload.toList) ↔
      ∀ entity ∈ ["&nbsp;", "&lt;", "&gt;", "&quot;", "&amp;"],
        ¬ entity.toList <:+: payload.toList := by
    simp only [entities, List.forall_mem_cons, List.not_mem_nil, false_imp_iff, implies_true]
  refine ⟨length_visible_le payload, ?_, ?_⟩
  · rw [toList_visible]
    exact singleSpaced_spaced_words _
  · rw [visible_eq_self_iff, hentities]
    simp only [opensTag_iff]

/-- Decoding can bring in an entity, so what is heard need not be heard as it is written. -/
example : visible "&amp;lt;" = "&lt;" ∧ visible "&lt;" = "<" := by decide +kernel

end MathQuiz.Text
