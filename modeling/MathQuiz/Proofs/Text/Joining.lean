import MathQuiz.Text.Basic
import Mathlib.Data.List.Basic
import Mathlib.Data.List.TakeWhile

/-!
# Trimmed and joined texts

Fragments that are joined and then joined again with others read as if all had been joined at once:
silent fragments leave no gap, and what is joined is trimmed already.

* `trim_eq_empty_iff`, `mem_trimChars`: nothing is left exactly of a text of blanks, and a character
  that is not blank is kept;
* `Tight`: a text neither begins nor ends with a blank; `trim_eq_self_iff`: the trimmed texts;
* `voiced`, `joinWords_eq_intercalate`: joining as one intercalation of the fragments to be heard;
* `tight_joinWords`, `joinWords_eq_empty_iff`: joined fragments are tight, and empty if all are
  blank;
* **`joinWords_append`**: joining by parts.
-/

/-! ## Trimming -/

namespace MathQuiz.Text

theorem trimChars_eq_nil_iff {cs : List Char} : trimChars cs = [] ↔ ∀ c ∈ cs, isBlank c = true := by
  rw [trimChars, List.reverse_eq_nil_iff, List.dropWhile_eq_nil_iff]
  constructor
  · intro h c hc
    rw [← List.takeWhile_append_dropWhile (p := isBlank) (l := cs)] at hc
    rcases List.mem_append.1 hc with hc | hc
    · exact List.mem_takeWhile_imp hc
    · exact h c (List.mem_reverse.2 hc)
  · intro h c hc
    exact h c ((List.dropWhile_sublist _).subset (List.mem_reverse.1 hc))

theorem mem_trimChars {cs : List Char} {c : Char} (h : isBlank c = false) :
    c ∈ trimChars cs ↔ c ∈ cs := by
  have hdrop (cs : List Char) : c ∈ cs.dropWhile isBlank ↔ c ∈ cs := by
    refine ⟨fun hc => (List.dropWhile_sublist _).subset hc, fun hc => ?_⟩
    rw [← List.takeWhile_append_dropWhile (p := isBlank) (l := cs)] at hc
    refine (List.mem_append.1 hc).resolve_left fun hfront => ?_
    rw [List.mem_takeWhile_imp hfront] at h
    cases h
  rw [trimChars, List.mem_reverse, hdrop, List.mem_reverse, hdrop]

theorem trim_eq_empty_iff {s : String} : trim s = "" ↔ blankOnly s = true := by
  rw [trim, ← String.toList_eq_nil_iff, String.toList_ofList, trimChars_eq_nil_iff, blankOnly,
    List.all_eq_true]

theorem blankOnly_trim (s : String) : blankOnly (trim s) = blankOnly s := by
  rw [blankOnly, blankOnly, toList_trim, Bool.eq_iff_iff, List.all_eq_true, List.all_eq_true]
  constructor
  · intro h c hc
    by_contra hnot
    exact hnot (h c ((mem_trimChars (Bool.eq_false_iff.2 hnot)).2 hc))
  · intro h c hc
    by_contra hnot
    exact hnot (h c ((mem_trimChars (Bool.eq_false_iff.2 hnot)).1 hc))

/-! ## Ends of a text -/

/-- The text neither begins nor ends with a blank. -/
structure Tight (s : String) : Prop where
  head : ∀ c ∈ s.toList.head?, isBlank c = false
  last : ∀ c ∈ s.toList.getLast?, isBlank c = false

theorem isBlank_of_mem_head?_dropWhile {cs : List Char} {c : Char}
    (h : c ∈ (cs.dropWhile isBlank).head?) : isBlank c = false := by
  have hnot := List.head?_dropWhile_not isBlank cs
  rwa [Option.mem_def.1 h] at hnot

theorem getLast?_dropWhile {cs : List Char} {c : Char}
    (h : c ∈ (cs.dropWhile isBlank).getLast?) : c ∈ cs.getLast? := by
  rw [← List.takeWhile_append_dropWhile (p := isBlank) (l := cs), List.getLast?_append]
  rw [Option.mem_def.1 h]
  rfl

theorem tight_trim (s : String) : Tight (trim s) := by
  constructor
  · intro c hc
    rw [toList_trim, trimChars, List.head?_reverse] at hc
    have hlast := getLast?_dropWhile hc
    rw [List.getLast?_reverse] at hlast
    exact isBlank_of_mem_head?_dropWhile hlast
  · intro c hc
    rw [toList_trim, trimChars, List.getLast?_reverse] at hc
    exact isBlank_of_mem_head?_dropWhile hc

theorem dropWhile_eq_self {cs : List Char} (h : ∀ c ∈ cs.head?, isBlank c = false) :
    cs.dropWhile isBlank = cs := by
  cases cs with
  | nil => rfl
  | cons c cs => exact List.dropWhile_cons_of_neg (by simp [h c rfl])

theorem trim_eq_self_iff {s : String} : trim s = s ↔ Tight s := by
  constructor
  · intro h
    rw [← h]
    exact tight_trim s
  · intro h
    have hlast : ∀ c ∈ s.toList.reverse.head?, isBlank c = false := by
      rw [List.head?_reverse]
      exact h.last
    rw [trim, trimChars, dropWhile_eq_self h.head, dropWhile_eq_self hlast, List.reverse_reverse,
      String.ofList_toList]

theorem trim_trim (s : String) : trim (trim s) = trim s := trim_eq_self_iff.2 (tight_trim s)

theorem Tight.append {s t : String} (hs : Tight s) (ht : Tight t) (hs0 : s ≠ "") (ht0 : t ≠ "")
    (between : String) : Tight (s ++ between ++ t) := by
  have hs0' : s.toList ≠ [] := fun h => hs0 (String.toList_eq_nil_iff.1 h)
  have ht0' : t.toList ≠ [] := fun h => ht0 (String.toList_eq_nil_iff.1 h)
  constructor
  · intro c hc
    rw [String.toList_append, String.toList_append, List.append_assoc,
      List.head?_append_of_ne_nil _ hs0'] at hc
    exact hs.head c hc
  · intro c hc
    rw [String.toList_append, List.getLast?_append_of_ne_nil _ ht0'] at hc
    exact ht.last c hc

/-! ## Joined fragments -/

/-- The fragments that are not blank, trimmed. -/
def voiced (fragments : List String) : List String := (fragments.filter (!blankOnly ·)).map trim

theorem voiced_append (as bs : List String) : voiced (as ++ bs) = voiced as ++ voiced bs := by
  simp [voiced]

theorem voiced_eq_nil_iff {fragments : List String} :
    voiced fragments = [] ↔ ∀ f ∈ fragments, blankOnly f = true := by
  simp [voiced]

theorem tight_of_mem_voiced {fragments : List String} {s : String} (h : s ∈ voiced fragments) :
    Tight s ∧ s ≠ "" := by
  obtain ⟨f, hf, rfl⟩ := List.mem_map.1 h
  have hblank : blankOnly f = false := by simpa using (List.mem_filter.1 hf).2
  refine ⟨tight_trim f, fun hempty => ?_⟩
  rw [trim_eq_empty_iff.1 hempty] at hblank
  cases hblank

theorem joinWords_eq_intercalate (fragments : List String) :
    joinWords fragments = " ".intercalate (voiced fragments) := by
  have hkept : ∀ f ∈ fragments, (!(trimChars f.toList).isEmpty) = !blankOnly f := by
    intro f _
    rw [Bool.eq_iff_iff]
    simp [trimChars_eq_nil_iff, blankOnly]
  have hwords : (fragments.map (trimChars ·.toList)).filter (!·.isEmpty) =
      (voiced fragments).map String.toList := by
    rw [List.filter_map, voiced, List.map_map, ← List.filter_congr hkept]
    exact List.map_congr_left fun f _ => (toList_trim f).symm
  rw [joinWords, hwords, spaced, ← String.toList_inj, String.toList_ofList,
    String.toList_intercalate]
  rfl

theorem tight_intercalate {words : List String} (h : ∀ s ∈ words, Tight s ∧ s ≠ "") :
    Tight (" ".intercalate words) ∧ (" ".intercalate words = "" ↔ words = []) := by
  induction words with
  | nil => exact ⟨trim_eq_self_iff.1 rfl, by simp⟩
  | cons s words ih =>
    obtain ⟨⟨hs, hs0⟩, hrest⟩ := List.forall_mem_cons.1 h
    cases words with
    | nil => simpa [hs0] using hs
    | cons t words =>
      obtain ⟨htight, hempty⟩ := ih hrest
      have hne : " ".intercalate (t :: words) ≠ "" := fun h => List.cons_ne_nil _ _ (hempty.1 h)
      rw [String.intercalate_cons_cons]
      exact ⟨hs.append htight hs0 hne " ", by simp [hs0]⟩

theorem tight_joinWords (fragments : List String) : Tight (joinWords fragments) := by
  rw [joinWords_eq_intercalate]
  exact (tight_intercalate fun _ => tight_of_mem_voiced).1

theorem joinWords_eq_empty_iff {fragments : List String} :
    joinWords fragments = "" ↔ ∀ f ∈ fragments, blankOnly f = true := by
  rw [joinWords_eq_intercalate, (tight_intercalate fun _ => tight_of_mem_voiced).2,
    voiced_eq_nil_iff]

/-! ## Joining by parts -/

theorem voiced_joinWords (fragments : List String) :
    voiced [joinWords fragments] = if voiced fragments = [] then [] else [joinWords fragments] := by
  have hblank : blankOnly (joinWords fragments) = true ↔ voiced fragments = [] := by
    rw [← trim_eq_empty_iff, trim_eq_self_iff.2 (tight_joinWords fragments),
      joinWords_eq_empty_iff, voiced_eq_nil_iff]
  split
  · next hnil => simpa [voiced] using hblank.2 hnil
  · next hne =>
    have hvoiced : blankOnly (joinWords fragments) = false := by
      rw [Bool.eq_false_iff]
      exact fun h => hne (hblank.1 h)
    simp [voiced, hvoiced, trim_eq_self_iff.2 (tight_joinWords fragments)]

/-- **Joining by parts** comes to the same as joining at once. -/
theorem joinWords_append (as bs : List String) :
    joinWords (as ++ bs) = joinWords [joinWords as, joinWords bs] := by
  have hparts : voiced [joinWords as, joinWords bs] =
      voiced [joinWords as] ++ voiced [joinWords bs] := voiced_append [_] [_]
  rw [joinWords_eq_intercalate (as ++ bs), joinWords_eq_intercalate [_, _], voiced_append, hparts,
    voiced_joinWords, voiced_joinWords, joinWords_eq_intercalate as, joinWords_eq_intercalate bs]
  -- a silent part leaves no space behind
  by_cases ha : voiced as = []
  · by_cases hb : voiced bs = [] <;> simp [ha, hb]
  · by_cases hb : voiced bs = []
    · simp [ha, hb]
    · simp [ha, hb, String.intercalate_append_of_ne_nil ha hb]

theorem joinWords_cons_congr {a : String} {as bs bs' : List String}
    (ha : joinWords [a] = joinWords as) (hb : joinWords bs = joinWords bs') :
    joinWords (a :: bs) = joinWords (as ++ bs') := by
  rw [← List.singleton_append, joinWords_append, ha, hb, joinWords_append as bs']

theorem joinWords_joinWords (fragments : List String) :
    joinWords [joinWords fragments] = joinWords fragments := by
  rw [joinWords_eq_intercalate, voiced_joinWords, joinWords_eq_intercalate fragments]
  by_cases h : voiced fragments = [] <;> simp [h]

end MathQuiz.Text
