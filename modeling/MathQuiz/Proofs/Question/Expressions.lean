import MathQuiz.Expr.Node
import MathQuiz.Proofs.Text.Pieces
import MathQuiz.Proofs.Question.Authoring
import MathQuiz.Proofs.Render.Composition
import MathQuiz.Proofs.Text.Joining

/-!
# Authored expressions

An expression that an author types is split into tokens and rendered token by token. Nothing but
blanks gets lost on the way: the LaTeX is the expression itself with its signs rewritten, and the
speech can be split into the same tokens again.

* `IsToken`, `flatten_tokens`: a piece without blanks, and the tokens in a row;
* **`tokens_spaced`**: tokens one space apart are split into themselves;
* `Node.content`, `Text.withoutBlanks`: what a token writes, and a text without its blanks;
* `value_latex_tokenize`, `value_speech_tokenize`: both renderings of the tokens in a row;
* **`expression_kept`**: both renderings of an accepted expression without markup;
* `tokens_append`, `length_tokens_seam`: the tokens of two expressions in a row, between which a
  number goes on or not;
* **`tokenize_lossless`**: nothing is lost, and when the tokens are those of the parts.
-/

/-! ## Tokens -/

namespace MathQuiz

open Json (bind_eq_ok)
open Text (Piece isBlank runs spaced)

theorem isNumeric_of_isBlank {c : Char} (h : isBlank c = true) : isNumeric c = false := by
  -- digits and the point lie between the blanks of ASCII and the other ones
  have hrange : c.toNat ≤ 0x20 ∨ 0x85 ≤ c.toNat := by
    simp only [isBlank, Bool.or_eq_true, Bool.and_eq_true, decide_eq_true_eq, beq_iff_eq] at h
    omega
  have hdigit : c.isDigit = false := by
    rw [Bool.eq_false_iff, ne_eq, Char.isDigit_iff_toNat]
    rintro ⟨hlow, hhigh⟩
    change 48 ≤ c.toNat at hlow
    change c.toNat ≤ 57 at hhigh
    omega
  have hpoint : c ≠ '.' := by
    rintro rfl
    revert hrange
    decide
  simp [isNumeric, hdigit, hpoint]

theorem isBlank_of_isNumeric {c : Char} (h : isNumeric c = true) : isBlank c = false := by
  by_contra hblank
  rw [isNumeric_of_isBlank (by simpa using hblank)] at h
  cases h

/-- A run of digits and points, or one other character that is not blank. -/
structure IsToken (token : List Char) : Prop where
  piece : Piece isNumeric token
  voiced : ∀ c ∈ token, isBlank c = false

namespace IsToken

variable {token : List Char} (h : IsToken token)
include h

theorem ne_nil : token ≠ [] := by
  cases h.piece <;> exact List.cons_ne_nil _ _

theorem all_isBlank : token.all isBlank = false := by
  obtain ⟨c, cs, rfl⟩ := List.exists_cons_of_ne_nil h.ne_nil
  rw [List.all_cons, h.voiced c List.mem_cons_self, Bool.false_and]

end IsToken

theorem isToken_of_piece {piece : List Char} (h : Piece isNumeric piece)
    (hvoiced : piece.all isBlank = false) : IsToken piece := by
  refine ⟨h, ?_⟩
  cases h with
  | run hall => exact fun c hc => isBlank_of_isNumeric (hall c hc)
  | single hnot => simpa using hvoiced

theorem isToken_of_mem_tokens {cs piece : List Char} (h : piece ∈ tokens cs) : IsToken piece := by
  obtain ⟨hmem, hvoiced⟩ := List.mem_filter.1 h
  exact isToken_of_piece (Text.piece_of_mem_runs hmem) (by simpa using hvoiced)

/-! ### Nothing is lost -/

theorem flatten_filter_voiced {pieces : List (List Char)}
    (h : ∀ piece ∈ pieces, Piece isNumeric piece) :
    (pieces.filter (!·.all isBlank)).flatten = pieces.flatten.filter (!isBlank ·) := by
  induction pieces with
  | nil => rfl
  | cons piece pieces ih =>
    obtain ⟨hpiece, hpieces⟩ := List.forall_mem_cons.1 h
    rw [List.flatten_cons, List.filter_append, ← ih hpieces]
    cases hvoiced : piece.all isBlank with
    | true =>
      have hnone : piece.filter (!isBlank ·) = [] := by simpa using hvoiced
      rw [List.filter_cons_of_neg (by simp [hvoiced]), hnone, List.nil_append]
    | false =>
      have hall : piece.filter (!isBlank ·) = piece :=
        List.filter_eq_self.2 fun c hc => by simp [(isToken_of_piece hpiece hvoiced).voiced c hc]
      rw [List.filter_cons_of_pos (by simp [hvoiced]), List.flatten_cons, hall]

/-- **Only blanks are dropped.** -/
theorem flatten_tokens (cs : List Char) : (tokens cs).flatten = cs.filter (!isBlank ·) := by
  rw [tokens, flatten_filter_voiced fun _ => Text.piece_of_mem_runs, Text.flatten_runs]

/-! ### Tokens are found again -/

theorem tokens_token_append {piece rest : List Char} (h : IsToken piece)
    (hrest : ∀ c ∈ rest.head?, isNumeric c = false) :
    tokens (piece ++ rest) = piece :: tokens rest := by
  rw [tokens, h.piece.runs_append hrest, List.filter_cons_of_pos (by simp [h.all_isBlank]), tokens]

theorem tokens_token {piece : List Char} (h : IsToken piece) : tokens piece = [piece] := by
  have happend : tokens (piece ++ []) = piece :: tokens [] := tokens_token_append h (by simp)
  rwa [List.append_nil] at happend

theorem tokens_token_blank {piece : List Char} (h : IsToken piece) {c : Char}
    (hc : isBlank c = true) (rest : List Char) :
    tokens (piece ++ c :: rest) = piece :: tokens rest := by
  have hnot : isNumeric c = false := isNumeric_of_isBlank hc
  rw [tokens_token_append h (by simpa using hnot), tokens, Text.runs_cons_of_not hnot,
    List.filter_cons_of_neg (by simp [hc]), tokens]

/-- **Tokens one space apart** are split into themselves. -/
theorem tokens_spaced {pieces : List (List Char)} (h : ∀ piece ∈ pieces, IsToken piece) :
    tokens (spaced pieces) = pieces := by
  induction pieces with
  | nil => rfl
  | cons piece pieces ih =>
    obtain ⟨hpiece, hpieces⟩ := List.forall_mem_cons.1 h
    by_cases hnil : pieces = []
    · rw [hnil, Text.spaced_singleton, tokens_token hpiece]
    · rw [Text.spaced_cons hnil, tokens_token_blank hpiece rfl, ih hpieces]

/-! ## Tokens as nodes -/

/-- What a text or a number writes. -/
def Node.content : Node → String
  | .leaf (.text content) _ | .leaf (.decimal content) _ => content
  | .leaf (.input _) _ | .leaf (.rich _) _ | .leaf (.unrecognized _) _ | .pair .. | .run .. => ""

/-- The text without its blanks. -/
def Text.withoutBlanks (s : String) : String := String.ofList (s.toList.filter (!isBlank ·))

open Text (withoutBlanks)

theorem content_ofToken (token : List Char) :
    (Node.ofToken token).content = String.ofList token := by
  rw [Node.ofToken]
  split <;> rfl

theorem map_content_tokenize (expression : String) :
    (tokenize expression).map Node.content = (tokens expression.toList).map String.ofList := by
  rw [tokenize, List.map_map]
  exact List.map_congr_left fun token _ => content_ofToken token

theorem join_content_tokenize (expression : String) :
    String.join ((tokenize expression).map Node.content) = withoutBlanks expression := by
  have htoList : String.toList ∘ String.ofList = id := funext fun _ => String.toList_ofList
  rw [map_content_tokenize, withoutBlanks, ← flatten_tokens, ← String.toList_inj,
    String.toList_ofList, String.toList_join, ← List.flatMap_id, List.flatMap_map]
  simp

/-! ### LaTeX of tokens -/

section Latex

variable {w : LatexSettings}

theorem LatexSettings.text_append (s t : String) : w.text (s ++ t) = w.text s ++ w.text t := by
  simp [LatexSettings.text]

theorem LatexSettings.join_map_text (contents : List String) :
    String.join (contents.map w.text) = w.text (String.join contents) := by
  induction contents with
  | nil => rfl
  | cons content contents ih =>
    rw [List.map_cons, String.join_cons, String.join_cons, ih, text_append]

variable (hw : isNumeric w.multiplicationSign = false)
include hw

theorem LatexSettings.text_of_isNumeric {token : List Char} (h : ∀ c ∈ token, isNumeric c = true) :
    w.text (String.ofList token) = String.ofList token := by
  have hone : ∀ c ∈ token,
      (if c = w.multiplicationSign then w.timesToken.toList else [c]) = [c] := by
    intro c hc
    refine if_neg ?_
    rintro rfl
    rw [h _ hc] at hw
    cases hw
  rw [text, String.toList_ofList, List.flatMap_congr hone, List.flatMap_singleton']

theorem value_latex_ofToken {token : List Char} (h : IsToken token) :
    ((Node.ofToken token).latex w).value = w.text (String.ofList token) := by
  rw [Node.ofToken]
  split
  · next hhead =>
    cases h.piece with
    | run hall => exact (LatexSettings.text_of_isNumeric hw hall).symm
    | single hnot => simp [hnot] at hhead
  · rfl

/-- **Rewriting token by token** is rewriting the expression. -/
theorem value_latex_tokenize (expression : String) :
    (latexAll w (tokenize expression)).value = w.text (withoutBlanks expression) := by
  have hone : (tokenize expression).map (fun node => (node.latex w).value) =
      ((tokenize expression).map Node.content).map w.text := by
    rw [map_content_tokenize, tokenize, List.map_map, List.map_map]
    exact List.map_congr_left fun token htoken =>
      value_latex_ofToken hw (isToken_of_mem_tokens htoken)
  rw [value_latexAll, hone, LatexSettings.join_map_text, join_content_tokenize]

end Latex

/-! ### Speech of tokens -/

section Speech

variable (w : SpeechSettings)

theorem value_speech_ofToken (token : List Char) :
    ((Node.ofToken token).speech w).value = String.ofList token := by
  rw [Node.ofToken]
  split <;> rfl

theorem voiced_ofToken {tokens : List (List Char)} (h : ∀ token ∈ tokens, IsToken token) :
    Text.voiced (tokens.map String.ofList) = tokens.map String.ofList := by
  induction tokens with
  | nil => rfl
  | cons token tokens ih =>
    obtain ⟨htoken, htokens⟩ := List.forall_mem_cons.1 h
    have hblank : Text.blankOnly (String.ofList token) = false := by
      rw [Text.blankOnly, String.toList_ofList, htoken.all_isBlank]
    have htight : Text.Tight (String.ofList token) := by
      constructor
      · intro c hc
        rw [String.toList_ofList] at hc
        exact htoken.voiced c (List.mem_of_head? hc)
      · intro c hc
        rw [String.toList_ofList] at hc
        exact htoken.voiced c (List.mem_of_getLast? hc)
    rw [List.map_cons, ← List.singleton_append, Text.voiced_append, ih htokens]
    simp [Text.voiced, hblank, Text.trim_eq_self_iff.2 htight]

/-- **Tokens are read out one space apart.** -/
theorem value_speech_tokenize (expression : String) :
    (speechAll w (tokenize expression)).value =
      " ".intercalate ((tokenize expression).map Node.content) := by
  have hone : (tokenize expression).map (fun node => (node.speech w).value) =
      (tokens expression.toList).map String.ofList := by
    rw [tokenize, List.map_map]
    exact List.map_congr_left fun token _ => value_speech_ofToken w token
  rw [value_speechAll, hone, map_content_tokenize, Text.joinWords_eq_intercalate,
    voiced_ofToken fun _ => isToken_of_mem_tokens]

end Speech

/-! ### The node of an expression -/

/-- **The node of an accepted expression** has its tokens as children. -/
theorem eq_run_of_append {q q' : Question} {d : Draft}
    (hkind : d.kind = .algebraic ∨ d.kind = .equation) (haccepted : (q.append d).value = .ok q') :
    ∃ v form, d.values = [v] ∧ q' = q.push (.run form (tokenize v) d.markup d.hints) := by
  obtain ⟨node, hnode, rfl⟩ := Question.append_eq_ok_iff.1 haccepted
  obtain ⟨kind, values, markup, hints⟩ := d
  obtain ⟨checked, hcheck, hbuild⟩ := bind_eq_ok.1 hnode
  obtain ⟨hvalues, -, -⟩ := check_eq_ok_iff.1 hcheck
  rcases hkind with hkind | hkind
  · cases hkind
    cases hbuild
    exact ⟨checked, .algebraic, ofList?_single hvalues, rfl⟩
  · cases hkind
    cases hbuild
    exact ⟨checked, .equation, ofList?_single hvalues, rfl⟩

/-- **Both renderings keep an authored expression:** LaTeX is its text without blanks, with words
for signs, and speech is its tokens one space apart, which are found in it again. -/
theorem expression_kept {q q' : Question} {d : Draft}
    (hkind : d.kind = .algebraic ∨ d.kind = .equation) (hmarkup : d.markup = none)
    (haccepted : (q.append d).value = .ok q') :
    ∃ v node, d.values = [v] ∧ q' = q.push node ∧ node.children = tokenize v ∧
      (∀ w : LatexSettings, isNumeric w.multiplicationSign = false →
        (node.latex w).value = String.ofList ((withoutBlanks v).toList.flatMap fun c =>
          if c = w.multiplicationSign then w.timesToken.toList else [c])) ∧
      ∀ w : SpeechSettings,
        (node.speech w).value = " ".intercalate (node.children.map Node.content) ∧
        withoutBlanks (node.speech w).value = withoutBlanks v ∧
        tokenize (node.speech w).value = node.children := by
  obtain ⟨v, form, hvalues, rfl⟩ := eq_run_of_append hkind haccepted
  rw [hmarkup]
  refine ⟨v, _, hvalues, rfl, rfl, fun w hw => value_latex_tokenize hw v, fun w => ?_⟩
  rw [speech_run, value_speech_tokenize]
  have hspoken : (" ".intercalate ((tokenize v).map Node.content)).toList =
      Text.spaced (tokens v.toList) := by
    rw [map_content_tokenize, ← Text.ofList_spaced, String.toList_ofList]
  refine ⟨rfl, ?_, ?_⟩
  · rw [withoutBlanks, hspoken, Text.filter_spaced, flatten_tokens, List.filter_filter]
    simp [withoutBlanks]
  · rw [tokenize, hspoken, tokens_spaced fun _ => isToken_of_mem_tokens]
    rfl

/-- An expression with two numbers, a sign and a blank that is not of ASCII. -/
theorem expression_kept_two_numbers :
    let d : Draft := ⟨.equation, ["1 2*x\u00a0= .5"], none, .default⟩
    let node : Node := .run .equation (tokenize "1 2*x\u00a0= .5") none .default
    ((d.kind = .algebraic ∨ d.kind = .equation) ∧ d.markup = none ∧
      (Question.empty.append d).value = .ok (Question.empty.push node)) ∧
    (node.latex .default).value = "12\\times x=.5" ∧
    (node.speech .default).value = "1 2 * x = .5" ∧ tokenize "1 2 * x = .5" = node.children := by
  intro d node
  have haccepted : (Question.empty.append d).value = .ok (Question.empty.push node) := by
    decide +kernel
  obtain ⟨v, node', hvalues, hnode, -, hlatex, hspeech⟩ :=
    expression_kept (d := d) (.inr rfl) rfl haccepted
  obtain rfl : _ = v := List.head_eq_of_cons_eq hvalues
  obtain rfl : node = node' := by simpa [Question.push] using hnode
  obtain ⟨hspoken, -, htokens⟩ := hspeech .default
  have hspoken' : (node.speech .default).value = "1 2 * x = .5" := by
    rw [hspoken]
    decide +kernel
  refine ⟨⟨.inr rfl, rfl, haccepted⟩, ?_, hspoken', by rw [← htokens, hspoken']⟩
  rw [hlatex .default rfl]
  decide +kernel

/-! ## Where expressions meet

Two expressions in a row have the tokens of the first one and then those of the second one, unless a
number goes on from one into the other: then its two halves are one token. -/

/-! ### Kinds of tokens -/

theorem mem_tokenize {expression : String} {node : Node} (h : node ∈ tokenize expression) :
    (∃ content, node = .leaf (.decimal content) .default ∧ content ≠ "" ∧
      ∀ c ∈ content.toList, isNumeric c = true) ∨
    ∃ c, node = .leaf (.text (String.singleton c)) .default ∧ isBlank c = false ∧
      isNumeric c = false := by
  obtain ⟨token, htoken, rfl⟩ := List.mem_map.1 h
  obtain ⟨hpiece, hvoiced⟩ := isToken_of_mem_tokens htoken
  cases hpiece with
  | @run c cs hall =>
    refine .inl ⟨String.ofList (c :: cs), ?_, ?_, ?_⟩
    · rw [Node.ofToken, List.head?_cons, Option.any_some, if_pos (hall c List.mem_cons_self)]
    · exact fun hempty => List.cons_ne_nil c cs (String.ofList_eq_empty_iff.1 hempty)
    · rwa [String.toList_ofList]
  | @single c hnot =>
    refine .inr ⟨c, ?_, hvoiced c List.mem_cons_self, hnot⟩
    rw [Node.ofToken, List.head?_cons, Option.any_some, hnot, if_neg Bool.false_ne_true,
      String.singleton_eq_ofList]

/-! ### Expressions in a row -/

/-- The last character can belong to a number that goes on behind the text. -/
def EndsNumeric (cs : List Char) : Prop := ∃ c ∈ cs.getLast?, isNumeric c = true

/-- The first character can belong to a number that has begun in front of the text. -/
def BeginsNumeric (cs : List Char) : Prop := ∃ c ∈ cs.head?, isNumeric c = true

/-- **No token goes on over the seam** unless both sides touch it with a number. -/
theorem tokens_append {front rest : List Char} (h : ¬ (EndsNumeric front ∧ BeginsNumeric rest)) :
    tokens (front ++ rest) = tokens front ++ tokens rest := by
  have hseam : ∀ c ∈ front.getLast?, ∀ d ∈ rest.head?, (isNumeric c && isNumeric d) = false := by
    intro c hc d hd
    rw [← Bool.not_eq_true, Bool.and_eq_true]
    exact fun hboth => h ⟨⟨c, hc, hboth.1⟩, d, hd, hboth.2⟩
  rw [tokens, Text.runs_append hseam, List.filter_append, tokens, tokens]

theorem length_tokens_cons_cons (c d : Char) (cs : List Char) :
    (tokens (c :: d :: cs)).length =
      (tokens (d :: cs)).length + if isBlank c || isNumeric c && isNumeric d then 0 else 1 := by
  obtain ⟨run, rest, hruns⟩ := Text.runs_cons (p := isNumeric) d cs
  rw [tokens, tokens, Text.runs, hruns]
  cases hboth : isNumeric c && isNumeric d with
  | false => cases hblank : isBlank c <;> simp [hboth, hblank]
  | true =>
    obtain ⟨hc, hd⟩ := Bool.and_eq_true_iff.1 hboth
    simp [hboth, isBlank_of_isNumeric hc, isBlank_of_isNumeric hd]

/-- **A number that goes on over the seam** is one token, not two. -/
theorem length_tokens_seam {front rest : List Char} (hfront : EndsNumeric front)
    (hrest : BeginsNumeric rest) :
    (tokens (front ++ rest)).length + 1 = (tokens front).length + (tokens rest).length := by
  obtain ⟨d, hd, hdnumeric⟩ := hrest
  obtain ⟨rest, rfl⟩ := List.head?_eq_some_iff.1 hd
  induction front with
  | nil =>
    obtain ⟨c, hc, -⟩ := hfront
    cases hc
  | cons c front ih =>
    cases front with
    | nil =>
      have hc : isNumeric c = true := by simpa [EndsNumeric] using hfront
      have hone : (tokens [c]).length = 1 := by
        simp [tokens, Text.runs, isBlank_of_isNumeric hc]
      rw [List.singleton_append, length_tokens_cons_cons, hone]
      simp [hc, hdnumeric, Nat.add_comm]
    | cons c' front =>
      have hseam := ih (by simpa [EndsNumeric, List.getLast?_cons_cons] using hfront)
      rw [List.cons_append] at hseam
      rw [List.cons_append, List.cons_append, length_tokens_cons_cons, length_tokens_cons_cons]
      omega

theorem tokenize_append_iff (a b : String) :
    tokenize (a ++ b) = tokenize a ++ tokenize b ↔
      ¬ (EndsNumeric a.toList ∧ BeginsNumeric b.toList) := by
  rw [tokenize, tokenize, tokenize, String.toList_append]
  refine ⟨fun heq hseam => ?_, fun hseam => by rw [tokens_append hseam, List.map_append]⟩
  have hlength := congrArg List.length heq
  have hless := length_tokens_seam hseam.1 hseam.2
  simp only [List.length_append, List.length_map] at hlength
  omega

/-- **Expressions are split without loss, and numbers as a whole.** The tokens of two expressions in
a row are those of both, unless a number goes on over the seam. -/
theorem tokenize_lossless :
    (∀ expression : String,
      String.join ((tokenize expression).map Node.content) = withoutBlanks expression ∧
      ∀ node ∈ tokenize expression,
        (∃ content, node = .leaf (.decimal content) .default ∧ content ≠ "" ∧
          ∀ c ∈ content.toList, isNumeric c = true) ∨
        ∃ c, node = .leaf (.text (String.singleton c)) .default ∧ isBlank c = false ∧
          isNumeric c = false) ∧
    ∀ a b : String, tokenize (a ++ b) = tokenize a ++ tokenize b ↔
      ¬ ((∃ c ∈ a.toList.getLast?, isNumeric c = true) ∧
        ∃ c ∈ b.toList.head?, isNumeric c = true) :=
  ⟨fun expression => ⟨join_content_tokenize expression, fun _ => mem_tokenize⟩, tokenize_append_iff⟩

/-- A number goes on over a seam, but not over a blank. -/
example : tokenize ("1" ++ ".5") = [.leaf (.decimal "1.5") .default] ∧
    tokenize ("1 " ++ ".5") = [.leaf (.decimal "1") .default, .leaf (.decimal ".5") .default] := by
  decide +kernel

end MathQuiz
