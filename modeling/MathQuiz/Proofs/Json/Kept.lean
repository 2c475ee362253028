import MathQuiz.Json.Schema
import MathQuiz.Proofs.Json.Reading

/-!
# What every value read has in common

A property of all values that a reader can give is shown without looking at the text: it is enough
that each item keeps it.

* `Yields`: a reader gives values with a property only;
* `bracketed_state`: what every item keeps is kept between brackets, also up to a fault;
* `bracketed_begins`: so items that begin a text are read, whatever follows them;
* **`yields_list`**, **`yields_structure`**: the same of lists and of structures.
-/

namespace MathQuiz.Json

variable {α σ : Type}

/-- Every value that the reader gives has the property. -/
def Yields (read : Reader α) (P : α → Prop) : Prop := ∀ cs a rest, read cs = .ok (a, rest) → P a

theorem bind_eq_ok {ε α β : Type} {x : Except ε α} {f : α → Except ε β} {b : β} :
    x >>= f = .ok b ↔ ∃ a, x = .ok a ∧ f a = .ok b := by
  cases x <;> simp [bind, Except.bind]

theorem map_eq_ok {ε α β : Type} {x : Except ε α} {f : α → β} {b : β} :
    x.map f = .ok b ↔ ∃ a, x = .ok a ∧ f a = b := by
  cases x <;> simp [Except.map]

theorem yields_true (read : Reader α) : Yields read fun _ => True := fun _ _ _ _ => trivial

theorem yields_opening {room : Nat} {inside : Nat → Except Fault α} {a : α}
    (h : opening room inside = .ok a) : ∃ n, room = n + 1 ∧ inside n = .ok a := by
  cases room with
  | zero => cases h
  | succ n => exact ⟨n, rfl, h⟩

/-! ## Items between brackets -/

section Items

variable {close : Char} {item : σ → Reader σ} {P : σ → Prop} (h : ∀ s, P s → Yields (item s) P)
include h

theorem separated_state (limit : Nat) {s : σ} (hs : P s) (cs : List Char) :
    P (separated close item limit s cs).state := by
  induction limit generalizing s cs with
  | zero => exact hs
  | succ limit ih =>
    rw [separated]
    split
    · exact hs
    · next s' rest hread =>
      have hs' : P s' := h s hs _ _ _ hread
      split
      · exact hs'
      · split
        · exact ih hs' _
        · split <;> exact hs'

/-- **What every item keeps is kept between brackets,** even if a fault ends the reading. -/
theorem bracketed_state {s : σ} (hs : P s) (cs : List Char) :
    P (bracketed close item s cs).state := by
  rw [bracketed]
  split
  · exact hs
  · split
    · exact hs
    · exact separated_state h _ hs _

theorem bracketed_kept {s s' : σ} {cs rest : List Char} (hs : P s)
    (hread : (bracketed close item s cs).toExcept = .ok (s', rest)) : P s' := by
  obtain ⟨_, -, heq⟩ := map_eq_ok.1 hread
  cases heq
  exact bracketed_state h hs cs

end Items

/-! ## Items that begin a text -/

section Begins

variable {close : Char} {item : σ → Reader σ} {P : σ → Prop} (h : ∀ s, P s → Yields (item s) P)
include h

theorem separated_begins {text : List Char} {texts : List (List Char)} {s s' : σ} {limit : Nat}
    (hpass : Passes item s (text :: texts) s') (hlimit : texts.length < limit) (hs' : P s')
    (rest : List Char) :
    P (separated close item limit s (commaSeparated (text :: texts) ++ rest)).state := by
  induction texts generalizing text s limit with
  | nil =>
    obtain ⟨limit, rfl⟩ : ∃ n, limit = n + 1 := ⟨limit - 1, by simp at hlimit; omega⟩
    obtain - | ⟨hread, hnil⟩ := hpass
    cases hnil
    rw [commaSeparated, separated, hread]
    -- the state is reached, and no item after it can lose what every item keeps
    dsimp only
    split
    · exact hs'
    · split
      · exact separated_state h _ hs' _
      · split <;> exact hs'
  | cons text' texts ih =>
    obtain ⟨limit, rfl⟩ : ∃ n, limit = n + 1 := ⟨limit - 1, by simp at hlimit; omega⟩
    obtain - | ⟨hread, hmore⟩ := hpass
    rw [commaSeparated, List.append_assoc, separated, hread]
    · simp only [List.cons_append, skipBlanks_cons (show isSpace ',' = false from rfl), if_true]
      exact ih hmore (by simpa using hlimit)
    · exact List.cons_ne_nil _ _

/-- **Items that begin a text are read,** and what holds then is kept whatever follows. -/
theorem bracketed_begins {texts : List (List Char)} {s s' : σ} (hclose : close = ']' ∨ close = '}')
    (hpass : Passes item s texts s') (hbegun : ∀ text ∈ texts, Begun text) (hs' : P s')
    (rest : List Char) : P (bracketed close item s (commaSeparated texts ++ rest)).state := by
  cases texts with
  | nil =>
    cases hpass
    exact bracketed_state h hs' _
  | cons text texts =>
    rw [bracketed_cons hclose (hbegun text List.mem_cons_self)]
    exact separated_begins h hpass (length_lt_commaSeparated hbegun rest) hs' rest

end Begins

theorem yields_nextItem {item : Reader α} {P : α → Prop} (h : Yields item P) (items : List α)
    (hitems : ∀ a ∈ items, P a) : Yields (nextItem item items) fun items => ∀ a ∈ items, P a := by
  intro cs items' rest hread
  obtain ⟨⟨a, rest'⟩, ha, heq⟩ := map_eq_ok.1 hread
  cases heq
  intro b hb
  rcases List.mem_append.1 hb with hb | hb
  · exact hitems b hb
  · rw [List.mem_singleton.1 hb]
    exact h _ _ _ ha

/-- **The items of a list** were read with one bracket less to open. -/
theorem yields_list {item : Nat → Reader α} {P : α → Prop} {room : Nat}
    (h : ∀ n, room = n + 1 → Yields (item n) P) :
    Yields (list room item) fun items => ∀ a ∈ items, P a := by
  intro cs items rest hread
  rw [list] at hread
  split at hread
  · obtain ⟨n, hn, hread⟩ := yields_opening hread
    exact bracketed_kept (yields_nextItem (h n hn)) (by simp) hread
  · cases hread

/-! ## Structures -/

section Structures

variable {P : σ → Prop}

theorem yields_member {schema : Schema σ}
    (h : ∀ field ∈ schema.fields, ∀ s, P s → Yields (field.store s) P) (s : σ × List String)
    (hs : P s.1) : Yields (schema.member s) fun s => P s.1 := by
  intro cs s' rest hread
  rw [Schema.member] at hread
  obtain ⟨⟨name, rest'⟩, -, hread⟩ := bind_eq_ok.1 hread
  dsimp only at hread
  split at hread
  · next field hfield =>
    have hmem := List.mem_of_find?_eq_some hfield
    split at hread
    · cases hread
    · obtain ⟨rest'', -, hread⟩ := bind_eq_ok.1 hread
      obtain ⟨⟨value, rest''⟩, hvalue, hread⟩ := bind_eq_ok.1 hread
      cases hread
      exact h field hmem _ hs _ _ _ hvalue
  · obtain ⟨rest'', -, hread⟩ := bind_eq_ok.1 hread
    obtain ⟨rest'', -, hread⟩ := bind_eq_ok.1 hread
    cases hread
    exact hs

theorem yields_element {fields : List (SchemaField σ)}
    (h : ∀ field ∈ fields, ∀ s, P s → Yields (field.store s) P) (s : σ × List (SchemaField σ))
    (hs : P s.1 ∧ ∀ field ∈ s.2, field ∈ fields) :
    Yields (Schema.element s) fun s => P s.1 ∧ ∀ field ∈ s.2, field ∈ fields := by
  intro cs s' rest hread
  obtain ⟨s, left⟩ := s
  cases left with
  | nil => cases hread
  | cons field left =>
    obtain ⟨⟨value, rest'⟩, hvalue, heq⟩ := map_eq_ok.1 hread
    cases heq
    exact ⟨h field (hs.2 _ List.mem_cons_self) _ hs.1 _ _ _ hvalue,
      fun f hf => hs.2 f (List.mem_cons_of_mem _ hf)⟩

theorem yields_optional {Q : α → Prop} {read : Reader α} {set : σ → α → σ} (name : String)
    (h : Yields read Q) (hset : ∀ s a, P s → Q a → P (set s a)) (s : σ) (hs : P s) :
    Yields ((SchemaField.optional name read set).store s) P := by
  intro cs s' rest hread
  obtain ⟨⟨a, rest'⟩, ha, heq⟩ := map_eq_ok.1 hread
  cases heq
  exact hset s a hs (h _ _ _ ha)

theorem yields_needed {Q : α → Prop} {read : Reader α} {set : σ → α → σ} (name : String)
    (h : Yields read Q) (hset : ∀ s a, P s → Q a → P (set s a)) (s : σ) (hs : P s) :
    Yields ((SchemaField.needed name read set).store s) P :=
  yields_optional name h hset s hs

/-- **What the defaults have and every field keeps** is had by every structure that is read. -/
theorem yields_structure {schema : Nat → Schema σ} {room : Nat}
    (hdefaults : ∀ n, room = n + 1 → P (schema n).defaults)
    (h : ∀ n, room = n + 1 → ∀ field ∈ (schema n).fields, ∀ s, P s → Yields (field.store s) P) :
    Yields (Schema.read schema room) P := by
  intro cs s rest hread
  rw [Schema.read] at hread
  split at hread
  · obtain ⟨n, hn, hread⟩ := yields_opening hread
    rw [Schema.ofObject] at hread
    split at hread
    · cases hread
    · next hmembers =>
      split at hread
      · cases hread
      · cases hread
        exact bracketed_kept (yields_member (h n hn)) (hdefaults n hn) hmembers
  · obtain ⟨n, hn, hread⟩ := yields_opening hread
    rw [Schema.ofArray] at hread
    split at hread
    · cases hread
    · next helements =>
      dsimp only at hread
      split at hread
      · cases hread
      · cases hread
        exact (bracketed_kept (yields_element (h n hn)) ⟨hdefaults n hn, fun _ hf => hf⟩
          helements).1
  · cases hread

end Structures

end MathQuiz.Json
