import MathQuiz.Workspace
import MathQuiz.Proofs.Grading.Attempts
import Mathlib.Data.List.Basic
import Mathlib.Data.List.Induction

/-!
# Snapshots in a workspace, and the cache

Every snapshot that a workspace can reach was stamped when it was made, and no stamp is given twice.
A stamp therefore stands for one question for good, and the cache can tell snapshots apart without a
look at their nodes.

* `Workspace.snapshots`: the snapshots that questions, attempts and the cache refer to;
* `Grown`, `grown_run`: what a command does to them: it makes none or one, with the next stamp;
* `Stamped`, `stamped_runAll`, **`eq_of_stamp_eq`**: no two of them have one stamp, nor do two of
  different times;
* `RenderCache.Request`, `RenderCache.after`: what can be asked of a cache, and the cache after some
  requests;
* `latest?`, `misses`: what a history says without a look at the cache: the last request that was
  not just a question, and how many renderings could not be had from the one before;
* **`RenderCache.coherent`**: no request shows whether a rendering was held or made anew, save by
  the count and the notices.
-/

namespace MathQuiz.Workspace

/-- The snapshots that questions, attempts and the cache refer to. -/
def snapshots (w : Workspace) : List Snapshot :=
  w.questions.map Prod.snd ++ w.attempts.map (·.2.snapshot) ++ (w.cache.entry.map Prod.fst).toList

/-! ## One command -/

/-- **What a command does to the snapshots of a workspace:** it adds none, or it adds one with the
next stamp. -/
inductive Grown (w w' : Workspace) : Prop
  | kept : w'.nextStamp = w.nextStamp → w'.snapshots ⊆ w.snapshots → Grown w w'
  | made (q : Question) : w'.nextStamp = w.nextStamp + 1 →
    w'.snapshots ⊆ ⟨w.nextStamp, q⟩ :: w.snapshots → Grown w w'

section Grown

variable {w : Workspace} {s : Snapshot} {t : Attempt}

theorem mem_snapshots_of_lookup {name : String} (h : w.questions.lookup name = some s) :
    s ∈ w.snapshots := by
  obtain ⟨_, _, heq, -⟩ := List.lookup_eq_some_iff.1 h
  simp [snapshots, heq]

theorem mem_snapshots_of_attempt {name : String} (h : w.attempts.lookup name = some t) :
    t.snapshot ∈ w.snapshots := by
  obtain ⟨_, _, heq, -⟩ := List.lookup_eq_some_iff.1 h
  simp [snapshots, heq]

theorem grown_refl (w : Workspace) : Grown w w := .kept rfl fun _ h => h

theorem grown_name (target : String) (h : s ∈ w.snapshots) : Grown w (w.name target s) := by
  refine .kept rfl fun s' hs' => ?_
  have hcases : s' = s ∨ s' ∈ w.snapshots := by simpa [snapshots, name, or_assoc] using hs'
  rcases hcases with rfl | hs'
  · exact h
  · exact hs'

theorem grown_save (w : Workspace) (target : String) (q : Question) :
    Grown w (w.save target q) := by
  refine .made q rfl fun s' hs' => ?_
  simpa [snapshots, save, name, or_assoc] using hs'

theorem grown_keep (attempt : String) (h : t.snapshot ∈ w.snapshots) :
    Grown w (w.keep attempt t) := by
  refine .kept rfl fun s' hs' => ?_
  have hcases : s' = t.snapshot ∨ s' ∈ w.snapshots := by
    simp only [snapshots, keep, List.map_cons, List.mem_append, List.mem_cons] at hs' ⊢
    tauto
  rcases hcases with rfl | hs'
  · exact h
  · exact hs'

theorem grown_cache {c : RenderCache}
    (h : ∀ s ∈ c.entry.map Prod.fst, s ∈ w.snapshots) : Grown w { w with cache := c } := by
  refine .kept rfl fun s' hs' => ?_
  rcases List.mem_append.1 hs' with hs' | hs'
  · exact List.mem_append_left _ hs'
  · exact h s' (by simpa using hs')

theorem grown_withQuestion (source : String) {go : Snapshot → Logged (Reply × Workspace)}
    (h : ∀ s ∈ w.snapshots, Grown w (go s).value.2) :
    Grown w (w.withQuestion source go).value.2 := by
  unfold withQuestion
  split
  · next s hs => exact h s (mem_snapshots_of_lookup hs)
  · exact grown_refl w

theorem grown_withAttempt (attempt : String) {go : Attempt → Logged (Reply × Workspace)}
    (h : ∀ t, t.snapshot ∈ w.snapshots → Grown w (go t).value.2) :
    Grown w (w.withAttempt attempt go).value.2 := by
  unfold withAttempt
  split
  · next t ht => exact h t (mem_snapshots_of_attempt ht)
  · exact grown_refl w

theorem grown_act (attempt : String) {a : Attempt.Action} (ha : ∀ other, a ≠ .replace other) :
    Grown w (w.act attempt a).value.2 := by
  refine grown_withAttempt attempt fun t ht => grown_keep attempt ?_
  rw [(Attempt.performed t a).snapshot_eq fun other h => absurd h (ha other)]
  exact ht

theorem snapshot_replace (t : Attempt) (s : Snapshot) : (t.replace s).value.snapshot = s := by
  unfold Attempt.replace
  split
  · next h => exact h
  · rfl

theorem grown_get (h : s ∈ w.snapshots) :
    Grown w { w with cache := (w.cache.get s).value.2 } := by
  unfold RenderCache.get
  split
  · exact grown_refl w
  · refine grown_cache fun s' hs' => ?_
    cases hs'
    exact h

end Grown

/-- **A command makes at most one snapshot,** which gets the next stamp. -/
theorem grown_run (w : Workspace) (c : Command) : Grown w (w.run c).value.2 := by
  cases c with
  | load text target =>
    rw [run, Logged.value_bind]
    split
    · exact grown_save w target _
    · exact grown_refl w
  | clone source target => exact grown_withQuestion source fun s hs => grown_name target hs
  | rebuild source target => exact grown_withQuestion source fun s _ => grown_save w target _
  | append source target draft =>
    refine grown_withQuestion source fun s _ => ?_
    rw [Logged.value_bind]
    split
    · exact grown_save w target _
    · exact grown_refl w
  | json source | input source id | holds source =>
    exact grown_withQuestion source fun _ _ => grown_refl w
  | compare a b =>
    exact grown_withQuestion a fun _ _ => grown_withQuestion b fun _ _ => grown_refl w
  | render source => exact grown_withQuestion source fun s hs => grown_get hs
  | invalidate => exact grown_cache fun s hs => nomatch hs
  | begin attempt source scoring =>
    exact grown_withQuestion source fun s hs => grown_keep attempt hs
  | copy source attempt => exact grown_withAttempt source fun t ht => grown_keep attempt ht
  | answer attempt id value | clear attempt id | submit attempt =>
    exact grown_act attempt fun _ h => nomatch h
  | replace attempt source =>
    refine grown_withQuestion source fun s hs => grown_withAttempt attempt fun t _ => ?_
    refine grown_keep attempt ?_
    rw [snapshot_replace]
    exact hs
  | verdicts attempt | focus attempt current =>
    exact grown_withAttempt attempt fun _ _ => grown_refl w

/-! ## Runs -/

/-- The stamps of a workspace were given before the next one, each to one snapshot. -/
structure Stamped (w : Workspace) : Prop where
  stamp_lt : ∀ s ∈ w.snapshots, s.stamp < w.nextStamp
  eq_of_stamp : ∀ s ∈ w.snapshots, ∀ s' ∈ w.snapshots, s'.stamp = s.stamp → s' = s

theorem stamped_new (settings : Settings) : (new settings).Stamped where
  stamp_lt := by simp [snapshots, new, RenderCache.new]
  eq_of_stamp := by simp [snapshots, new, RenderCache.new]

theorem Stamped.grown {w w' : Workspace} (h : w.Stamped) (hgrown : Grown w w') : w'.Stamped := by
  cases hgrown with
  | kept hnext hsub =>
    refine ⟨fun s hs => ?_, fun s hs s' hs' => h.eq_of_stamp s (hsub hs) s' (hsub hs')⟩
    rw [hnext]
    exact h.stamp_lt s (hsub hs)
  | made q hnext hsub =>
    have hlt : ∀ s ∈ w.snapshots, s.stamp ≠ w.nextStamp := fun s hs => (h.stamp_lt s hs).ne
    refine ⟨fun s hs => ?_, fun s hs s' hs' heq => ?_⟩
    · rw [hnext]
      rcases List.mem_cons.1 (hsub hs) with rfl | hs
      · exact Nat.lt_succ_self _
      · exact Nat.lt_succ_of_lt (h.stamp_lt s hs)
    · rcases List.mem_cons.1 (hsub hs) with rfl | hs <;>
        rcases List.mem_cons.1 (hsub hs') with rfl | hs'
      · rfl
      · exact absurd heq (hlt s' hs')
      · exact absurd heq.symm (hlt s hs)
      · exact h.eq_of_stamp s hs s' hs' heq

theorem runAll_cons (w : Workspace) (c : Command) (commands : List Command) :
    (w.runAll (c :: commands)).value.2 = ((w.run c).value.2.runAll commands).value.2 := rfl

/-- **No two snapshots of a workspace have one stamp.** -/
theorem stamped_runAll {w : Workspace} (h : w.Stamped) (commands : List Command) :
    (w.runAll commands).value.2.Stamped := by
  induction commands generalizing w with
  | nil => exact h
  | cons c commands ih => exact ih (h.grown (grown_run w c))

theorem old_or_new (w : Workspace) (commands : List Command) :
    w.nextStamp ≤ (w.runAll commands).value.2.nextStamp ∧
      ∀ s ∈ (w.runAll commands).value.2.snapshots, s ∈ w.snapshots ∨ w.nextStamp ≤ s.stamp := by
  induction commands generalizing w with
  | nil => exact ⟨Nat.le_refl _, fun s hs => .inl hs⟩
  | cons c commands ih =>
    obtain ⟨hle, hmem⟩ := ih (w.run c).value.2
    rw [runAll_cons]
    cases grown_run w c with
    | kept hnext hsub =>
      rw [hnext] at hle hmem
      exact ⟨hle, fun s hs => (hmem s hs).imp_left fun hs => hsub hs⟩
    | made q hnext hsub =>
      rw [hnext] at hle hmem
      refine ⟨Nat.le_of_succ_le hle, fun s hs => ?_⟩
      rcases hmem s hs with hs | hs
      · rcases List.mem_cons.1 (hsub hs) with rfl | hs
        · exact .inr (Nat.le_refl _)
        · exact .inl hs
      · exact .inr (Nat.le_of_succ_le hs)

/-- **A stamp stands for one snapshot for good,** whatever commands come between. -/
theorem eq_of_stamp_eq {w : Workspace} (h : w.Stamped) (commands : List Command) {s s' : Snapshot}
    (hs : s ∈ w.snapshots) (hs' : s' ∈ (w.runAll commands).value.2.snapshots)
    (heq : s'.stamp = s.stamp) : s' = s := by
  rcases (old_or_new w commands).2 s' hs' with hold | hnew
  · exact h.eq_of_stamp s hs s' hold heq
  · have := h.stamp_lt s hs
    omega

theorem holds_iff_stamp {w : Workspace} (h : w.Stamped) {s : Snapshot} (hs : s ∈ w.snapshots) :
    w.cache.holds s = true ↔ ∃ held ∈ w.cache.entry, held.1.stamp = s.stamp := by
  rw [RenderCache.holds, RenderCache.lookup?]
  cases hentry : w.cache.entry with
  | none => simp
  | some held =>
    have hheld : held.1 ∈ w.snapshots := by simp [snapshots, hentry]
    have hsame : held.1 = s ↔ held.1.stamp = s.stamp :=
      ⟨congrArg _, h.eq_of_stamp s hs held.1 hheld⟩
    by_cases heq : held.1 = s
    · simp [heq]
    · simp [heq, mt hsame.2 heq]

end MathQuiz.Workspace

/-! ## Requests to the cache -/

namespace MathQuiz.RenderCache

/-- What can be asked of a cache. -/
inductive Request
  | get (s : Snapshot)
  | holds (s : Snapshot)
  | invalidate
  deriving DecidableEq

def perform (c : RenderCache) : Request → RenderCache
  | .get s => (c.get s).value.2
  | .holds _ => c
  | .invalidate => c.invalidate

def after (c : RenderCache) (requests : List Request) : RenderCache := requests.foldl perform c

theorem after_concat (c : RenderCache) (requests : List Request) (r : Request) :
    c.after (requests ++ [r]) = (c.after requests).perform r := List.foldl_append

theorem get_of_lookup?_eq_some {c : RenderCache} {s : Snapshot} {r : Rendering}
    (h : c.lookup? s = some r) : c.get s = pure (r, c) := by
  rw [get, h]

theorem get_of_lookup?_eq_none {c : RenderCache} {s : Snapshot} (h : c.lookup? s = none) :
    c.get s = Rendering.compute c.latex c.speech s.question >>= fun r =>
      pure (r, { c with entry := some (s, r), computed := c.computed + 1 }) := by
  rw [get, h]

/-! ### Histories -/

/-- The request can change what a cache holds. -/
def Request.changes : Request → Bool
  | get _ | invalidate => true
  | holds _ => false

/-- The last request for a rendering or invalidation. -/
def latest? (requests : List Request) : Option Request :=
  (requests.filter Request.changes).getLast?

/-- A rendering is asked for, and the last request that changed anything was not for the same
snapshot. -/
def Request.missed (before : List Request) : Request → Bool
  | get s => latest? before ≠ some (.get s)
  | holds _ | invalidate => false

/-- How many requests for a rendering missed, each after those before it. -/
def misses (requests : List Request) : Nat :=
  (List.range requests.length).countP fun i => requests[i]?.any (Request.missed (requests.take i))

theorem latest?_concat (requests : List Request) (r : Request) :
    latest? (requests ++ [r]) = if r.changes then some r else latest? requests := by
  unfold latest?
  cases h : r.changes <;> simp [List.filter_append, h]

theorem misses_concat (requests : List Request) (r : Request) :
    misses (requests ++ [r]) = misses requests + if r.missed requests then 1 else 0 := by
  have hbefore : (List.range requests.length).countP (fun i =>
      (requests ++ [r])[i]?.any (Request.missed ((requests ++ [r]).take i))) = misses requests := by
    refine List.countP_congr fun i hi => ?_
    have hlt := List.mem_range.1 hi
    rw [List.getElem?_append_left hlt, List.take_append_of_le_length (Nat.le_of_lt hlt)]
  rw [misses, List.length_append, List.length_singleton, List.range_succ, List.countP_append,
    hbefore, List.countP_singleton]
  simp

/-! ### The cache of a history -/

section History

variable (l : LatexSettings) (w : SpeechSettings) (requests : List Request)

/-- What a history leaves in a cache. -/
def heldBy : Option (Snapshot × Rendering) :=
  match latest? requests with
  | some (.get s) => some (s, (Rendering.compute l w s.question).value)
  | _ => none

theorem heldBy_concat (r : Request) : heldBy l w (requests ++ [r]) =
    match r with
    | .get s => some (s, (Rendering.compute l w s.question).value)
    | .holds _ => heldBy l w requests
    | .invalidate => none := by
  rw [heldBy, latest?_concat]
  cases r <;> rfl

theorem lookup?_heldBy (n : Nat) (s : Snapshot) : lookup? ⟨l, w, heldBy l w requests, n⟩ s =
    if latest? requests = some (.get s) then some (Rendering.compute l w s.question).value
    else none := by
  rw [lookup?, heldBy]
  cases latest? requests with
  | none => rfl
  | some r =>
    cases r with
    | get held => by_cases heq : held = s <;> simp [heq]
    | holds _ | invalidate => rfl

/-- **The cache of a history** holds what was asked for last, and has counted the misses. -/
theorem after_new : (new l w).after requests = ⟨l, w, heldBy l w requests, misses requests⟩ := by
  induction requests using List.reverseRecOn with
  | nil => rfl
  | append_singleton requests r ih =>
    rw [after_concat, ih, misses_concat, heldBy_concat]
    cases r with
    | get s =>
      have hlookup := lookup?_heldBy l w requests (misses requests) s
      by_cases hit : latest? requests = some (.get s)
      · rw [if_pos hit] at hlookup
        have hheld : heldBy l w requests = some (s, (Rendering.compute l w s.question).value) := by
          rw [heldBy, hit]
        have hmiss : Request.missed requests (.get s) = false := by simp [Request.missed, hit]
        rw [perform, get_of_lookup?_eq_some hlookup, hmiss]
        simp only [Logged.value_pure, hheld, Bool.false_eq_true, if_false, Nat.add_zero]
      · rw [if_neg hit] at hlookup
        have hmiss : Request.missed requests (.get s) = true := by simp [Request.missed, hit]
        rw [perform, get_of_lookup?_eq_none hlookup, hmiss]
        rfl
    | holds s | invalidate => rfl

theorem lookup?_after (s : Snapshot) : ((new l w).after requests).lookup? s =
    if latest? requests = some (.get s) then some (Rendering.compute l w s.question).value
    else none := by
  rw [after_new]
  exact lookup?_heldBy l w requests _ s

/-- A rendering is always the computed one; only if it was not held are there notices. -/
theorem get_after (s : Snapshot) :
    (((new l w).after requests).get s).value.1 = (Rendering.compute l w s.question).value ∧
      (((new l w).after requests).get s).notices =
        if latest? requests = some (.get s) then []
        else (Rendering.compute l w s.question).notices := by
  have hlookup := lookup?_after l w requests s
  by_cases hit : latest? requests = some (.get s)
  · rw [if_pos hit] at hlookup
    rw [get_of_lookup?_eq_some hlookup, if_pos hit]
    exact ⟨rfl, rfl⟩
  · rw [if_neg hit] at hlookup
    rw [get_of_lookup?_eq_none hlookup, if_neg hit, after_new]
    exact ⟨rfl, List.append_nil _⟩

theorem holds_after_iff (s : Snapshot) :
    ((new l w).after requests).holds s = true ↔ latest? requests = some (.get s) := by
  rw [holds, lookup?_after]
  split <;> simp [*]

end History

/-- **The cache is coherent.** It gives what would be computed, and holds exactly the last rendering
asked for; and a stamp stands for one snapshot for good. -/
theorem coherent (settings : Settings) :
    (∀ requests : List Request,
      let c := (new settings.latex settings.speech).after requests
      let rendering (s : Snapshot) :=
        Rendering.compute settings.latex settings.speech s.question
      (∀ s, (c.get s).value.1 = (rendering s).value) ∧
      (∀ s, (c.get s).notices =
        if latest? requests = some (.get s) then [] else (rendering s).notices) ∧
      (∀ s, c.holds s = true ↔ latest? requests = some (.get s)) ∧
      c.computed = misses requests) ∧
    (∀ earlier later : List Command,
      let before := ((Workspace.new settings).runAll earlier).value.2
      let after := (before.runAll later).value.2
      (∀ s ∈ before.snapshots, ∀ s' ∈ after.snapshots, s'.stamp = s.stamp → s' = s) ∧
      (∀ s ∈ before.snapshots, before.cache.holds s = true ↔
        ∃ held ∈ before.cache.entry, held.1.stamp = s.stamp)) := by
  constructor
  · intro requests c rendering
    have hget := get_after settings.latex settings.speech requests
    refine ⟨fun s => (hget s).1, fun s => (hget s).2, holds_after_iff _ _ requests, ?_⟩
    rw [show c = _ from after_new _ _ requests]
  · intro earlier later before after
    have hstamped := Workspace.stamped_runAll (Workspace.stamped_new settings) earlier
    exact ⟨fun s hs s' hs' => Workspace.eq_of_stamp_eq hstamped later hs hs',
      fun s hs => Workspace.holds_iff_stamp hstamped hs⟩

/-- A question of one node of an unknown kind, which both renderings leave out with a notice. -/
def chart (stamp : Nat) : Snapshot := ⟨stamp, ⟨[.leaf (.unrecognized "chart") .default]⟩⟩

theorem coherent_equal_copy :
    let c := (new .default .default).after
      [.get (chart 0), .holds (chart 1), .get (chart 0), .get (chart 1)]
    c.computed = 2 ∧ c.holds (chart 0) = false ∧ (c.get (chart 1)).notices = [] ∧
      (c.get (chart 0)).notices =
        [.renderedAsNothing .latex "chart", .renderedAsNothing .speech "chart"] := by
  intro c
  obtain ⟨-, hnotices, hholds, hcomputed⟩ := (coherent .default).1
    [.get (chart 0), .holds (chart 1), .get (chart 0), .get (chart 1)]
  refine ⟨?_, ?_, ?_, ?_⟩
  · exact hcomputed.trans (by decide)
  · rw [Bool.eq_false_iff]
    exact fun h => absurd ((hholds (chart 0)).1 h) (by decide)
  · exact (hnotices (chart 1)).trans (by decide)
  · exact (hnotices (chart 0)).trans (by decide)

end MathQuiz.RenderCache
