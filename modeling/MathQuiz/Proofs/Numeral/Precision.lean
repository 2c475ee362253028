import MathQuiz.Proofs.Numeral.Values
import MathQuiz.Proofs.Numeral.Written
import Mathlib.Algebra.Order.Field.Basic

/-!
# Digits that do not fit

A decimal takes in the digits of its text from left to right, until one has no place. What is left
is rounded away, which changes the number by little, and not at all if a decimal holds it.

* `Close`: numbers that agree but for a rounding;
* `Decimal.Full`, `Decimal.exists_full`: where taking in digits ends, with what is left;
* `Decimal.Holds`, `Decimal.places_eq_zero_of_holds`: of a number that a decimal holds, only zeros
  are left;
* **`Decimal.close_of_read?`**, **`Decimal.value_of_holds`**: the decimal of a text is close to the
  number that is written, and is that number if a decimal holds it;
* `Decimal.value_eq_of_read?`: texts of one number are read as decimals of one value;
* `Decimal.Fits`, **`Decimal.isSome_read?_iff`**: which decimal texts are read at all.
-/

namespace MathQuiz

namespace Numeral

/-! ## Places behind the point -/

theorem places_bounds {ds : List ℕ} (h : ∀ n ∈ ds, n < 10) :
    (ds.headD 0 : ℚ) ≤ 10 * places ds ∧ 10 * places ds < ds.headD 0 + 1 := by
  induction ds with
  | nil => norm_num [places]
  | cons d ds ih =>
    obtain ⟨-, hds⟩ := List.forall_mem_cons.1 h
    obtain ⟨hlow, hhigh⟩ := ih hds
    have hfirst : (ds.headD 0 : ℚ) + 1 ≤ 10 := by
      cases ds with
      | nil => norm_num
      | cons e es => exact_mod_cast (List.forall_mem_cons.1 hds).1
    have hzero : (0 : ℚ) ≤ ds.headD 0 := Nat.cast_nonneg _
    rw [places, List.headD_cons]
    constructor <;> linarith

theorem places_nonneg {ds : List ℕ} (h : ∀ n ∈ ds, n < 10) : 0 ≤ places ds := by
  have hlow := (places_bounds h).1
  have hzero : (0 : ℚ) ≤ ds.headD 0 := Nat.cast_nonneg _
  linarith

theorem places_lt_one {ds : List ℕ} (h : ∀ n ∈ ds, n < 10) : places ds < 1 := by
  have hhigh := (places_bounds h).2
  have hfirst : (ds.headD 0 : ℚ) + 1 ≤ 10 := by
    cases ds with
    | nil => norm_num
    | cons e es => exact_mod_cast (List.forall_mem_cons.1 h).1
  linarith

theorem eq_of_add_places {m n : ℕ} {ds es : List ℕ} (hds : ∀ n ∈ ds, n < 10)
    (hes : ∀ n ∈ es, n < 10) (h : (m : ℚ) + places ds = n + places es) :
    m = n ∧ places ds = places es := by
  have hds0 := places_nonneg hds
  have hds1 := places_lt_one hds
  have hes0 := places_nonneg hes
  have hes1 := places_lt_one hes
  have hmn : m < n + 1 := by
    have : (m : ℚ) < n + 1 := by linarith
    exact_mod_cast this
  have hnm : n < m + 1 := by
    have : (n : ℚ) < m + 1 := by linarith
    exact_mod_cast this
  obtain rfl : m = n := by omega
  exact ⟨rfl, by linarith⟩

theorem shift_places (m s d : ℕ) (ds : List ℕ) :
    ((10 * m + d : ℕ) + places ds) / 10 ^ (s + 1) = (m + places (d :: ds)) / 10 ^ s := by
  rw [places, pow_succ]
  push_cast
  field_simp
  ring

end Numeral

open Numeral

/-- The numbers agree but for a rounding: by half a unit of the 28th place, or by `5 / 2 ^ 96` of
the second one. -/
def Close (x y : ℚ) : Prop := |x - y| * (2 * 10 ^ 28) ≤ 1 ∨ |x - y| * 2 ^ 96 ≤ 5 * |y|

theorem Close.neg {x y : ℚ} (h : Close x y) : Close (-x) (-y) := by
  have hdiff : -x - -y = -(x - y) := by ring
  rw [Close, hdiff, abs_neg, abs_neg]
  exact h

namespace Decimal

/-! ## Where taking in digits ends -/

/-- The first digit that is left has no place, if one is left. -/
def Full (m s : ℕ) (rest : List ℕ) : Prop :=
  ∀ d ∈ rest.head?, 28 ≤ s ∨ 2 ^ 96 ≤ 10 * m + d

/-- The mantissa that rounding leaves, by the first digit without a place. -/
def rounded (m : ℕ) (rest : List ℕ) : ℕ := if 5 ≤ rest.headD 0 then m + 1 else m

theorem absorb_cons (m s d : ℕ) (ds : List ℕ) : absorb m s (d :: ds) =
    if s < 28 ∧ 10 * m + d < 2 ^ 96 then absorb (10 * m + d) (s + 1) ds
    else (if 5 ≤ d then m + 1 else m, s) := rfl

theorem rounded_le (m : ℕ) (rest : List ℕ) : rounded m rest ≤ m + 1 := by
  rw [rounded]
  split <;> omega

/-- Only the largest mantissa is rounded to `2 ^ 96`. -/
theorem carry_of_le {m : ℕ} {rest : List ℕ} (hm : m < 2 ^ 96) (hlarge : 2 ^ 96 ≤ rounded m rest) :
    m + 1 = 2 ^ 96 ∧ rounded m rest = 2 ^ 96 ∧ 5 ≤ rest.headD 0 := by
  have hle := rounded_le m rest
  refine ⟨by omega, by omega, ?_⟩
  by_contra hdown
  rw [rounded, if_neg hdown] at hlarge
  omega

theorem absorb_of_full {m s : ℕ} {rest : List ℕ} (h : Full m s rest) :
    absorb m s rest = (rounded m rest, s) := by
  cases rest with
  | nil => rfl
  | cons d rest =>
    have hplace : ¬ (s < 28 ∧ 10 * m + d < 2 ^ 96) := by
      have := h d rfl
      omega
    rw [absorb_cons, if_neg hplace, rounded, List.headD_cons]

/-- **Taking in digits** leads to a mantissa and a scale that are full, and changes nothing up to
there. -/
theorem exists_full {m s : ℕ} {ds : List ℕ} (hm : m < 2 ^ 96) (hs : s ≤ 28)
    (hds : ∀ n ∈ ds, n < 10) : ∃ m' s' rest, Full m' s' rest ∧ absorb m s ds = absorb m' s' rest ∧
      ((m' : ℚ) + places rest) / 10 ^ s' = (m + places ds) / 10 ^ s ∧
      (m' < 2 ^ 96 ∧ s' ≤ 28 ∧ ∀ n ∈ rest, n < 10) ∧
      s ≤ s' ∧ (s' = s → m' = m ∧ rest = ds) := by
  induction ds generalizing m s with
  | nil =>
    exact ⟨m, s, [], by simp [Full], rfl, rfl, ⟨hm, hs, hds⟩, le_rfl, fun _ => ⟨rfl, rfl⟩⟩
  | cons d ds ih =>
    by_cases hplace : s < 28 ∧ 10 * m + d < 2 ^ 96
    · obtain ⟨m', s', rest, hfull, habsorb, hvalue, hbounds, hle, -⟩ :=
        ih hplace.2 hplace.1 (List.forall_mem_cons.1 hds).2
      refine ⟨m', s', rest, hfull, ?_, ?_, hbounds, by omega, by omega⟩
      · rw [absorb_cons, if_pos hplace, habsorb]
      · rw [hvalue, shift_places]
    · refine ⟨m, s, d :: ds, ?_, rfl, rfl, ⟨hm, hs, hds⟩, le_rfl, fun _ => ⟨rfl, rfl⟩⟩
      intro e he
      obtain rfl : d = e := Option.some.inj he
      omega

/-! ## Numbers that a decimal holds -/

/-- A decimal has this value. -/
def Holds (x : ℚ) : Prop := ∃ d : Decimal, d.value = x

theorem value_mk (m : ℤ) (s : ℕ) (hm : m.natAbs < 2 ^ 96) (hs : s ≤ 28) :
    value ⟨m, s, hm, hs⟩ = m / 10 ^ s := rfl

theorem holds_div {m s : ℕ} (hm : m < 2 ^ 96) (hs : s ≤ 28) : Holds (m / 10 ^ s) :=
  ⟨⟨m, s, hm, hs⟩, by rw [value_mk, Int.cast_natCast]⟩

theorem Holds.neg {x : ℚ} (h : Holds x) : Holds (-x) := by
  obtain ⟨d, rfl⟩ := h
  refine ⟨⟨-d.mantissa, d.scale, by rw [Int.natAbs_neg]; exact d.mantissa_lt, d.scale_le⟩, ?_⟩
  rw [value_mk, Int.cast_neg, neg_div, value]

theorem places_eq_zero_of_integer {m : ℕ} {k : ℤ} {rest : List ℕ} (hrest : ∀ n ∈ rest, n < 10)
    (h : (m : ℚ) + places rest = k) : places rest = 0 := by
  have hlow := places_nonneg hrest
  have hhigh := places_lt_one hrest
  have hleft : places rest = ((k - m : ℤ) : ℚ) := by
    rw [Int.cast_sub, Int.cast_natCast, ← h]
    ring
  rw [hleft] at hlow hhigh ⊢
  have h0 : 0 ≤ k - (m : ℤ) := by exact_mod_cast hlow
  have h1 : k - (m : ℤ) < 1 := by exact_mod_cast hhigh
  have hzero : k - (m : ℤ) = 0 := by omega
  rw [hzero, Int.cast_zero]

theorem digit_le_of_scaled {m d k : ℕ} {n : ℤ} {rest : List ℕ} (hrest : ∀ n ∈ d :: rest, n < 10)
    (h : ((m : ℚ) + places (d :: rest)) * 10 ^ (k + 1) = n) : (10 * m + d : ℕ) ≤ n := by
  have hone : (1 : ℚ) ≤ 10 ^ k := one_le_pow₀ (by norm_num)
  have hfirst := (places_bounds hrest).1
  rw [List.headD_cons] at hfirst
  have hshifted : ((10 * m + d : ℕ) : ℚ) ≤ ((m : ℚ) + places (d :: rest)) * 10 := by
    push_cast
    linarith
  have hle : ((10 * m + d : ℕ) : ℚ) ≤ n := by
    calc ((10 * m + d : ℕ) : ℚ) = (10 * m + d : ℕ) * 1 := (mul_one _).symm
      _ ≤ ((m : ℚ) + places (d :: rest)) * 10 * 10 ^ k :=
        mul_le_mul hshifted hone zero_le_one ((Nat.cast_nonneg _).trans hshifted)
      _ = n := by rw [← h, pow_succ']; ring
  exact_mod_cast hle

/-- **Only zeros are left** of a number that a decimal holds. -/
theorem places_eq_zero_of_holds {m s : ℕ} {rest : List ℕ} (hrest : ∀ n ∈ rest, n < 10)
    (hfull : Full m s rest) (h : Holds ((m + places rest) / 10 ^ s)) : places rest = 0 := by
  obtain ⟨e, he⟩ := h
  have hcross : ((m : ℚ) + places rest) * 10 ^ e.scale = e.mantissa * 10 ^ s := by
    rw [value, div_eq_div_iff (by positivity) (by positivity)] at he
    exact he.symm
  rcases le_or_gt e.scale s with hscale | hscale
  · -- at this scale the number is an integer
    obtain ⟨k, rfl⟩ := Nat.exists_eq_add_of_le hscale
    have hinteger : (m : ℚ) + places rest = (e.mantissa * 10 ^ k : ℤ) := by
      rw [pow_add, ← mul_assoc, mul_right_comm] at hcross
      push_cast
      exact mul_right_cancel₀ (by positivity) hcross
    exact places_eq_zero_of_integer hrest hinteger
  · cases rest with
    | nil => rfl
    | cons d rest =>
      -- a decimal with more places holds the number, so one more digit would have had its place
      obtain ⟨k, hk⟩ := Nat.exists_eq_add_of_lt hscale
      have hscaled : ((m : ℚ) + places (d :: rest)) * 10 ^ (k + 1) = e.mantissa := by
        rw [hk, add_assoc, pow_add, mul_comm ((10 : ℚ) ^ s), ← mul_assoc] at hcross
        exact mul_right_cancel₀ (by positivity) hcross
      have hle := digit_le_of_scaled hrest hscaled
      have hmantissa := e.natAbs_lt
      have hscale28 := e.scale_le
      rcases hfull d rfl with h28 | hlarge
      · omega
      · omega

/-! ## Reading digits -/

theorem ofDigits?_eq_some_iff {negative : Bool} {whole fraction : List ℕ} {d : Decimal} :
    ofDigits? negative whole fraction = some d ↔ ofDigits whole < 2 ^ 96 ∧
      ∃ m s, absorb (ofDigits whole) 0 fraction = (m, s) ∧ ofRounded? negative m s = some d := by
  rw [ofDigits?, Nat.pow_eq]
  split
  · next hwhole =>
    obtain ⟨m, s⟩ := absorb (ofDigits whole) 0 fraction
    simp [hwhole]
  · next hwhole => simp [hwhole]

theorem value_eq_of_signed {d : Decimal} {negative : Bool} {m s : ℕ}
    (hm : d.mantissa = signed negative m) (hs : d.scale = s) :
    d.value = if negative then -((m : ℚ) / 10 ^ s) else m / 10 ^ s := by
  rw [value, hm, hs]
  cases negative with
  | true => simp [signed, neg_div]
  | false => simp [signed]

/-! ## The error of rounding -/

theorem rounded_error {m : ℕ} {rest : List ℕ} (hrest : ∀ n ∈ rest, n < 10) :
    |(m : ℚ) + places rest - rounded m rest| ≤ 1 / 2 := by
  obtain ⟨hlow, hhigh⟩ := places_bounds hrest
  have hone := places_lt_one hrest
  rw [rounded, abs_le]
  split
  · next hup =>
    have hup' : (5 : ℚ) ≤ rest.headD 0 := by exact_mod_cast hup
    push_cast
    constructor <;> linarith
  · next hdown =>
    have hdown' : (rest.headD 0 : ℚ) + 1 ≤ 5 := by exact_mod_cast not_le.1 hdown
    have hzero := places_nonneg hrest
    constructor <;> linarith

theorem close_of_full {m s : ℕ} {rest : List ℕ} (hs : s ≤ 28) (hrest : ∀ n ∈ rest, n < 10)
    (hfull : Full m s rest) :
    Close (((m : ℚ) + places rest) / 10 ^ s) ((rounded m rest : ℚ) / 10 ^ s) := by
  have hscale : (0 : ℚ) < 10 ^ s := by positivity
  have herror := rounded_error (m := m) hrest
  have hdiff : |((m : ℚ) + places rest) / 10 ^ s - (rounded m rest : ℚ) / 10 ^ s| =
      |(m : ℚ) + places rest - rounded m rest| / 10 ^ s := by
    rw [← sub_div, abs_div, abs_of_pos hscale]
  rw [Close, hdiff]
  cases rest with
  | nil => left; simp [places, rounded]
  | cons d rest =>
    rcases hfull d rfl with h28 | hlarge
    · left
      obtain rfl : s = 28 := le_antisymm hs h28
      rw [div_mul_eq_mul_div, div_le_one hscale]
      linarith
    · right
      -- the last digit of `2 ^ 96` is 6, so a mantissa that is rounded down was large enough, too
      have hbits : 2 ^ 96 ≤ 10 * rounded m (d :: rest) := by
        have hdigit := (List.forall_mem_cons.1 hrest).1
        rw [rounded, List.headD_cons]
        split <;> omega
      have hbits' : (2 : ℚ) ^ 96 ≤ 10 * rounded m (d :: rest) := by exact_mod_cast hbits
      have hresult : (0 : ℚ) ≤ (rounded m (d :: rest) : ℚ) / 10 ^ s := by positivity
      rw [abs_of_nonneg hresult, div_mul_eq_mul_div, mul_div_assoc',
        div_le_div_iff_of_pos_right hscale]
      linarith

theorem close_of_carry {m s : ℕ} {rest : List ℕ} (hm : m < 2 ^ 96)
    (hrest : ∀ n ∈ rest, n < 10) (hlarge : 2 ^ 96 ≤ rounded m rest) (hs : s ≠ 0) :
    Close (((m : ℚ) + places rest) / 10 ^ s) (((rounded m rest + 4) / 10 : ℕ) / 10 ^ (s - 1)) := by
  obtain ⟨k, rfl⟩ : ∃ k, s = k + 1 := Nat.exists_eq_succ_of_ne_zero hs
  obtain ⟨hm96, hrounded96, hup⟩ := carry_of_le hm hlarge
  -- four units of the place given up are added, and half a unit at most was rounded
  have hcarried : (((rounded m rest + 4) / 10 : ℕ) : ℚ) / 10 ^ (k + 1 - 1) =
      (2 ^ 96 + 4) / 10 ^ (k + 1) := by
    rw [hrounded96, Nat.add_sub_cancel, pow_succ (10 : ℚ) k]
    norm_num
    field_simp
    norm_num
  have hm96' : (m : ℚ) = 2 ^ 96 - 1 := by
    have : ((m + 1 : ℕ) : ℚ) = 2 ^ 96 := by rw [hm96]; norm_num
    push_cast at this
    linarith
  have hhalf : (1 : ℚ) / 2 ≤ places rest := by
    have hlow := (places_bounds hrest).1
    have hup' : (5 : ℚ) ≤ rest.headD 0 := by exact_mod_cast hup
    linarith
  have hscale : (0 : ℚ) < 10 ^ (k + 1) := by positivity
  have hresult : (0 : ℚ) ≤ (2 ^ 96 + 4) / 10 ^ (k + 1) := by positivity
  have hbelow : (2 : ℚ) ^ 96 - 1 + places rest - (2 ^ 96 + 4) ≤ 0 := by
    linarith [places_lt_one hrest]
  right
  rw [hcarried, hm96', ← sub_div, abs_div, abs_of_pos hscale, abs_of_nonneg hresult,
    abs_of_nonpos hbelow, div_mul_eq_mul_div, mul_div_assoc', div_le_div_iff_of_pos_right hscale]
  linarith

/-! ## Decimal texts -/

section Reading

variable {negative : Bool} {whole fraction : List ℕ} {d : Decimal}

/-- **How digits become a decimal:** those that fit are kept, and the others rounded. -/
theorem exists_full_of_ofDigits? (hfraction : ∀ n ∈ fraction, n < 10)
    (h : ofDigits? negative whole fraction = some d) : ∃ m s rest,
      (Full m s rest ∧ m < 2 ^ 96 ∧ s ≤ 28 ∧ ∀ n ∈ rest, n < 10) ∧
      (ofDigits whole : ℚ) + places fraction = (m + places rest) / 10 ^ s ∧ ∃ y,
        d.value = (if negative then -y else y) ∧
        (rounded m rest < 2 ^ 96 ∧ y = rounded m rest / 10 ^ s ∨
          2 ^ 96 ≤ rounded m rest ∧ s ≠ 0 ∧
            y = ((rounded m rest + 4) / 10 : ℕ) / 10 ^ (s - 1)) := by
  obtain ⟨hwhole, m', s', habsorb, hd⟩ := ofDigits?_eq_some_iff.1 h
  obtain ⟨m, s, rest, hfull, heq, hvalue, ⟨hm, hs, hrest⟩, -⟩ :=
    exists_full hwhole (Nat.zero_le 28) hfraction
  rw [heq, absorb_of_full hfull] at habsorb
  obtain ⟨rfl, rfl⟩ := Prod.mk.inj habsorb
  rw [pow_zero, div_one] at hvalue
  refine ⟨m, s, rest, ⟨hfull, hm, hs, hrest⟩, hvalue.symm, ?_⟩
  rcases ofRounded?_eq_some_iff.1 hd with
    ⟨hfits, hmantissa, hscale⟩ | ⟨hlarge, hs0, hmantissa, hscale⟩
  · exact ⟨_, value_eq_of_signed hmantissa hscale, .inl ⟨hfits, rfl⟩⟩
  · exact ⟨_, value_eq_of_signed hmantissa hscale, .inr ⟨hlarge, hs0, rfl⟩⟩

theorem close_of_ofDigits? (hfraction : ∀ n ∈ fraction, n < 10)
    (h : ofDigits? negative whole fraction = some d) :
    Close (if negative then -((ofDigits whole : ℚ) + places fraction)
      else ofDigits whole + places fraction) d.value := by
  obtain ⟨m, s, rest, ⟨hfull, hm, hs, hrest⟩, hvalue, y, hd, hy⟩ :=
    exists_full_of_ofDigits? hfraction h
  have hclose : Close ((ofDigits whole : ℚ) + places fraction) y := by
    rw [hvalue]
    rcases hy with ⟨-, rfl⟩ | ⟨hlarge, hs0, rfl⟩
    · exact close_of_full hs hrest hfull
    · exact close_of_carry hm hrest hlarge hs0
  rw [hd]
  cases negative with
  | true => exact hclose.neg
  | false => exact hclose

theorem value_of_ofDigits? (hfraction : ∀ n ∈ fraction, n < 10)
    (h : ofDigits? negative whole fraction = some d)
    (hholds : Holds ((ofDigits whole : ℚ) + places fraction)) :
    d.value = if negative then -((ofDigits whole : ℚ) + places fraction)
      else ofDigits whole + places fraction := by
  obtain ⟨m, s, rest, ⟨hfull, hm, -, hrest⟩, hvalue, y, hd, hy⟩ :=
    exists_full_of_ofDigits? hfraction h
  rw [hvalue] at hholds ⊢
  have hzero : places rest = 0 := places_eq_zero_of_holds hrest hfull hholds
  have hrounded : rounded m rest = m := by
    have hfirst : (rest.headD 0 : ℚ) ≤ 0 := by
      have hlow := (places_bounds hrest).1
      rwa [hzero, mul_zero] at hlow
    have hfirst' : rest.headD 0 ≤ 0 := by exact_mod_cast hfirst
    rw [rounded, if_neg (by omega)]
  rw [hrounded] at hy
  obtain rfl : y = m / 10 ^ s := by
    rcases hy with ⟨-, hy⟩ | ⟨hlarge, -⟩
    · exact hy
    · omega
  rw [hd, hzero, add_zero]

end Reading

section Text

variable {w v : DecimalText} {d e : Decimal}

theorem size_eq (w : DecimalText) :
    w.size = (ofDigits w.whole.values : ℚ) + places w.fractionDigits := by
  rw [DecimalText.size, ofDigits_values]

/-- **The decimal of a text is close** to the number that is written. -/
theorem close_of_read? (h : read? w.chars = some d) : Close w.value d.value := by
  rw [read?_chars] at h
  rw [DecimalText.value, size_eq]
  exact close_of_ofDigits? w.fractionDigits_lt h

/-- **The decimal of a text is the number** that is written, if a decimal holds it. -/
theorem value_of_holds (h : read? w.chars = some d) (hholds : Holds w.value) :
    d.value = w.value := by
  have hsize : Holds w.size := by
    rw [DecimalText.value] at hholds
    split at hholds
    · rw [← neg_neg w.size]
      exact hholds.neg
    · exact hholds
  rw [read?_chars] at h
  rw [size_eq] at hsize
  rw [DecimalText.value, size_eq]
  exact value_of_ofDigits? w.fractionDigits_lt h hsize

theorem absorb_congr {m s : ℕ} {ds es : List ℕ} (hm : m < 2 ^ 96) (hs : s ≤ 28)
    (hds : ∀ n ∈ ds, n < 10) (hes : ∀ n ∈ es, n < 10) (h : places ds = places es) :
    absorb m s ds = absorb m s es ∨ Holds ((m + places ds) / 10 ^ s) := by
  induction ds generalizing m s es with
  | nil =>
    right
    rw [places, add_zero]
    exact holds_div hm hs
  | cons d ds ih =>
    cases es with
    | nil =>
      right
      rw [h, places, add_zero]
      exact holds_div hm hs
    | cons e es =>
      obtain ⟨-, hds'⟩ := List.forall_mem_cons.1 hds
      obtain ⟨-, hes'⟩ := List.forall_mem_cons.1 hes
      have hsum : (d : ℚ) + places ds = e + places es := by
        rw [places, places] at h
        linarith
      obtain ⟨rfl, hplaces⟩ := eq_of_add_places hds' hes' hsum
      by_cases hplace : s < 28 ∧ 10 * m + d < 2 ^ 96
      · rw [absorb_cons, absorb_cons, if_pos hplace, if_pos hplace, ← shift_places]
        exact ih hplace.2 hplace.1 hds' hes' hplaces
      · left
        rw [absorb_cons, absorb_cons, if_neg hplace, if_neg hplace]

theorem size_nonneg (w : DecimalText) : 0 ≤ w.size :=
  add_nonneg (Nat.cast_nonneg _) (places_nonneg w.fractionDigits_lt)

theorem eq_of_value_eq (h : w.value = v.value) (h0 : w.value ≠ 0) :
    w.negative = v.negative ∧ w.size = v.size := by
  have hw := size_nonneg w
  have hv := size_nonneg v
  rw [DecimalText.value, DecimalText.value] at h
  by_cases hnegative : w.negative = v.negative
  · refine ⟨hnegative, ?_⟩
    rw [hnegative] at h
    split at h
    · exact neg_injective h
    · exact h
  · exfalso
    have hsum : w.size + v.size = 0 := by
      cases hnw : w.negative <;> cases hnv : v.negative <;> simp [hnw, hnv] at h hnegative <;>
        linarith
    have hzero : w.size = 0 := by linarith
    rw [DecimalText.value, hzero, neg_zero, ite_self] at h0
    exact h0 rfl

/-- **Texts of one number** are read as decimals of one value. -/
theorem value_eq_of_read? (hw : read? w.chars = some d) (hv : read? v.chars = some e)
    (h : w.value = v.value) : d.value = e.value := by
  by_cases hholds : Holds w.value
  · rw [value_of_holds hw hholds, value_of_holds hv (h ▸ hholds), h]
  · have h0 : w.value ≠ 0 := by
      intro h0
      refine hholds ⟨⟨0, 0, by decide, Nat.zero_le 28⟩, ?_⟩
      rw [h0, value_mk, Int.cast_zero, zero_div]
    obtain ⟨hnegative, hsize⟩ := eq_of_value_eq h h0
    rw [size_eq, size_eq] at hsize
    obtain ⟨hwhole, hplaces⟩ :=
      eq_of_add_places w.fractionDigits_lt v.fractionDigits_lt hsize
    rw [read?_chars] at hw hv
    have hlt := (ofDigits?_eq_some_iff.1 hw).1
    rcases absorb_congr hlt (Nat.zero_le 28) w.fractionDigits_lt v.fractionDigits_lt hplaces with
      habsorb | hzero
    · rw [hnegative, ofDigits?, hwhole, ← hwhole, habsorb, hwhole, ← ofDigits?] at hw
      rw [Option.some.inj (hw.symm.trans hv)]
    · refine absurd ?_ hholds
      rw [pow_zero, div_one, ← size_eq] at hzero
      rw [DecimalText.value]
      split
      · exact hzero.neg
      · exact hzero

/-- The whole part fits, and rounding the first digit behind the point does not bring it to
`2 ^ 96`. -/
def Fits (w : DecimalText) : Prop :=
  w.whole.number < 2 ^ 96 ∧ ¬ (w.whole.number + 1 = 2 ^ 96 ∧ 5 ≤ w.fractionDigits.headD 0)

/-- **The decimal texts that are read** are those that fit. -/
theorem isSome_read?_iff : (read? w.chars).isSome ↔ Fits w := by
  rw [read?_chars, Fits, ← ofDigits_values, Option.isSome_iff_exists]
  constructor
  · rintro ⟨d, h⟩
    obtain ⟨hwhole, m, s, habsorb, hd⟩ := ofDigits?_eq_some_iff.1 h
    refine ⟨hwhole, fun ⟨hlast, hup⟩ => ?_⟩
    have hfull : Full (ofDigits w.whole.values) 0 w.fractionDigits := by
      intro n hn
      have hn5 : 5 ≤ n := by rwa [List.headD_eq_head?_getD, Option.mem_def.1 hn] at hup
      omega
    rw [absorb_of_full hfull, rounded, if_pos hup] at habsorb
    obtain ⟨rfl, rfl⟩ := Prod.mk.inj habsorb
    rcases ofRounded?_eq_some_iff.1 hd with ⟨hfits, -⟩ | ⟨-, hs0, -⟩
    · omega
    · exact hs0 rfl
  · rintro ⟨hwhole, hlast⟩
    obtain ⟨m, s, rest, hfull, habsorb, -, ⟨hm, hs, -⟩, -, hnone⟩ :=
      exists_full hwhole (Nat.zero_le 28) w.fractionDigits_lt
    rw [absorb_of_full hfull] at habsorb
    have hkept : rounded m rest < 2 ^ 96 ∨ s ≠ 0 := by
      rcases Nat.lt_or_ge (rounded m rest) (2 ^ 96) with hfits | hlarge
      · exact .inl hfits
      · -- with no place used, the digit that rounds is the first one behind the point
        right
        rintro rfl
        obtain ⟨rfl, rfl⟩ := hnone rfl
        obtain ⟨hm96, -, hup⟩ := carry_of_le hm hlarge
        exact hlast ⟨hm96, hup⟩
    obtain ⟨d, hd⟩ := exists_ofRounded? ((rounded_le m rest).trans hm) hs hkept
    exact ⟨d, ofDigits?_eq_some_iff.2 ⟨hwhole, _, s, habsorb, hd⟩⟩

end Text

end Decimal

end MathQuiz
