import Mathlib

/-!
# Bounded machine words

Rust's fixed-width unsigned arithmetic on natural numbers.  A word of width `w`
is a natural number below `2 ^ w`; the operations are the three families the
standard library offers: *saturating* ones clamp to the range, *checked* ones
answer `none` outside it, and a cast to a narrower type truncates.

Subtraction needs no saturating counterpart: `ℕ`'s own subtraction already stops
at zero.

The width is a parameter throughout.  `u32` and `u64` are the two instances the
rest of the development uses.
-/

namespace Word

/-- The largest value of a width. -/
def maxValue (w : ℕ) : ℕ := 2 ^ w - 1

/-- `saturating_add`: the sum, clamped to the largest value. -/
def saturatingAdd (w a b : ℕ) : ℕ := min (a + b) (maxValue w)

/-- `saturating_mul`: the product, clamped to the largest value. -/
def saturatingMul (w a b : ℕ) : ℕ := min (a * b) (maxValue w)

/-- `checked_add`: the sum, unless it leaves the range. -/
def checkedAdd (w a b : ℕ) : Option ℕ := if a + b < 2 ^ w then some (a + b) else none

/-- `checked_mul`: the product, unless it leaves the range. -/
def checkedMul (w a b : ℕ) : Option ℕ := if a * b < 2 ^ w then some (a * b) else none

/-- `checked_sub`: the difference, unless it would be negative. -/
def checkedSub (a b : ℕ) : Option ℕ := if b ≤ a then some (a - b) else none

/-- An `as` cast: the low `w` bits. -/
def truncate (w a : ℕ) : ℕ := a % 2 ^ w

/-- A sum that fits its width is not clamped. -/
theorem saturatingAdd_eq_add {w a b : ℕ} (h : a + b < 2 ^ w) :
    saturatingAdd w a b = a + b := by
  unfold saturatingAdd maxValue
  omega

theorem saturatingAdd_le_maxValue (w a b : ℕ) : saturatingAdd w a b ≤ maxValue w :=
  min_le_right _ _

theorem checkedAdd_eq_some_iff {w a b c : ℕ} :
    checkedAdd w a b = some c ↔ a + b < 2 ^ w ∧ c = a + b := by
  unfold checkedAdd
  split <;> simp_all [eq_comm]

theorem checkedSub_eq_some_iff {a b c : ℕ} :
    checkedSub a b = some c ↔ b ≤ a ∧ c = a - b := by
  unfold checkedSub
  split <;> simp_all [eq_comm]

/-- A value already in range survives a cast. -/
theorem truncate_eq_self {w a : ℕ} (h : a < 2 ^ w) : truncate w a = a :=
  Nat.mod_eq_of_lt h

/-! ## Saturating sums

A `fold` with `saturating_add` clamps at every step.  Since the clamp is
monotone, clamping the plain sum once gives the same number. -/

/-- `fold(0, saturating_add)` over a list of words. -/
def saturatingSum (w : ℕ) (xs : List ℕ) : ℕ := xs.foldl (saturatingAdd w) 0

theorem foldl_saturatingAdd (w : ℕ) :
    ∀ (xs : List ℕ) (acc : ℕ), acc ≤ maxValue w →
      xs.foldl (saturatingAdd w) acc = min (acc + xs.sum) (maxValue w) := by
  intro xs
  induction xs with
  | nil =>
      intro acc hacc
      simp [hacc]
  | cons x xs ih =>
      intro acc hacc
      rw [List.foldl_cons, ih _ (saturatingAdd_le_maxValue w acc x), List.sum_cons]
      unfold saturatingAdd
      omega

theorem saturatingSum_eq (w : ℕ) (xs : List ℕ) :
    saturatingSum w xs = min xs.sum (maxValue w) := by
  rw [saturatingSum, foldl_saturatingAdd w xs 0 (Nat.zero_le _), Nat.zero_add]

end Word
