import Mathlib.Data.Nat.Bitwise
import Mathlib.Tactic.Ring

/-!
# The highest set bit

Two ways to find the position of the highest set bit of a number: shifting it out bit by
bit, and a binary search that looks whether the upper half of the bits that remain is zero,
with one mask for every width.

## Main definitions

* `upperHalf w` — the mask of the bits from `w` up to `2 * w`
* `shiftOut` — the position, counting shifts
* `halve` — the position, halving the width in every round

## Main results

* `shiftOut_eq_log2`, `halve_eq_log2` — both find `Nat.log2`
-/

namespace Gravel.Library

variable {i w v r : ℕ}

/-- The mask of the upper half of `2 * w` bits. -/
def upperHalf (w : ℕ) : ℕ := 2 ^ (2 * w) - 2 ^ w

/-- Count the shifts by one bit until nothing is left. -/
def shiftOut (v r : ℕ) : ℕ :=
  if v / 2 = 0 then r else shiftOut (v / 2) (r + 1)
termination_by v
decreasing_by omega

/-- Of the `2 ^ i` bits that remain keep the upper half, unless it is zero. -/
def halve : ℕ → ℕ → ℕ → ℕ
  | 0, _, r => r
  | i + 1, v, r =>
    if v &&& upperHalf (2 ^ i) ≠ 0 then halve i (v >>> 2 ^ i) (r ||| 2 ^ i) else halve i v r

/-! ### Logarithms of shifted numbers -/

theorem log2_div_two (half : v / 2 ≠ 0) : Nat.log2 v = Nat.log2 (v / 2) + 1 := by
  rw [Nat.log2_def, if_pos (by omega)]

theorem log2_of_div_two (small : v / 2 = 0) : Nat.log2 v = 0 := by
  rw [Nat.log2_def, if_neg (by omega)]

/-- Shifting `w` bits out lowers the logarithm by `w`. -/
theorem log2_shiftRight (large : 2 ^ w ≤ v) : Nat.log2 v = w + Nat.log2 (v >>> w) := by
  have nonzero : v ≠ 0 := by
    have := Nat.two_pow_pos w
    omega
  have quotient : v >>> w ≠ 0 := by
    rw [Nat.shiftRight_eq_div_pow]
    exact (Nat.div_pos large (Nat.two_pow_pos w)).ne'
  obtain ⟨low, high⟩ := (Nat.log2_eq_iff quotient).mp rfl
  rw [Nat.shiftRight_eq_div_pow] at low high ⊢
  rw [Nat.log2_eq_iff nonzero]
  constructor
  · rw [Nat.pow_add, Nat.mul_comm]
    exact (Nat.le_div_iff_mul_le (Nat.two_pow_pos w)).mp low
  · rw [Nat.add_assoc, Nat.pow_add, Nat.mul_comm]
    exact (Nat.div_lt_iff_lt_mul (Nat.two_pow_pos w)).mp high

/-! ### The mask -/

theorem upperHalf_eq (w : ℕ) : upperHalf w = (2 ^ w - 1) <<< w := by
  rw [upperHalf, Nat.shiftLeft_eq, Nat.sub_mul, Nat.one_mul, Nat.two_mul, Nat.pow_add]

/-- Of a number of `2 * w` bits the mask leaves nothing exactly when `w` bits hold it. -/
theorem and_upperHalf_eq_zero_iff (bound : v < 2 ^ (2 * w)) :
    v &&& upperHalf w = 0 ↔ v < 2 ^ w := by
  have half : v >>> w < 2 ^ w := by
    rw [Nat.shiftRight_eq_div_pow, Nat.div_lt_iff_lt_mul (Nat.two_pow_pos w), ← Nat.pow_add,
      ← Nat.two_mul]
    exact bound
  have kept : v &&& upperHalf w = (v >>> w) <<< w := by
    rw [upperHalf_eq]
    apply Nat.eq_of_testBit_eq
    intro k
    simp only [Nat.testBit_and, Nat.testBit_shiftLeft, Nat.testBit_shiftRight,
      Nat.testBit_two_pow_sub_one]
    by_cases above : w ≤ k
    · rw [Nat.add_sub_cancel' above]
      by_cases inside : k - w < w
      · simp [above, inside]
      · have clear : v.testBit k = false := by
          apply Nat.testBit_lt_two_pow
          exact bound.trans_le (Nat.pow_le_pow_right (by decide) (by omega))
        simp [clear]
    · simp [above]
  rw [kept, Nat.shiftLeft_eq, Nat.mul_eq_zero, Nat.shiftRight_eq_div_pow, Nat.div_eq_zero_iff]
  have positive := Nat.two_pow_pos w
  omega

/-- The bit below an aligned number is free. -/
theorem or_two_pow (aligned : 2 ^ (i + 1) ∣ r) : r ||| 2 ^ i = r + 2 ^ i := by
  obtain ⟨q, rfl⟩ := aligned
  exact (Nat.two_pow_add_eq_or_of_lt (Nat.pow_lt_pow_right (by decide) i.lt_succ_self) q).symm

/-! ### The two searches -/

theorem shiftOut_eq_log2 (v r : ℕ) : shiftOut v r = r + Nat.log2 v := by
  induction v, r using shiftOut.induct with
  | case1 v r small => rw [shiftOut, if_pos small, log2_of_div_two small, Nat.add_zero]
  | case2 v r half ih => rw [shiftOut, if_neg half, ih, log2_div_two half]; omega

/-- Each round moves its share of the logarithm from `v` to `r`. -/
theorem halve_eq_log2 (bound : v < 2 ^ 2 ^ i) (aligned : 2 ^ i ∣ r) :
    halve i v r = r + Nat.log2 v := by
  induction i generalizing v r with
  | zero => rw [halve, log2_of_div_two (by omega), Nat.add_zero]
  | succ i ih =>
    have width : 2 ^ (i + 1) = 2 * 2 ^ i := Nat.pow_succ'
    have whole : v < 2 ^ (2 * 2 ^ i) := by rwa [width] at bound
    have weaker : 2 ^ i ∣ r := (Nat.pow_dvd_pow 2 i.le_succ).trans aligned
    rw [halve]
    by_cases small : v < 2 ^ 2 ^ i
    · rw [if_neg (not_not.mpr ((and_upperHalf_eq_zero_iff whole).mpr small)), ih small weaker]
    · have large : 2 ^ 2 ^ i ≤ v := not_lt.mp small
      have shifted : v >>> 2 ^ i < 2 ^ 2 ^ i := by
        rw [Nat.shiftRight_eq_div_pow, Nat.div_lt_iff_lt_mul (Nat.two_pow_pos _), ← Nat.pow_add,
          ← Nat.two_mul]
        exact whole
      rw [if_pos (mt (and_upperHalf_eq_zero_iff whole).mp small), or_two_pow aligned,
        ih shifted (Nat.dvd_add weaker dvd_rfl), log2_shiftRight large, Nat.add_assoc]

end Gravel.Library
