import Mathlib.Algebra.Order.Field.Rat
import Mathlib.Data.Rat.Cast.Order

/-!
# Extended rationals

The rationals that are not negative, with infinity and a value that is not a number. The
operations follow the rules for special values of floating point arithmetic, without rounding.

## Main definitions

* `Extended` — a number, infinity or not a number
* `Extended.add`, `Extended.div`, `Extended.gt`

## Main results

* `Extended.add_nan`, `Extended.gt_nan` — no comparison holds of a sum that is not a number
* `Extended.finite_div_zero` — a division by zero leaves the numbers
-/

namespace Gravel.Library

inductive Extended
  | finite (q : ℚ≥0)
  | inf
  | nan

namespace Extended

variable {a b : ℚ≥0} {x : Extended}

def add : Extended → Extended → Extended
  | nan, _ | _, nan => nan
  | inf, _ | _, inf => inf
  | finite a, finite b => finite (a + b)

def div : Extended → Extended → Extended
  | nan, _ | _, nan => nan
  | inf, inf => nan
  | inf, finite _ => inf
  | finite _, inf => finite 0
  | finite a, finite b => if b = 0 then if a = 0 then nan else inf else finite (a / b)

def gt : Extended → Extended → Bool
  | finite a, finite b => decide (a > b)
  | inf, finite _ => true
  | _, _ => false

@[simp] theorem nan_add : add nan x = nan := by
  cases x <;> rfl

@[simp] theorem add_nan : add x nan = nan := by
  cases x <;> rfl

@[simp] theorem gt_nan : gt nan x = false := by
  cases x <;> rfl

@[simp] theorem finite_add_inf : add (finite a) inf = inf := rfl

@[simp] theorem finite_add_finite : add (finite a) (finite b) = finite (a + b) := rfl

@[simp] theorem inf_gt_finite : gt inf (finite a) = true := rfl

/-- Two numbers compare as rationals. -/
theorem finite_gt_finite : gt (finite a) (finite b) = decide ((a : ℚ) > b) := by
  rw [gt, decide_eq_decide]
  exact NNRat.cast_lt.symm

/-- Zero by zero is not a number; anything else by zero is infinite. -/
theorem finite_div_zero : div (finite a) (finite 0) = if a = 0 then nan else inf := by
  rw [div, if_pos rfl]

theorem finite_div_finite (other : b ≠ 0) : div (finite a) (finite b) = finite (a / b) := by
  rw [div, if_neg other]

end Extended

end Gravel.Library
