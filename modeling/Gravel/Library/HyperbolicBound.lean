import Mathlib.Algebra.Order.Floor.Div
import Mathlib.Algebra.BigOperators.Field
import Mathlib.Algebra.Order.BigOperators.Ring.Finset
import Mathlib.Analysis.MeanInequalities

/-!
# Utilisation bounds for periodic tasks

Tasks that are released together and then periodically demand, by time `t`, one
execution for every period that has begun. A task of period `h` meets its first deadline
next to the tasks of `S` if their demand is at most `t` for some `t ≤ h`.

If the product of `1 + C / T` over the tasks is at most 2 there is such a time: it can be
taken among the last releases before `h`. By the inequality of the means the product is at
most 2 when the sum of `C / T` is at most `n * (2 ^ (1 / n) - 1)` for `n` tasks. Tasks whose
costs fill the gaps between consecutive periods show that no larger sum will do.

## Main definitions

* `demand` — the work the tasks of a set demand by a time
* `lastRelease` — the last release of a task before or at a time

## Main results

* `exists_demand_le` — the hyperbolic bound
* `prod_one_add_le_pow` — the product is at most the power of the mean
* `lt_demand_of_fill` — costs that fill the gaps overload every time
-/

namespace Gravel.Library

open Finset

variable {ι : Type*} {T C : ι → ℕ} {S : Finset ι} {h t : ℕ} {j k : ι}

/-- The work demanded by time `t`, releases at `t` itself not counted. -/
def demand (S : Finset ι) (T C : ι → ℕ) (t : ℕ) : ℕ := ∑ j ∈ S, (t ⌈/⌉ T j) * C j

/-- The last release at or before `h`. -/
def lastRelease (T : ι → ℕ) (h : ℕ) (j : ι) : ℕ := T j * (h / T j)

/-- The work released before the last release, or at it. -/
def lastWork (T C : ι → ℕ) (h : ℕ) (j : ι) : ℕ := h / T j * C j

theorem lastRelease_le : lastRelease T h j ≤ h := Nat.mul_div_le h (T j)

theorem lastRelease_pos (positive : 0 < T j) (early : T j ≤ h) : 0 < lastRelease T h j :=
  Nat.mul_pos positive (Nat.div_pos early positive)

/-- Before its last release a task demands at most its work up to there, and one
execution more after it. -/
theorem ceilDiv_mul_le (positive : 0 < T j) (early : T j ≤ h) (inside : t ≤ h) :
    (t ⌈/⌉ T j) * C j ≤
      lastWork T C h j + if lastRelease T h j < t then lastWork T C h j else 0 := by
  have once : 1 ≤ h / T j := Nat.div_pos early positive
  split
  · -- One release more than up to the last one, which is at most twice as many.
    have ceil : t ⌈/⌉ T j ≤ h / T j + 1 := by
      rw [ceilDiv_le_iff_le_mul positive]
      exact inside.trans (Nat.lt_mul_div_succ h positive).le
    calc
      (t ⌈/⌉ T j) * C j ≤ (h / T j + h / T j) * C j := Nat.mul_le_mul_right _ (by omega)
      _ = lastWork T C h j + lastWork T C h j := Nat.add_mul _ _ _
  · rename_i before
    have ceil : t ⌈/⌉ T j ≤ h / T j := by
      rw [ceilDiv_le_iff_le_mul positive]
      exact not_lt.mp before
    exact Nat.mul_le_mul_right _ ceil

theorem demand_le (tasks : ∀ j ∈ S, 0 < T j ∧ T j ≤ h) (inside : t ≤ h) :
    demand S T C t ≤ ∑ j ∈ S, lastWork T C h j +
      ∑ j ∈ S.filter fun j => lastRelease T h j < t, lastWork T C h j := by
  rw [Finset.sum_filter, ← Finset.sum_add_distrib]
  exact Finset.sum_le_sum fun j member =>
    ceilDiv_mul_le (tasks j member).1 (tasks j member).2 inside

/-- Points that come late, each before a base and the weights in front of it, have weights
so heavy that the product outgrows the sum. -/
theorem base_add_sum_le_mul_prod [DecidableEq ι] {x w : ι → ℚ} {base : ℚ} (s : Finset ι)
    (positive : ∀ j ∈ s, 0 < x j) (weights : ∀ j ∈ s, 0 ≤ w j)
    (late : ∀ k ∈ s, x k < base + ∑ j ∈ s.filter fun j => x j < x k, w j) :
    base + ∑ j ∈ s, w j ≤ base * ∏ j ∈ s, (1 + w j / x j) ∧
      (0 < ∑ j ∈ s, w j → base + ∑ j ∈ s, w j < base * ∏ j ∈ s, (1 + w j / x j)) := by
  -- Adding the latest point `a` multiplies by at least the relative growth of the sum.
  induction s using Finset.induction_on_max_value x with
  | empty => simp
  | insert a s fresh latest ih =>
    have xa := positive a (mem_insert_self a s)
    have wa := weights a (mem_insert_self a s)
    obtain ⟨weak, strict⟩ := ih (fun j member => positive j (mem_insert_of_mem member))
      (fun j member => weights j (mem_insert_of_mem member)) fun k member => by
        have order := late k (mem_insert_of_mem member)
        rwa [filter_insert, if_neg (not_lt.mpr (latest k member))] at order
    have early : x a < base + ∑ j ∈ s, w j := by
      refine (late a (mem_insert_self a s)).trans_le (add_le_add_right ?_ base)
      rw [filter_insert, if_neg (lt_irrefl _)]
      exact sum_le_sum_of_subset_of_nonneg (filter_subset _ _)
        fun j member _ => weights j (mem_insert_of_mem member)
    have cancel : w a = x a * (w a / x a) := (mul_div_cancel₀ (w a) xa.ne').symm
    have factor : 0 ≤ w a / x a := div_nonneg wa xa.le
    have growth : base + ∑ j ∈ s, w j + w a ≤
        (base + ∑ j ∈ s, w j) * (1 + w a / x a) := by
      have := mul_le_mul_of_nonneg_right early.le factor
      linarith
    rw [sum_insert fresh, prod_insert fresh]
    have regroup : base * ((1 + w a / x a) * ∏ j ∈ s, (1 + w j / x j)) =
        (base * ∏ j ∈ s, (1 + w j / x j)) * (1 + w a / x a) := by ring
    rw [regroup]
    constructor
    · have := mul_le_mul_of_nonneg_right weak (by linarith : 0 ≤ 1 + w a / x a)
      linarith
    · intro heavy
      rcases wa.lt_or_eq with some | none
      · have ratio : 0 < w a / x a := div_pos some xa
        have := mul_lt_mul_of_pos_right early ratio
        have := mul_le_mul_of_nonneg_right weak (by linarith : 0 ≤ 1 + w a / x a)
        linarith
      · have := mul_lt_mul_of_pos_right (strict (by linarith)) (by linarith : 0 < 1 + w a / x a)
        linarith

/-- The hyperbolic bound: some last release is a time by which the demand is met. -/
theorem exists_demand_le (nonempty : S.Nonempty) (tasks : ∀ j ∈ S, 0 < T j ∧ T j ≤ h)
    (bound : ∏ j ∈ S, (1 + (C j : ℚ) / T j) ≤ 2) :
    ∃ t, 0 < t ∧ t ≤ h ∧ demand S T C t ≤ t := by
  classical
  by_contra never
  -- Otherwise every last release comes before the demand at it, which is at most the work
  -- of all tasks and of those released earlier.
  have late (k : ι) (member : k ∈ S) : (lastRelease T h k : ℚ) < ∑ j ∈ S, (lastWork T C h j : ℚ) +
      ∑ j ∈ S.filter fun j => (lastRelease T h j : ℚ) < lastRelease T h k,
        (lastWork T C h j : ℚ) := by
    have excess : lastRelease T h k < demand S T C (lastRelease T h k) := by
      by_contra met
      exact never ⟨_, lastRelease_pos (tasks k member).1 (tasks k member).2, lastRelease_le,
        not_lt.mp met⟩
    have total := excess.trans_le (demand_le tasks lastRelease_le)
    exact_mod_cast total
  obtain ⟨i, first⟩ := nonempty
  have positive (j : ι) (member : j ∈ S) : (0 : ℚ) < lastRelease T h j := by
    exact_mod_cast lastRelease_pos (tasks j member).1 (tasks j member).2
  have weights (j : ι) (_ : j ∈ S) : (0 : ℚ) ≤ lastWork T C h j := Nat.cast_nonneg _
  have start : 0 < ∑ j ∈ S, (lastWork T C h j : ℚ) := by
    have some_late := (positive i first).trans (late i first)
    have fewer := sum_le_sum_of_subset_of_nonneg
      (filter_subset (fun j => (lastRelease T h j : ℚ) < lastRelease T h i) S)
      fun j member _ => weights j member
    linarith
  have heavy := (base_add_sum_le_mul_prod S positive weights late).2 start
  have ratios : ∏ j ∈ S, (1 + (lastWork T C h j : ℚ) / lastRelease T h j) =
      ∏ j ∈ S, (1 + (C j : ℚ) / T j) := by
    refine prod_congr rfl fun j member => ?_
    have rounds : ((h / T j : ℕ) : ℚ) ≠ 0 := by
      exact_mod_cast (Nat.div_pos (tasks j member).2 (tasks j member).1).ne'
    rw [lastWork, lastRelease, Nat.cast_mul, Nat.cast_mul, mul_comm, mul_div_mul_right _ _ rounds]
  rw [ratios] at heavy
  have light := mul_le_mul_of_nonneg_left bound start.le
  linarith

/-! ### From the sum to the product -/

/-- The inequality of the means, for factors above one. -/
theorem prod_one_add_le_pow {u : ι → ℚ} (nonempty : S.Nonempty) (positive : ∀ j ∈ S, 0 ≤ u j) :
    ∏ j ∈ S, (1 + u j) ≤ (1 + (∑ j ∈ S, u j) / S.card) ^ S.card := by
  have size : (S.card : ℝ) ≠ 0 := by exact_mod_cast nonempty.card_pos.ne'
  have factors (j : ι) (member : j ∈ S) : (0 : ℝ) ≤ 1 + u j := by
    have := positive j member
    positivity
  have means := Real.geom_mean_le_arith_mean_weighted S (fun _ => (S.card : ℝ)⁻¹)
    (fun j => 1 + (u j : ℝ)) (fun _ _ => by positivity)
    (by rw [sum_const, nsmul_eq_mul, mul_inv_cancel₀ size]) factors
  have mean : ∑ j ∈ S, (S.card : ℝ)⁻¹ * (1 + (u j : ℝ)) = 1 + (∑ j ∈ S, (u j : ℝ)) / S.card := by
    rw [← mul_sum, sum_add_distrib, sum_const, nsmul_eq_mul, mul_one, mul_add,
      inv_mul_cancel₀ size, div_eq_inv_mul]
  have powers := pow_le_pow_left₀
    (prod_nonneg fun j member => Real.rpow_nonneg (factors j member) _) means S.card
  rw [mean, ← prod_pow] at powers
  have roots : ∏ j ∈ S, ((1 + (u j : ℝ)) ^ (S.card : ℝ)⁻¹) ^ S.card = ∏ j ∈ S, (1 + (u j : ℝ)) :=
    prod_congr rfl fun j member =>
      Real.rpow_inv_natCast_pow (factors j member) nonempty.card_pos.ne'
  rw [roots] at powers
  exact_mod_cast powers

/-! ### Overload -/

/-- Costs that are the gaps between consecutive periods add up to the differences. -/
theorem sum_of_fill {T C : ℕ → ℕ} {n k : ℕ} (fill : ∀ j < n, T (j + 1) = T j + C j)
    (inside : k ≤ n) : T k = T 0 + ∑ j ∈ range k, C j := by
  induction k with
  | zero => simp
  | succ k ih => rw [fill k (by omega), ih (by omega), sum_range_succ, Nat.add_assoc]

/-- Tasks `0` to `n` by period, each but the last with the gap to the next period as its
cost. When the last cost is more than what is left of two shortest periods, no time up to
the longest period meets the demand. -/
theorem lt_demand_of_fill {T C : ℕ → ℕ} {n t : ℕ} (positive : 0 < T 0)
    (fill : ∀ j < n, T (j + 1) = T j + C j) (exceeds : 2 * T 0 < T n + C n) (inside : 0 < t)
    (early : t ≤ T n) : t < demand (range (n + 1)) T C t := by
  obtain ⟨k, reached, bound, before⟩ : ∃ k, t ≤ T k ∧ k ≤ n ∧ ∀ j < k, T j < t := by
    have some_k : ∃ k, t ≤ T k := ⟨n, early⟩
    exact ⟨Nat.find some_k, Nat.find_spec some_k, Nat.find_min' some_k early,
      fun j less => not_le.mp (Nat.find_min some_k less)⟩
  -- Every task has been released once before `t`, the tasks before `k` twice.
  have twice : ∑ j ∈ range (n + 1), (C j + if j < k then C j else 0) ≤
      demand (range (n + 1)) T C t := by
    refine sum_le_sum fun j member => ?_
    have period : 0 < T j := by
      rw [sum_of_fill fill (Nat.lt_succ_iff.mp (mem_range.mp member))]
      omega
    have once : 1 ≤ t ⌈/⌉ T j := by
      by_contra none
      have := (ceilDiv_le_iff_le_mul period).mp (Nat.lt_succ_iff.mp (not_le.mp none))
      omega
    split
    · rename_i less
      have two : 2 ≤ t ⌈/⌉ T j := by
        by_contra one
        have := (ceilDiv_le_iff_le_mul period).mp (Nat.lt_succ_iff.mp (not_le.mp one))
        have := before j less
        omega
      calc
        C j + C j = 2 * C j := by omega
        _ ≤ (t ⌈/⌉ T j) * C j := Nat.mul_le_mul_right _ two
    · calc
        C j + 0 = 1 * C j := by omega
        _ ≤ (t ⌈/⌉ T j) * C j := Nat.mul_le_mul_right _ once
  have second : ∑ j ∈ range (n + 1), (if j < k then C j else 0) = ∑ j ∈ range k, C j := by
    rw [← sum_filter]
    congr 1
    ext j
    simp only [mem_filter, mem_range]
    omega
  rw [sum_add_distrib, second, sum_range_succ] at twice
  have whole := sum_of_fill fill le_rfl
  have part := sum_of_fill fill bound
  omega

end Gravel.Library
