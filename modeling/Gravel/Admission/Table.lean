import Gravel.Admission.Soundness
import Mathlib.Analysis.SpecialFunctions.Pow.Real

/-!
# The table of bounds

`ub_calc.py` prints the utilisation bound `i * (2 ^ (1 / i) - 1)` for each number of tasks, rounded
to four decimals; `bound_table` of `ub_test.c` is what it prints.

## Main definitions

* `utilizationBound` — the bound that is rounded

## Main results

* `boundTable_rounds` — every entry is the bound to four decimals
* `assignSchedule_rounds` — `assign_schedule` tests against the bound, up to the rounding
-/

namespace Gravel

/-- `i * (pow(2,1./i)- 1)` -/
noncomputable def utilizationBound (i : ℕ) : ℝ := i * ((2 : ℝ) ^ ((i : ℝ)⁻¹) - 1)

variable {i k : ℕ} {x : ℝ}

/-- The bound is the `x` for which the product over `i` equal shares is 2. -/
theorem le_utilizationBound_iff (positive : 0 < i) (nonneg : 0 ≤ x) :
    x ≤ utilizationBound i ↔ (1 + x / i) ^ i ≤ 2 := by
  have tasks : (0 : ℝ) < i := Nat.cast_pos.mpr positive
  have root : ((2 : ℝ) ^ ((i : ℝ)⁻¹)) ^ i = 2 :=
    Real.rpow_inv_natCast_pow zero_le_two positive.ne'
  have share : 0 ≤ 1 + x / i := by positivity
  have base : 0 ≤ (2 : ℝ) ^ ((i : ℝ)⁻¹) := by positivity
  calc x ≤ utilizationBound i
      ↔ x / i ≤ (2 : ℝ) ^ ((i : ℝ)⁻¹) - 1 := by rw [utilizationBound, div_le_iff₀' tasks]
    _ ↔ 1 + x / i ≤ (2 : ℝ) ^ ((i : ℝ)⁻¹) := by rw [le_sub_iff_add_le']
    _ ↔ (1 + x / i) ^ i ≤ ((2 : ℝ) ^ ((i : ℝ)⁻¹)) ^ i :=
      (pow_le_pow_iff_left₀ share base positive.ne').symm
    _ ↔ (1 + x / i) ^ i ≤ 2 := by rw [root]

/-- The comparison for a number of half units of the fourth decimal. -/
theorem half_units_le_iff (positive : 0 < i) :
    (k : ℝ) / 20000 ≤ utilizationBound i ↔ (20000 * i + k) ^ i ≤ 2 * (20000 * i) ^ i := by
  have tasks : (0 : ℝ) < i := Nat.cast_pos.mpr positive
  have scale : (0 : ℝ) < (20000 * i) ^ i := by positivity
  have share : (1 + (k : ℝ) / 20000 / i) = (20000 * i + k) / (20000 * i) := by
    field_simp
  rw [le_utilizationBound_iff positive (by positivity), share, div_pow, div_le_iff₀ scale]
  exact_mod_cast Iff.rfl

/-- Every entry is the utilisation bound rounded to four decimals. -/
theorem boundTable_rounds (positive : 0 < i) (inside : i ≤ Config.osMaxTasks) :
    |(tableBound (i - 1) : ℝ) - utilizationBound i| ≤ 1 / 20000 := by
  have table : ∀ i < 64, 0 < boundTable.getD i 0 ∧
      (20000 * (i + 1) + (2 * boundTable.getD i 0 - 1)) ^ (i + 1) ≤
        2 * (20000 * (i + 1)) ^ (i + 1) ∧
      ¬ (20000 * (i + 1) + (2 * boundTable.getD i 0 + 1)) ^ (i + 1) ≤
        2 * (20000 * (i + 1)) ^ (i + 1) := by
    decide +kernel
  obtain ⟨n, rfl⟩ := Nat.exists_eq_succ_of_ne_zero positive.ne'
  obtain ⟨entry, below, above⟩ := table n inside
  have low := (half_units_le_iff positive).mpr below
  have high := not_le.mp (mt (half_units_le_iff positive).mp above)
  rw [Nat.succ_sub_one, tableBound]
  push_cast [Nat.cast_sub (show 1 ≤ 2 * boundTable.getD n 0 by omega)] at low high ⊢
  rw [abs_le]
  constructor <;> linarith

/-- The table is the utilisation bound up to half a unit of the fourth decimal, and so
`assign_schedule` accepts the sets without blocking whose utilisation is within the bound for their
size. -/
theorem assignSchedule_rounds {P : Type*} {deref : P → Task} {tasks : ℕ → P} {n : ℕ} :
    (∀ i, 0 < i → i ≤ Config.osMaxTasks →
        |(tableBound (i - 1) : ℝ) - utilizationBound i| ≤ 1 / 20000) ∧
      (0 < n → n ≤ Config.osAvailTasks → Unblocked deref tasks n →
        (totalUtilization deref tasks n ≤ utilizationBound n - 1 / 20000 →
            (assignSchedule exactFloat deref tasks n).1 = true ∧ Schedulable deref tasks n) ∧
          ((assignSchedule exactFloat deref tasks n).1 = true →
            totalUtilization deref tasks n ≤ utilizationBound n + 1 / 20000)) := by
  refine ⟨fun i => boundTable_rounds, fun positive bound unblocked => ?_⟩
  have rounds := abs_le.mp (boundTable_rounds positive (bound.trans (by decide)))
  rw [assignSchedule_iff_totalUtilization positive bound unblocked]
  have total : 0 ≤ (totalUtilization deref tasks n : ℝ) := by
    have nonneg : 0 ≤ totalUtilization deref tasks n :=
      Finset.sum_nonneg fun i _ => utilization_nonneg deref (tasks i)
    exact_mod_cast nonneg
  constructor
  · intro within
    constructor
    · have entry : (totalUtilization deref tasks n : ℝ) ≤ tableBound (n - 1) := by
        linarith [rounds.1]
      exact_mod_cast entry
    · apply schedulable_of_utilization unblocked
      have product := (le_utilizationBound_iff positive total).mp (by linarith)
      exact_mod_cast product
  · intro accepted
    have entry : (totalUtilization deref tasks n : ℝ) ≤ tableBound (n - 1) := by
      exact_mod_cast accepted
    linarith [rounds.2]

theorem assignSchedule_rounds_two :
    |(tableBound 1 : ℝ) - utilizationBound 2| ≤ 1 / 20000 ∧
      (totalUtilization id swappedTasks 2 : ℝ) ≤ utilizationBound 2 + 1 / 20000 := by
  obtain ⟨table, tasks⟩ := @assignSchedule_rounds Task id swappedTasks 2
  have unblocked : Unblocked id swappedTasks 2 := by decide
  exact ⟨table 2 (by decide) (by decide),
    (tasks (by decide) (by decide) unblocked).2 (by decide +kernel)⟩

end Gravel
