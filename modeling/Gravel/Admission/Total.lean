import Gravel.Admission.Soundness
import Mathlib.Algebra.BigOperators.Fin

/-!
# The verdict without blocking

Without blocking `assign_schedule` compares the total utilisation with one entry of the table,
although it stops at the first prefix that exceeds its own entry. So the verdict is the same for
all orders of a set, and a set that asks for less is accepted where the larger one is.

## Main definitions

* `Admitted` — the verdict with exact arithmetic
* `withoutTask` — an array with one entry removed
* `AtMost` — a set of the same periods whose costs are not higher
* `TotalDecides` — what follows for the verdict

## Main results

* `totalUtilization_withoutTask`, `AtMost.totalUtilization_le`
* `totalDecides` — every set without blocking is judged by its total
-/

namespace Gravel

variable {P : Type*} {deref deref' : P → Task} {tasks tasks' s : ℕ → P} {n m i : ℕ}

/-- The verdict of `assign_schedule` with exact arithmetic. -/
def Admitted (deref : P → Task) (tasks : ℕ → P) (n : ℕ) : Prop :=
  (assignSchedule exactFloat deref tasks n).1 = true

/-- The array without its entry at index `i`. -/
def withoutTask (tasks : ℕ → P) (i : ℕ) : ℕ → P := fun j =>
  if j < i then tasks j else tasks (j + 1)

/-- The first set asks for no more than the second, at the same periods and without blocking. -/
structure AtMost (deref' deref : P → Task) (tasks' tasks : ℕ → P) (n : ℕ) : Prop where
  periods : ∀ i < n, (deref' (tasks' i)).T = (deref (tasks i)).T
  costs : ∀ i < n, (deref' (tasks' i)).C ≤ (deref (tasks i)).C
  unblocked : ∀ i < n, (deref' (tasks' i)).B = 0

/-- The verdict on the set is a matter of its total utilisation. -/
structure TotalDecides (deref : P → Task) (tasks : ℕ → P) (n : ℕ) : Prop where
  verdict : Admitted deref tasks n ↔ totalUtilization deref tasks n ≤ tableBound (n - 1)
  /-- The test gives this verdict along whatever order the loops might leave. -/
  any_order : ∀ s, (listing s n).Perm (listing tasks n) →
    (ubTest exactFloat deref s n 0 0 = true ↔
      totalUtilization deref tasks n ≤ tableBound (n - 1))
  relisted : ∀ (deref' : P → Task) (tasks' : ℕ → P),
    ((listing tasks' n).map deref').Perm ((listing tasks n).map deref) →
      (Admitted deref' tasks' n ↔ Admitted deref tasks n)
  cheaper : ∀ (deref' : P → Task) (tasks' : ℕ → P), AtMost deref' deref tasks' tasks n →
    Admitted deref tasks n → Admitted deref' tasks' n
  fewer : ∀ i < n, Admitted deref tasks n → Admitted deref (withoutTask tasks i) (n - 1)

/-! ### The total -/

/-- Removing a task takes its share off the total. -/
theorem totalUtilization_withoutTask (inside : i ≤ m) :
    totalUtilization deref tasks (m + 1) =
      utilization deref (tasks i) + totalUtilization deref (withoutTask tasks i) m := by
  have place : i < m + 1 := Nat.lt_succ_of_le inside
  rw [totalUtilization, totalUtilization, Finset.sum_range, Finset.sum_range,
    Fin.sum_univ_succAbove _ ⟨i, place⟩]
  congr 1
  refine Finset.sum_congr rfl fun j _ => ?_
  rw [withoutTask, Fin.succAbove]
  by_cases before : j.val < i
  · rw [if_pos before, if_pos (Fin.lt_def.mpr before)]
    rfl
  · rw [if_neg before, if_neg (fun less => before (Fin.lt_def.mp less))]
    rfl

theorem AtMost.totalUtilization_le (atMost : AtMost deref' deref tasks' tasks n) :
    totalUtilization deref' tasks' n ≤ totalUtilization deref tasks n := by
  refine Finset.sum_le_sum fun i member => ?_
  have inside := Finset.mem_range.mp member
  have cost : ((deref' (tasks' i)).C.toNat : ℚ) ≤ (deref (tasks i)).C.toNat := by
    exact_mod_cast atMost.costs i inside
  rw [utilization, utilization, atMost.periods i inside]
  gcongr

/-- The total is one of the descriptors in any order. -/
theorem totalUtilization_map_perm
    (perm : ((listing tasks' n).map deref').Perm ((listing tasks n).map deref)) :
    totalUtilization deref' tasks' n = totalUtilization deref tasks n := by
  have shares (d : P → Task) (l : List P) :
      l.map (utilization d) = (l.map d).map (utilization id) := by
    rw [List.map_map]
    rfl
  rw [totalUtilization_eq_sum, totalUtilization_eq_sum, shares deref', shares deref,
    (perm.map _).sum_eq]

/-! ### The sets -/

theorem unblocked_iff_listing : Unblocked deref tasks n ↔
    ∀ task ∈ (listing tasks n).map deref, 1 ≤ task.T.toNat ∧ task.B = 0 := by
  constructor
  · intro unblocked task member
    obtain ⟨p, listed, rfl⟩ := List.mem_map.mp member
    obtain ⟨i, inside, rfl⟩ := mem_listing.mp listed
    exact unblocked i inside
  · intro all i inside
    exact all _ (List.mem_map_of_mem (mem_listing.mpr ⟨i, inside, rfl⟩))

theorem Unblocked.withoutTask (unblocked : Unblocked deref tasks (m + 1)) (i : ℕ) :
    Unblocked deref (withoutTask tasks i) m := by
  intro j inside
  unfold Gravel.withoutTask
  split
  · exact unblocked j (by omega)
  · exact unblocked (j + 1) (by omega)

theorem AtMost.toUnblocked (atMost : AtMost deref' deref tasks' tasks n)
    (unblocked : Unblocked deref tasks n) : Unblocked deref' tasks' n := by
  intro i inside
  refine ⟨?_, atMost.unblocked i inside⟩
  rw [period, atMost.periods i inside]
  exact (unblocked i inside).1

/-! ### The verdict -/

theorem admitted_iff (positive : 0 < n) (bound : n ≤ Config.osAvailTasks)
    (unblocked : Unblocked deref tasks n) :
    Admitted deref tasks n ↔ totalUtilization deref tasks n ≤ tableBound (n - 1) :=
  assignSchedule_iff_totalUtilization positive bound unblocked

/-- The set without one of its tasks is tested against an entry that is not smaller. -/
theorem Admitted.withoutTask (accepted : Admitted deref tasks (m + 1)) (inside : i ≤ m)
    (bound : m + 1 ≤ Config.osAvailTasks) (unblocked : Unblocked deref tasks (m + 1)) :
    Admitted deref (withoutTask tasks i) m := by
  rcases Nat.eq_zero_or_pos m with rfl | positive
  · rfl
  · rw [admitted_iff (by omega) bound unblocked, totalUtilization_withoutTask inside] at accepted
    rw [admitted_iff positive (by omega) (unblocked.withoutTask i)]
    calc totalUtilization deref (Gravel.withoutTask tasks i) m
        ≤ utilization deref (tasks i) +
            totalUtilization deref (Gravel.withoutTask tasks i) m :=
          le_add_of_nonneg_left (utilization_nonneg deref (tasks i))
      _ ≤ tableBound m := accepted
      _ ≤ tableBound (m - 1) := tableBound_antitone (by omega) (by omega)

/-- A set without blocking is judged by its total utilisation. -/
theorem totalDecides (positive : 0 < n) (bound : n ≤ Config.osAvailTasks)
    (unblocked : Unblocked deref tasks n) : TotalDecides deref tasks n where
  verdict := admitted_iff positive bound unblocked
  any_order s perm := by
    have same : Unblocked deref s n :=
      unblocked_iff_listing.mpr fun task member =>
        unblocked_iff_listing.mp unblocked task ((perm.map deref).mem_iff.mp member)
    rw [ubTest_iff, ubTest_iff_totalUtilization positive bound fun i inside => (same i inside).2,
      totalUtilization_perm perm]
  relisted deref' tasks' perm := by
    have same : Unblocked deref' tasks' n :=
      unblocked_iff_listing.mpr fun task member =>
        unblocked_iff_listing.mp unblocked task (perm.mem_iff.mp member)
    rw [admitted_iff positive bound same, admitted_iff positive bound unblocked,
      totalUtilization_map_perm perm]
  cheaper deref' tasks' atMost accepted := by
    rw [admitted_iff positive bound unblocked] at accepted
    rw [admitted_iff positive bound (atMost.toUnblocked unblocked)]
    exact atMost.totalUtilization_le.trans accepted
  fewer i inside accepted := by
    obtain ⟨m, rfl⟩ : ∃ m, n = m + 1 := ⟨n - 1, by omega⟩
    exact accepted.withoutTask (by omega) bound unblocked

/-- The first two of the tasks in the wrong order may swap, and either may be removed. -/
theorem totalDecides_swapped : TotalDecides id swappedTasks 2 :=
  totalDecides (by decide) (by decide) (by decide)

end Gravel
