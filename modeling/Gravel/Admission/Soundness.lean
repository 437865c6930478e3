import Gravel.Admission.Verdict
import Gravel.Library.HyperbolicBound

/-!
# Accepted task sets and schedulability

A set of `n` tasks without blocking is accepted only if its utilisation is at most the
entry of the table for `n` tasks. The entry is `n * (2 ^ (1 / n) - 1)` rounded to the nearest
decimal, not down. Where it was rounded down every accepted set is schedulable. Where it
was rounded up, tasks that each take the same share of it are accepted and miss a deadline.

## Main definitions

* `Schedulable` — every task meets its first deadline when all are released together
* `totalUtilization` — the utilisation of a set
* `worstTask` — tasks whose costs fill the gaps between their periods

## Main results

* `schedulable_of_utilization` — the utilisation bound
* `assignSchedule_sound_iff` — the numbers of tasks for which admission is sound
* `assignSchedule_admits_overload` — an accepted set that misses a deadline
-/

namespace Gravel

open Library

variable {P : Type*} {deref : P → Task} {tasks s : ℕ → P} {n i j k : ℕ}

def cost (deref : P → Task) (p : P) : ℕ := (deref p).C.toNat

/-- By period, every task meets its first deadline when all tasks are released together. -/
def Schedulable (deref : P → Task) (tasks : ℕ → P) (n : ℕ) : Prop :=
  ∀ s, RateOrder deref tasks s n → ∀ i < n, ∃ t, 0 < t ∧ t ≤ period deref (s i) ∧
    demand (Finset.range (i + 1)) (fun j => period deref (s j)) (fun j => cost deref (s j)) t ≤ t

/-- The sets that soundness is stated for: no period is 0 and no task is ever blocked. -/
def Unblocked (deref : P → Task) (tasks : ℕ → P) (n : ℕ) : Prop :=
  ∀ i < n, 1 ≤ period deref (tasks i) ∧ (deref (tasks i)).B = 0

instance : Decidable (Unblocked deref tasks n) := inferInstanceAs (Decidable (∀ i < n, _))

def totalUtilization (deref : P → Task) (tasks : ℕ → P) (n : ℕ) : ℚ :=
  ∑ i ∈ Finset.range n, utilization deref (tasks i)

/-! ### The utilisation of a set -/

theorem totalUtilization_eq_sum :
    totalUtilization deref tasks n = ((listing tasks n).map (utilization deref)).sum := by
  induction n with
  | zero => rfl
  | succ n ih =>
    rw [listing, List.map_cons, List.sum_cons, ← ih, totalUtilization, Finset.sum_range_succ,
      add_comm, totalUtilization]

theorem totalUtilization_perm (perm : (listing s n).Perm (listing tasks n)) :
    totalUtilization deref s n = totalUtilization deref tasks n := by
  rw [totalUtilization_eq_sum, totalUtilization_eq_sum, (perm.map _).sum_eq]

theorem utilization_nonneg (deref : P → Task) (p : P) : 0 ≤ utilization deref p :=
  div_nonneg (Nat.cast_nonneg _) (Nat.cast_nonneg _)

/-- Without blocking the test at the last index decides, as the table only decreases. -/
theorem ubTest_iff_totalUtilization (positive : 0 < n) (bound : n ≤ Config.osAvailTasks)
    (unblocked : ∀ i < n, (deref (s i)).B = 0) :
    UBTest deref s n ↔ totalUtilization deref s n ≤ tableBound (n - 1) := by
  have total (k : ℕ) (below : k < n) :
      ∑ i ∈ Finset.range k, utilization deref (s i) + blockedShare deref (s k) =
        totalUtilization deref s (k + 1) := by
    rw [totalUtilization, Finset.sum_range_succ]
    simp [blockedShare, utilization, unblocked k below]
  constructor
  · intro test
    have last := test (n - 1) (by omega)
    rwa [total (n - 1) (by omega), Nat.sub_add_cancel positive] at last
  · intro least k below
    rw [total k below]
    calc totalUtilization deref s (k + 1) ≤ totalUtilization deref s n :=
          Finset.sum_le_sum_of_subset_of_nonneg (Finset.range_subset_range.mpr below)
            fun i _ _ => utilization_nonneg deref (s i)
      _ ≤ tableBound (n - 1) := least
      _ ≤ tableBound k := tableBound_antitone (by omega) (by omega)

/-- Without blocking a set is accepted exactly when its utilisation is at most the entry. -/
theorem assignSchedule_iff_totalUtilization (positive : 0 < n) (bound : n ≤ Config.osAvailTasks)
    (unblocked : Unblocked deref tasks n) :
    (assignSchedule exactFloat deref tasks n).1 = true ↔
      totalUtilization deref tasks n ≤ tableBound (n - 1) := by
  have perm := listing_sortTasks_perm deref tasks n
  rw [assignSchedule_verdict, ubTest_iff_totalUtilization positive bound,
    totalUtilization_perm perm]
  intro i below
  obtain ⟨j, inside, same⟩ := mem_listing.mp (perm.mem_iff.mp (mem_listing.mpr ⟨i, below, rfl⟩))
  exact same ▸ (unblocked j inside).2

/-! ### The utilisation bound -/

/-- A set whose utilisation is within the bound is schedulable. -/
theorem schedulable_of_utilization (unblocked : Unblocked deref tasks n)
    (within : (1 + totalUtilization deref tasks n / n) ^ n ≤ 2) : Schedulable deref tasks n := by
  intro s ordered i below
  -- The hyperbolic bound for the tasks up to `i`, whose periods are at most that of `i`.
  refine exists_demand_le ⟨i, Finset.self_mem_range_succ i⟩ (fun j member => ?_) ?_
  · have inside : j < n := lt_of_lt_of_le (Finset.mem_range.mp member) below
    refine ⟨ordered.periods_pos (fun i below => (unblocked i below).1) inside, ?_⟩
    rcases Nat.eq_or_lt_of_le (Nat.lt_succ_iff.mp (Finset.mem_range.mp member)) with rfl | less
    · exact le_rfl
    · exact ordered.order j i less below
  · have nonneg (j : ℕ) (_ : j ∈ Finset.range n) : 0 ≤ utilization deref (s j) :=
      utilization_nonneg deref (s j)
    have nonempty : (Finset.range n).Nonempty := ⟨i, Finset.mem_range.mpr below⟩
    calc ∏ j ∈ Finset.range (i + 1), (1 + utilization deref (s j))
        ≤ ∏ j ∈ Finset.range n, (1 + utilization deref (s j)) :=
          Finset.prod_le_prod_of_subset_of_one_le (Finset.range_subset_range.mpr below)
            (fun j _ => by have := utilization_nonneg deref (s j); positivity)
            fun j _ _ => by have := utilization_nonneg deref (s j); linarith
      _ ≤ (1 + totalUtilization deref s n / n) ^ n := by
          have means := prod_one_add_le_pow nonempty nonneg
          rwa [Finset.card_range] at means
      _ ≤ 2 := by rwa [totalUtilization_perm ordered.perm]

/-! ### Sets that take the whole entry -/

/-- An equal share of the entry for `n` tasks, of a period. -/
def worstCost (n T : ℕ) : ℕ := T * boundTable.getD (n - 1) 0 / (10000 * n)

/-- Each period exceeds the one before by the cost of its task. -/
def worstPeriod (n : ℕ) : ℕ → ℕ
  | 0 => 2 ^ 30
  | j + 1 => worstPeriod n j + worstCost n (worstPeriod n j)

def worstTask (n j : ℕ) : Task :=
  ⟨0, 0, 0, .ofNat (worstCost n (worstPeriod n j)), .ofNat (worstPeriod n j), 0⟩

theorem worstPeriod_mono (before : i ≤ j) : worstPeriod n i ≤ worstPeriod n j :=
  monotone_nat_of_le_succ (fun _ => Nat.le_add_right _ _) before

theorem worstPeriod_pos : 0 < worstPeriod n j :=
  lt_of_lt_of_le (show 0 < 2 ^ 30 by decide) (worstPeriod_mono (Nat.zero_le j))

theorem worstPeriod_lt (positive : 0 < n) (bound : n ≤ Config.osAvailTasks) (inside : j ≤ n) :
    worstPeriod n j < 2 ^ 32 := by
  have table : ∀ n < Config.osAvailTasks + 1, 0 < n → worstPeriod n n < 2 ^ 32 := by
    decide +kernel
  exact (worstPeriod_mono inside).trans_lt (table n (by omega) positive)

/-- Where the table was rounded up the shares are large enough to overload. -/
theorem lt_worstPeriod (positive : 0 < n) (bound : n ≤ Config.osAvailTasks)
    (exceeds : ¬ (1 + tableBound (n - 1) / n) ^ n ≤ 2) : 2 * worstPeriod n 0 < worstPeriod n n := by
  have table : ∀ n < Config.osAvailTasks + 1, 0 < n →
      (1 + tableBound (n - 1) / n) ^ n ≤ 2 ∨ 2 * worstPeriod n 0 < worstPeriod n n := by
    decide +kernel
  exact (table n (by omega) positive).resolve_left exceeds

theorem worstTask_period (positive : 0 < n) (bound : n ≤ Config.osAvailTasks) (inside : j < n) :
    period id (worstTask n j) = worstPeriod n j :=
  UInt32.toNat_ofNat_of_lt' (worstPeriod_lt positive bound inside.le)

theorem worstTask_cost (positive : 0 < n) (bound : n ≤ Config.osAvailTasks) (inside : j < n) :
    cost id (worstTask n j) = worstCost n (worstPeriod n j) := by
  have below : worstCost n (worstPeriod n j) ≤ worstPeriod n (j + 1) := Nat.le_add_left _ _
  exact UInt32.toNat_ofNat_of_lt' (below.trans_lt (worstPeriod_lt positive bound inside))

theorem worstTask_utilization (positive : 0 < n) (bound : n ≤ Config.osAvailTasks)
    (inside : j < n) : utilization id (worstTask n j) ≤ tableBound (n - 1) / n := by
  have share : (worstCost n (worstPeriod n j) : ℚ) * (10000 * n) ≤
      worstPeriod n j * boundTable.getD (n - 1) 0 := by
    exact_mod_cast Nat.div_mul_le_self _ _
  have positive' : (0 : ℚ) < n := by exact_mod_cast positive
  have period_pos : (0 : ℚ) < worstPeriod n j := by exact_mod_cast worstPeriod_pos
  change (cost id (worstTask n j) : ℚ) / period id (worstTask n j) ≤ _
  rw [worstTask_cost positive bound inside, worstTask_period positive bound inside, tableBound,
    div_div, div_le_div_iff₀ period_pos (by positivity)]
  linarith

theorem worstTask_unblocked (positive : 0 < n) (bound : n ≤ Config.osAvailTasks) :
    Unblocked id (worstTask n) n := by
  intro i inside
  rw [worstTask_period positive bound inside]
  exact ⟨worstPeriod_pos, rfl⟩

/-- The set is accepted. -/
theorem worstTask_accepted (positive : 0 < n) (bound : n ≤ Config.osAvailTasks) :
    (assignSchedule exactFloat id (worstTask n) n).1 = true := by
  rw [assignSchedule_iff_totalUtilization positive bound (worstTask_unblocked positive bound)]
  have positive' : (n : ℚ) ≠ 0 := by exact_mod_cast positive.ne'
  calc totalUtilization id (worstTask n) n
      ≤ ∑ _i ∈ Finset.range n, tableBound (n - 1) / n :=
        Finset.sum_le_sum fun j member =>
          worstTask_utilization positive bound (Finset.mem_range.mp member)
    _ = tableBound (n - 1) := by
        rw [Finset.sum_const, Finset.card_range, nsmul_eq_mul, mul_div_cancel₀ _ positive']

theorem worstTask_rateOrder (positive : 0 < n) (bound : n ≤ Config.osAvailTasks) :
    RateOrder id (worstTask n) (worstTask n) n where
  perm := List.Perm.refl _
  order i j less below := by
    rw [worstTask_period positive bound (less.trans below), worstTask_period positive bound below]
    exact worstPeriod_mono less.le

/-- Where the table was rounded up the last task of the set misses its deadline. -/
theorem worstTask_overloads (positive : 0 < n) (bound : n ≤ Config.osAvailTasks)
    (exceeds : ¬ (1 + tableBound (n - 1) / n) ^ n ≤ 2) : ¬ Schedulable id (worstTask n) n := by
  intro meets
  obtain ⟨m, rfl⟩ : ∃ m, n = m + 1 := ⟨n - 1, by omega⟩
  obtain ⟨t, inside, early, fits⟩ :=
    meets _ (worstTask_rateOrder positive bound) m m.lt_succ_self
  rw [worstTask_period positive bound m.lt_succ_self] at early
  have demanded : demand (Finset.range (m + 1)) (fun j => period id (worstTask (m + 1) j))
      (fun j => cost id (worstTask (m + 1) j)) t =
      demand (Finset.range (m + 1)) (worstPeriod (m + 1))
        (fun j => worstCost (m + 1) (worstPeriod (m + 1) j)) t :=
    Finset.sum_congr rfl fun j member => by
      dsimp only
      rw [worstTask_period positive bound (Finset.mem_range.mp member),
        worstTask_cost positive bound (Finset.mem_range.mp member)]
  rw [demanded] at fits
  exact absurd fits (not_le.mpr (lt_demand_of_fill worstPeriod_pos
    (fun _ _ => rfl) (lt_worstPeriod positive bound exceeds) inside early))

/-! ### Soundness -/

/-- What is accepted is within the entry of the table. -/
theorem schedulable_of_accepted (positive : 0 < n) (bound : n ≤ Config.osAvailTasks)
    (entry : (1 + tableBound (n - 1) / n) ^ n ≤ 2) (unblocked : Unblocked deref tasks n)
    (accepted : (assignSchedule exactFloat deref tasks n).1 = true) :
    Schedulable deref tasks n := by
  rw [assignSchedule_iff_totalUtilization positive bound unblocked] at accepted
  refine schedulable_of_utilization unblocked (le_trans ?_ entry)
  have nonneg : 0 ≤ totalUtilization deref tasks n :=
    Finset.sum_nonneg fun i _ => utilization_nonneg deref (tasks i)
  gcongr

/-- A set without blocking is schedulable if its utilisation is within the bound for its
size. All accepted sets of `n` tasks are schedulable exactly when the entry of the table is. -/
theorem assignSchedule_sound_iff (positive : 0 < n) (bound : n ≤ Config.osAvailTasks) :
    (∀ (P : Type) (deref : P → Task) (tasks : ℕ → P), Unblocked deref tasks n →
        (1 + totalUtilization deref tasks n / n) ^ n ≤ 2 → Schedulable deref tasks n) ∧
      ((∀ (P : Type) (deref : P → Task) (tasks : ℕ → P), Unblocked deref tasks n →
          (assignSchedule exactFloat deref tasks n).1 = true → Schedulable deref tasks n) ↔
        (1 + tableBound (n - 1) / n) ^ n ≤ 2) := by
  refine ⟨fun _ _ _ => schedulable_of_utilization, fun sound => ?_, fun entry P deref tasks =>
    schedulable_of_accepted positive bound entry⟩
  · -- An entry that is too large admits the set that takes all of it.
    by_contra exceeds
    exact worstTask_overloads positive bound exceeds (sound Task id (worstTask n)
      (worstTask_unblocked positive bound) (worstTask_accepted positive bound))

/-- Of the entries up to the tenth, those for 3, 5, 6 and 8 tasks are too large. -/
example : (List.range 10).filter (fun k => ¬ (1 + tableBound k / (k + 1)) ^ (k + 1) ≤ 2) =
    [2, 4, 5, 7] := by decide +kernel

theorem assignSchedule_sound_two : Schedulable id swappedTasks 2 :=
  (assignSchedule_sound_iff (by decide) (by decide)).2.mpr (by decide +kernel) Task id
    swappedTasks (by decide) (by decide +kernel)

/-! ### An accepted set that misses a deadline -/

/-- Three tasks whose costs fill the gaps between their periods, in steps of a cube root. -/
def fillingTasks : ℕ → Task
  | 0 => ⟨0, 0, 0, 25992, 100000, 0⟩
  | 1 => ⟨0, 0, 0, 32748, 125992, 0⟩
  | _ => ⟨0, 0, 0, 41261, 158740, 0⟩

/-- The general statement fails: the utilisation of the three tasks is between
`3 * (2 ^ (1 / 3) - 1)` and the entry for 3 tasks, and the last misses its deadline. -/
theorem assignSchedule_admits_overload :
    ¬ ∀ (tasks : ℕ → Task) (n : ℕ), 0 < n → n ≤ Config.osAvailTasks → Unblocked id tasks n →
      (assignSchedule exactFloat id tasks n).1 = true → Schedulable id tasks n := by
  intro sound
  have accepted : (assignSchedule exactFloat id fillingTasks 3).1 = true := by decide +kernel
  have order : ∀ j < 3, ∀ i < j, period id (fillingTasks i) ≤ period id (fillingTasks j) := by
    decide
  obtain ⟨t, inside, early, fits⟩ :=
    sound fillingTasks 3 (by decide) (by decide) (by decide) accepted fillingTasks
      ⟨List.Perm.refl _, fun i j less below => order j below i less⟩ 2 (by decide)
  -- 100000 + 25992 = 125992, 125992 + 32748 = 158740, and 158740 + 41261 > 200000.
  refine absurd fits (not_le.mpr (lt_demand_of_fill (by decide) ?_ (by decide) inside early))
  decide

end Gravel
