import Gravel.Admission.Soundness
import Gravel.Library.ExtendedRational

/-!
# Descriptors without a period

`task_create` takes the descriptors as user code wrote them, and `assign_schedule` divides by
their periods. A period of 0 makes the share of a task infinite, and the set is rejected, unless
its execution and blocking times are 0 too. Then the share is not a number, nor is any sum
after it, and no test rejects anything more.

## Main definitions

* `extendedFloat` — exact arithmetic with the special values of `float`
* `Sane` — every period is positive and the total utilisation is at most 1
* `FirstCharged` — the first task without a period has a cost

## Main results

* `sortTasks_first` — the first task without a period is left at index 0
* `assignSchedule_sane_iff` — exactly under `FirstCharged` are accepted sets sane
-/

namespace Gravel

open Library

variable {P : Type*} {deref : P → Task} {tasks s : ℕ → P} {n m i p : ℕ} {u : ℚ≥0}

/-- The arithmetic of `float` read as exact rationals with infinity and NaN. -/
def extendedFloat : FloatOps Extended where
  ofUnsigned x := .finite x.toNat
  ofDecimal k := .finite (k / 10000)
  add := .add
  div := .div
  gt := Extended.gt

@[simp] theorem extendedFloat_ofUnsigned {x : UInt32} :
    extendedFloat.ofUnsigned x = .finite x.toNat := rfl

@[simp] theorem extendedFloat_ofDecimal {k : ℕ} :
    extendedFloat.ofDecimal k = .finite (k / 10000) := rfl

@[simp] theorem extendedFloat_add : extendedFloat.add = .add := rfl

@[simp] theorem extendedFloat_div : extendedFloat.div = .div := rfl

@[simp] theorem extendedFloat_gt : extendedFloat.gt = Extended.gt := rfl

/-- What admission should make sure of. -/
def Sane (deref : P → Task) (tasks : ℕ → P) (n : ℕ) : Prop :=
  (∀ i < n, (deref (tasks i)).T ≠ 0) ∧ totalUtilization deref tasks n ≤ 1

/-- The entry at index `p` is the first without a period. -/
def FirstWithoutPeriod (deref : P → Task) (tasks : ℕ → P) (p : ℕ) : Prop :=
  (deref (tasks p)).T = 0 ∧ ∀ q < p, (deref (tasks q)).T ≠ 0

/-- If there is a task without a period, the first one has an execution or a blocking time. -/
def FirstCharged (deref : P → Task) (tasks : ℕ → P) (n : ℕ) : Prop :=
  ∀ p < n, FirstWithoutPeriod deref tasks p →
    (deref (tasks p)).C ≠ 0 ∨ (deref (tasks p)).B ≠ 0

/-! ### Where the loops leave the first task without a period -/

/-- The inner loop carries the first task without a period to index 0. -/
theorem innerLoop_first (first : FirstWithoutPeriod deref tasks p) (inside : p ≤ i) :
    innerLoop deref i tasks 0 = tasks p := by
  induction i generalizing tasks p with
  | zero =>
    obtain rfl : p = 0 := by omega
    rfl
  | succ i ih =>
    obtain ⟨zero, earlier⟩ := first
    rw [innerLoop]
    rcases Nat.lt_or_ge i p with last | below
    · -- it is being carried, and passes the entry below it
      obtain rfl : p = i + 1 := by omega
      have less : (deref (tasks (i + 1))).T < (deref (tasks i)).T := by
        rw [zero]
        exact UInt32.pos_iff_ne_zero.mpr (earlier i (by omega))
      have moved : compareSwap deref tasks i i = tasks (i + 1) := by
        rw [compareSwap, if_pos less, Function.update_self]
      rw [← moved]
      refine ih ⟨by rw [moved, zero], fun q before => ?_⟩ le_rfl
      rw [compareSwap_of_ne (by omega) (by omega)]
      exact earlier q (by omega)
    · have kept : ∀ q ≤ p, compareSwap deref tasks i q = tasks q := by
        intro q before
        rcases Nat.lt_or_ge q i with low | high
        · exact compareSwap_of_ne (by omega) (by omega)
        · -- the entry above has no shorter period
          obtain rfl : q = i := by omega
          obtain rfl : p = q := by omega
          rw [compareSwap, if_neg]
          rw [zero]
          exact UInt32.not_lt_zero
      rw [← kept p le_rfl]
      refine ih ⟨by rw [kept p le_rfl, zero], fun q before => ?_⟩ below
      rw [kept q before.le]
      exact earlier q before

/-- Later passes leave it there. -/
theorem sortTasks_first (first : FirstWithoutPeriod deref tasks p) (inside : p < n) :
    sortTasks deref n tasks 0 = tasks p := by
  induction n generalizing tasks p with
  | zero => omega
  | succ n ih =>
    have carried : innerLoop deref n tasks 0 = tasks p := innerLoop_first first (by omega)
    rw [sortTasks]
    rcases Nat.eq_zero_or_pos n with rfl | more
    · exact carried
    · rw [← carried]
      exact ih ⟨by rw [carried, first.1], fun q before => absurd before (by omega)⟩ more

/-! ### The test with special values -/

/-- No test fails once the sum is not a number. -/
theorem ubTest_nan : ubTest extendedFloat deref s m i .nan = true := by
  induction m generalizing i with
  | zero => rfl
  | succ m ih =>
    rw [ubTest]
    simp [ih]

/-- The test when the first task has no period. -/
theorem ubTest_first (zero : (deref (s 0)).T = 0) (more : 0 < n) :
    ubTest extendedFloat deref s n 0 (extendedFloat.ofDecimal 0) = true ↔
      (deref (s 0)).C = 0 ∧ (deref (s 0)).B = 0 := by
  obtain ⟨m, rfl⟩ : ∃ m, n = m + 1 := ⟨n - 1, by omega⟩
  have cost : ((deref (s 0)).C.toNat + (deref (s 0)).B.toNat : ℚ≥0) = 0 ↔
      (deref (s 0)).C = 0 ∧ (deref (s 0)).B = 0 := by
    rw [← Nat.cast_add, Nat.cast_eq_zero, Nat.add_eq_zero_iff, ← UInt32.toNat_zero,
      UInt32.toNat_inj, UInt32.toNat_inj]
  rw [ubTest]
  simp only [extendedFloat_ofUnsigned, extendedFloat_ofDecimal, extendedFloat_add,
    extendedFloat_div, extendedFloat_gt, zero, UInt32.toNat_zero, Nat.cast_zero,
    Extended.finite_div_zero, Extended.finite_add_finite, cost]
  by_cases idle : (deref (s 0)).C = 0 ∧ (deref (s 0)).B = 0
  · simp [idle, ubTest_nan]
  · simp [idle]

/-- Where every task has a period, no special value arises. -/
theorem ubTest_extendedFloat (periods : ∀ j < m, (deref (s (i + j))).T ≠ 0) :
    ubTest extendedFloat deref s m i (.finite u) = ubTest exactFloat deref s m i u := by
  induction m generalizing i u with
  | zero => rfl
  | succ m ih =>
    have period : ((deref (s i)).T.toNat : ℚ≥0) ≠ 0 := by
      rw [Nat.cast_ne_zero, ← UInt32.toNat_zero, Ne, UInt32.toNat_inj]
      exact periods 0 (by omega)
    have later (v : ℚ≥0) := ih (i := i + 1) (u := v) fun j inside => by
      have next := periods (j + 1) (by omega)
      rwa [show i + 1 + j = i + (j + 1) by omega]
    rw [ubTest, ubTest]
    simp only [extendedFloat_ofUnsigned, extendedFloat_ofDecimal, extendedFloat_add,
      extendedFloat_div, extendedFloat_gt, Extended.finite_div_finite period,
      Extended.finite_add_finite, Extended.finite_gt_finite, later]
    simp only [exactFloat, NNRat.cast_add, NNRat.cast_div, NNRat.cast_natCast,
      NNRat.cast_ofNat]
    rfl

/-! ### The verdict -/

/-- A set with a task without a period is accepted exactly if the first such task is idle. -/
theorem assignSchedule_of_first (first : FirstWithoutPeriod deref tasks p) (inside : p < n) :
    (assignSchedule extendedFloat deref tasks n).1 = true ↔
      (deref (tasks p)).C = 0 ∧ (deref (tasks p)).B = 0 := by
  have front := sortTasks_first first inside
  rw [← front]
  exact ubTest_first (by rw [front, first.1]) (by omega)

/-- With periods the verdict is the test of exact arithmetic. -/
theorem assignSchedule_of_periods (periods : ∀ i < n, (deref (tasks i)).T ≠ 0) :
    (assignSchedule extendedFloat deref tasks n).1 = true ↔
      UBTest deref (sortTasks deref n tasks) n := by
  have perm := listing_sortTasks_perm deref tasks n
  have sorted : ∀ j < n, (deref (sortTasks deref n tasks (0 + j))).T ≠ 0 := by
    intro j below
    rw [Nat.zero_add]
    obtain ⟨i, inside, same⟩ := mem_listing.mp (perm.mem_iff.mp (mem_listing.mpr ⟨j, below, rfl⟩))
    exact same ▸ periods i inside
  have exact := ubTest_extendedFloat (u := 0) sorted
  rw [NNRat.cast_zero] at exact
  simp only [assignSchedule, extendedFloat_ofDecimal, Nat.cast_zero, zero_div, exact, ubTest_iff]

theorem tableBound_le_one (inside : i < Config.osAvailTasks) : tableBound i ≤ 1 :=
  tableBound_zero ▸ tableBound_antitone (Nat.zero_le i) inside

/-- The last test is on at least the total utilisation. -/
theorem UBTest.totalUtilization_le (test : UBTest deref s n) (bound : n ≤ Config.osAvailTasks) :
    totalUtilization deref s n ≤ 1 := by
  rcases Nat.eq_zero_or_pos n with rfl | positive
  · simp [totalUtilization]
  · obtain ⟨m, rfl⟩ : ∃ m, n = m + 1 := ⟨n - 1, by omega⟩
    have share : utilization deref (s m) ≤ blockedShare deref (s m) := by
      unfold utilization blockedShare
      gcongr
      exact le_add_of_nonneg_right (Nat.cast_nonneg _)
    calc totalUtilization deref s (m + 1)
        = ∑ i ∈ Finset.range m, utilization deref (s i) + utilization deref (s m) :=
          Finset.sum_range_succ _ m
      _ ≤ ∑ i ∈ Finset.range m, utilization deref (s i) + blockedShare deref (s m) := by gcongr
      _ ≤ tableBound m := test m m.lt_succ_self
      _ ≤ 1 := tableBound_le_one (by omega)

/-- A task without a period has a first one before it, or is the first. -/
theorem exists_firstWithoutPeriod (zero : (deref (tasks i)).T = 0) :
    ∃ p ≤ i, FirstWithoutPeriod deref tasks p := by
  classical
  have some_zero : ∃ p, (deref (tasks p)).T = 0 := ⟨i, zero⟩
  exact ⟨Nat.find some_zero, Nat.find_min' some_zero zero, Nat.find_spec some_zero,
    fun q before => Nat.find_min some_zero before⟩

/-- Accepted sets are sane exactly if the first task without a period has a cost. -/
theorem assignSchedule_sane_iff (bound : n ≤ Config.osAvailTasks) :
    ((assignSchedule extendedFloat deref tasks n).1 = true → Sane deref tasks n) ↔
      FirstCharged deref tasks n := by
  constructor
  · intro sane p inside first
    by_contra idle
    rw [not_or, not_not, not_not] at idle
    have accepted := (assignSchedule_of_first first inside).mpr idle
    exact (sane accepted).1 p inside first.1
  · intro charged accepted
    have periods : ∀ i < n, (deref (tasks i)).T ≠ 0 := by
      intro i inside zero
      obtain ⟨p, before, first⟩ := exists_firstWithoutPeriod zero
      have idle := (assignSchedule_of_first first (by omega)).mp accepted
      rcases charged p (by omega) first with cost | blocking
      · exact cost idle.1
      · exact blocking idle.2
    refine ⟨periods, ?_⟩
    have test := (assignSchedule_of_periods periods).mp accepted
    rw [← totalUtilization_perm (listing_sortTasks_perm deref tasks n)]
    exact test.totalUtilization_le bound

theorem assignSchedule_sane_swapped : Sane id swappedTasks 2 := by
  have periods : ∀ p < 2, (swappedTasks p).T ≠ 0 := by decide
  have charged : FirstCharged id swappedTasks 2 := fun p inside first =>
    absurd first.1 (periods p inside)
  exact (assignSchedule_sane_iff (by decide)).mpr charged (by decide +kernel)

/-! ### An accepted set that is not sane -/

/-- A task without a period or a cost, and one that asks for the processor 1000 times over. -/
def idleTasks : ℕ → Task
  | 0 => ⟨0, 0, 0, 0, 0, 0⟩
  | _ => ⟨0, 0, 0, 1000, 1, 0⟩

/-- The general statement fails: after the first share, which is not a number, no test fails. -/
theorem assignSchedule_admits_insane :
    ¬ ∀ (tasks : ℕ → Task) (n : ℕ), n ≤ Config.osAvailTasks →
      (assignSchedule extendedFloat id tasks n).1 = true → Sane id tasks n := by
  intro sane
  have accepted : (assignSchedule extendedFloat id idleTasks 2).1 = true := by decide +kernel
  exact (sane idleTasks 2 (by decide) accepted).1 0 (by decide) rfl

end Gravel
