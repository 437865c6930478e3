import Gravel.Admission.RateMonotonic
import Mathlib.Algebra.BigOperators.Group.Finset.Piecewise
import Mathlib.Algebra.Order.BigOperators.Group.Finset
import Mathlib.Tactic.Positivity
import Mathlib.Tactic.FieldSimp

/-!
# The verdict of `assign_schedule`

With exact arithmetic the verdict is the utilisation bound test with blocking along the
order the loops leave. It is the test along the order by period for nearly sorted arrays.
For any other array of distinct periods there are costs for which it is not.

## Main definitions

* `UBTest` — the test along an order
* `VerdictExact` — the verdict is the test along the order by period
* `withCosts` — the same tasks with other execution and blocking times

## Main results

* `assignSchedule_verdict` — the verdict is the test along the order that is left
* `verdictExact_iff` — the arrays on which the verdict is exact for all costs
* `assignSchedule_misjudges` — an array on which it is not
-/

namespace Gravel

open Library

variable {P : Type*} {deref : P → Task} {tasks s s' : ℕ → P} {n i j k m : ℕ}

/-- An entry of the table, as the decimal it is written as. -/
def tableBound (k : ℕ) : ℚ := boundTable.getD k 0 / 10000

def utilization (deref : P → Task) (p : P) : ℚ := (deref p).C.toNat / (deref p).T.toNat

/-- The share of a task's period taken by its execution and by blocking. -/
def blockedShare (deref : P → Task) (p : P) : ℚ :=
  ((deref p).C.toNat + (deref p).B.toNat) / (deref p).T.toNat

/-- The utilisation bound test with blocking along an order. -/
def UBTest (deref : P → Task) (s : ℕ → P) (n : ℕ) : Prop :=
  ∀ k < n, ∑ i ∈ Finset.range k, utilization deref (s i) + blockedShare deref (s k) ≤ tableBound k

/-- The test loop, from any index and any utilisation so far. -/
theorem ubTest_exactFloat (total : ℚ) :
    ubTest exactFloat deref s m i total = true ↔
      ∀ k < m, total + ∑ j ∈ Finset.range k, utilization deref (s (i + j)) +
        blockedShare deref (s (i + k)) ≤ tableBound (i + k) := by
  induction m generalizing i total with
  | zero => simp [ubTest]
  | succ m ih =>
    have first : exactFloat.gt (exactFloat.add total (exactFloat.div
        (exactFloat.add (exactFloat.ofUnsigned (deref (s i)).C)
          (exactFloat.ofUnsigned (deref (s i)).B)) (exactFloat.ofUnsigned (deref (s i)).T)))
        (exactFloat.ofDecimal (boundTable.getD i 0)) = true ↔
          ¬ total + blockedShare deref (s i) ≤ tableBound i := by
      simp [exactFloat, blockedShare, tableBound]
    have next : exactFloat.add total (exactFloat.div (exactFloat.ofUnsigned (deref (s i)).C)
        (exactFloat.ofUnsigned (deref (s i)).T)) = total + utilization deref (s i) := rfl
    unfold ubTest
    simp only [first, next]
    by_cases passes : total + blockedShare deref (s i) ≤ tableBound i
    · rw [if_neg (not_not.mpr passes), ih]
      constructor
      · intro rest k below
        cases k with
        | zero => simpa using passes
        | succ k =>
          have step := rest k (by omega)
          rw [Finset.sum_range_succ']
          simpa [add_assoc, add_comm, add_left_comm] using step
      · intro all k below
        have step := all (k + 1) (by omega)
        rw [Finset.sum_range_succ'] at step
        simpa [add_assoc, add_comm, add_left_comm] using step
    · rw [if_pos passes]
      refine iff_of_false (by simp) fun all => passes ?_
      simpa using all 0 (by omega)

theorem ubTest_iff : ubTest exactFloat deref s n 0 0 = true ↔ UBTest deref s n := by
  simp only [ubTest_exactFloat, UBTest, zero_add]

instance : Decidable (UBTest deref s n) := decidable_of_iff _ ubTest_iff

/-- With exact arithmetic the verdict is the test along the order that is left. -/
theorem assignSchedule_verdict :
    (assignSchedule exactFloat deref tasks n).1 = true ↔
      UBTest deref (sortTasks deref n tasks) n := by
  have zero : exactFloat.ofDecimal 0 = 0 := by simp [exactFloat]
  simp only [assignSchedule, zero, ubTest_iff]

/-! ### Nearly sorted arrays -/

/-- The verdict on the array is the test along its order by period. -/
def VerdictExact (deref : P → Task) (tasks : ℕ → P) (n : ℕ) : Prop :=
  ∀ s, RateOrder deref tasks s n →
    ((assignSchedule exactFloat deref tasks n).1 = true ↔ UBTest deref s n)

/-- No two tasks of the array have the same period. -/
def DistinctPeriods (deref : P → Task) (tasks : ℕ → P) (n : ℕ) : Prop :=
  ∀ i j, i < j → j < n → period deref (tasks j) ≠ period deref (tasks i)

instance : Decidable (DistinctPeriods deref tasks n) :=
  decidable_of_iff (∀ j < n, ∀ i < j, period deref (tasks j) ≠ period deref (tasks i))
    ⟨fun all i j less below => all j below i less, fun all j below i less => all i j less below⟩

theorem DistinctPeriods.perm (distinct : DistinctPeriods deref tasks n)
    (perm : (listing s n).Perm (listing tasks n)) : DistinctPeriods deref s n := by
  have listed : (listing tasks n).Pairwise (fun x y => period deref x ≠ period deref y) :=
    pairwise_listing.mpr distinct
  have listed' : (listing s n).Pairwise (fun x y => period deref x ≠ period deref y) :=
    perm.symm.pairwise listed fun h => h.symm
  rw [pairwise_listing] at listed'
  exact listed'

theorem listing_inj (same : listing s n = listing s' n) (inside : i < n) : s i = s' i := by
  induction n with
  | zero => omega
  | succ n ih =>
    obtain ⟨last, rest⟩ := List.cons.inj same
    rcases Nat.lt_succ_iff_lt_or_eq.mp inside with lower | rfl
    · exact ih rest lower
    · exact last

/-- With distinct periods there is one order by period. -/
theorem RateOrder.unique (distinct : DistinctPeriods deref tasks n)
    (ordered : RateOrder deref tasks s n) (ordered' : RateOrder deref tasks s' n) (inside : i < n) :
    s i = s' i := by
  refine listing_inj (List.Perm.eq_of_pairwise ?_ ordered.descending ordered'.descending
    (ordered.perm.trans ordered'.perm.symm)) inside
  intro x y hx hy below above
  obtain ⟨i, hi, rfl⟩ := mem_listing.mp (ordered.perm.mem_iff.mp hx)
  obtain ⟨j, hj, rfl⟩ := mem_listing.mp (ordered'.perm.mem_iff.mp hy)
  rcases Nat.lt_trichotomy i j with less | rfl | more
  · exact absurd (le_antisymm below above) (distinct i j less hj)
  · rfl
  · exact absurd (le_antisymm above below) (distinct j i more hi)

theorem ubTest_congr (agree : ∀ i < n, s i = s' i) : UBTest deref s n ↔ UBTest deref s' n := by
  refine forall₂_congr fun k below => ?_
  have prefix_sum : ∑ i ∈ Finset.range k, utilization deref (s i) =
      ∑ i ∈ Finset.range k, utilization deref (s' i) :=
    Finset.sum_congr rfl fun i member => by
      rw [agree i ((Finset.mem_range.mp member).trans below)]
  rw [prefix_sum, agree k below]

/-- On a nearly sorted array the verdict is exact. -/
theorem verdictExact_of_nearlySorted (distinct : DistinctPeriods deref tasks n)
    (nearly : NearlySorted deref tasks n) : VerdictExact deref tasks n := by
  intro s ordered
  rw [assignSchedule_verdict]
  exact ubTest_congr fun i inside =>
    (sortTasks_rateOrder_iff.mpr nearly).unique distinct ordered inside

/-! ### Other arrays -/

/-- The same tasks with other execution and blocking times. -/
def withCosts (deref : P → Task) (c b : P → UInt32) (p : P) : Task :=
  { deref p with C := c p, B := b p }

theorem sortTasks_withCosts {c b : P → UInt32} :
    sortTasks (withCosts deref c b) n tasks = sortTasks deref n tasks := by
  have inner (i : ℕ) (tasks : ℕ → P) :
      innerLoop (withCosts deref c b) i tasks = innerLoop deref i tasks := by
    induction i generalizing tasks with
    | zero => rfl
    | succ i ih => exact ih _
  induction n generalizing tasks with
  | zero => rfl
  | succ n ih => rw [sortTasks, sortTasks, inner, ih]

/-- A list, as the array it is a listing of. -/
theorem exists_listing_eq (d : P) (l : List P) : ∃ s, listing s l.length = l := by
  induction l with
  | nil => exact ⟨fun _ => d, rfl⟩
  | cons a l ih =>
    obtain ⟨s, same⟩ := ih
    refine ⟨Function.update s l.length a, ?_⟩
    have below : listing (Function.update s l.length a) l.length = listing s l.length :=
      listing_congr fun p lower => Function.update_of_ne (by omega) _ _
    rw [List.length_cons, listing, Function.update_self, below, same]

/-- Every array has an order by period. -/
theorem exists_rateOrder (deref : P → Task) (tasks : ℕ → P) (n : ℕ) :
    ∃ s, RateOrder deref tasks s n := by
  let le (x y : P) : Bool := decide (period deref y ≤ period deref x)
  have perm := List.mergeSort_perm (listing tasks n) le
  have sorted : ((listing tasks n).mergeSort le).Pairwise fun x y => le x y = true :=
    List.pairwise_mergeSort
      (fun a b c h h' => by simp only [le, decide_eq_true_eq] at *; omega)
      (fun a b => by simp only [le, Bool.or_eq_true, decide_eq_true_eq]; omega) _
  obtain ⟨s, same⟩ := exists_listing_eq (tasks 0) ((listing tasks n).mergeSort le)
  rw [perm.length_eq, length_listing] at same
  rw [← same, pairwise_listing] at sorted
  exact ⟨s, same ▸ perm, fun i j less below => of_decide_eq_true (sorted i j less below)⟩

theorem RateOrder.periods_pos (ordered : RateOrder deref tasks s n)
    (positive : ∀ i < n, 1 ≤ period deref (tasks i)) (below : i < n) : 1 ≤ period deref (s i) := by
  obtain ⟨j, inside, same⟩ := mem_listing.mp
    (ordered.perm.mem_iff.mp (mem_listing.mpr ⟨i, below, rfl⟩))
  exact same ▸ positive j inside

/-! ### The table -/

theorem tableBound_antitone (less : i ≤ k) (inside : k < Config.osAvailTasks) :
    tableBound k ≤ tableBound i := by
  have table : ∀ k < Config.osAvailTasks, ∀ i < k + 1,
      boundTable.getD k 0 ≤ boundTable.getD i 0 := by decide +kernel
  have entries : (boundTable.getD k 0 : ℚ) ≤ boundTable.getD i 0 := by
    exact_mod_cast table k inside i (by omega)
  exact div_le_div_of_nonneg_right entries (by norm_num)

theorem half_le_tableBound (inside : k < Config.osAvailTasks) : 1 / 2 ≤ tableBound k := by
  have table : ∀ k < Config.osAvailTasks, 5000 ≤ boundTable.getD k 0 := by decide +kernel
  have entry : (5000 : ℚ) ≤ boundTable.getD k 0 := by exact_mod_cast table k inside
  rw [tableBound, le_div_iff₀ (by norm_num)]
  linarith

theorem tableBound_zero : tableBound 0 = 1 := by norm_num [tableBound, boundTable]

theorem tableBound_lt_one (positive : 0 < k) (inside : k < Config.osAvailTasks) :
    tableBound k < 1 := by
  have table : ∀ k < Config.osAvailTasks, 0 < k → boundTable.getD k 0 < 10000 := by
    decide +kernel
  have entry : (boundTable.getD k 0 : ℚ) < 10000 := by exact_mod_cast table k inside positive
  rw [tableBound, div_lt_iff₀ (by norm_num)]
  linarith

/-! ### Costs that expose a wrong order -/

theorem DistinctPeriods.eq_iff (distinct : DistinctPeriods deref s n) (hi : i < n) (hj : j < n) :
    period deref (s i) = period deref (s j) ↔ i = j := by
  constructor
  · intro same
    rcases Nat.lt_trichotomy i j with less | rfl | more
    · exact absurd same.symm (distinct i j less hj)
    · rfl
    · exact absurd same (distinct j i more hi)
  · rintro rfl
    rfl

/-- Execution time `A` for the task `y` and blocking time `B` for the task `x`, and none for
any other. -/
def charge (deref : P → Task) (y x : P) (A B : UInt32) : P → Task :=
  withCosts deref (fun p => if period deref p = period deref y then A else 0)
    (fun p => if period deref p = period deref x then B else 0)

/-- What the test at index `k` compares when only two tasks have costs. -/
theorem charge_total {a b : ℕ} {A B : UInt32} (distinct : DistinctPeriods deref s n) (ha : a < n)
    (hb : b < n) (hk : k < n) :
    ∑ i ∈ Finset.range k, utilization (charge deref (s a) (s b) A B) (s i) +
        blockedShare (charge deref (s a) (s b) A B) (s k) =
      (if a ≤ k then (A.toNat : ℚ) / period deref (s a) else 0) +
        if k = b then (B.toNat : ℚ) / period deref (s b) else 0 := by
  have shares (i : ℕ) (member : i ∈ Finset.range k) :
      utilization (charge deref (s a) (s b) A B) (s i) =
        if i = a then (A.toNat : ℚ) / period deref (s a) else 0 := by
    have inside : i < n := (Finset.mem_range.mp member).trans hk
    simp only [utilization, charge, withCosts, distinct.eq_iff inside ha]
    split
    · rename_i same
      rw [same]
      rfl
    · simp
  have last : blockedShare (charge deref (s a) (s b) A B) (s k) =
      (if k = a then (A.toNat : ℚ) / period deref (s a) else 0) +
        if k = b then (B.toNat : ℚ) / period deref (s b) else 0 := by
    simp only [blockedShare, charge, withCosts, distinct.eq_iff hk ha, distinct.eq_iff hk hb,
      add_div]
    congr 1
    · split
      · rename_i same
        rw [same]
        rfl
      · simp
    · split
      · rename_i same
        rw [same]
        rfl
      · simp
  rw [Finset.sum_congr rfl shares, Finset.sum_ite_eq', last, ← add_assoc]
  congr 1
  by_cases earlier : a < k
  · simp [earlier, earlier.le, earlier.ne']
  · by_cases same : k = a
    · simp [same]
    · have later : ¬ a ≤ k := by omega
      simp [earlier, same, later]

/-- Above the last index at which two arrays differ, both agree. -/
theorem exists_last_difference (differs : ∃ i < n, s' i ≠ s i) :
    ∃ b < n, s' b ≠ s b ∧ ∀ i < n, b < i → s' i = s i := by
  classical
  obtain ⟨i, below, different⟩ := differs
  let difference := (Finset.range n).filter fun i => s' i ≠ s i
  have nonempty : difference.Nonempty := ⟨i, by simp [difference, below, different]⟩
  obtain ⟨b, member, greatest⟩ := difference.exists_max_image id nonempty
  obtain ⟨inside, last⟩ := Finset.mem_filter.mp member
  refine ⟨b, Finset.mem_range.mp inside, last, fun i below later => ?_⟩
  by_contra different
  exact absurd (greatest i (by simp [difference, below, different])) (not_le.mpr later)

/-- A task that an array has at index `b`, and the order by period does not, stands lower in
that order when both agree above `b`. -/
theorem exists_lower {b : ℕ} (distinct : DistinctPeriods deref s' n)
    (perm : (listing s n).Perm (listing s' n)) (hb : b < n) (different : s' b ≠ s b)
    (above : ∀ i < n, b < i → s' i = s i) : ∃ a < b, s a = s' b := by
  obtain ⟨a, ha, same⟩ := mem_listing.mp (perm.mem_iff.mpr (mem_listing.mpr ⟨b, hb, rfl⟩))
  refine ⟨a, ?_, same⟩
  rcases Nat.lt_trichotomy a b with less | rfl | more
  · exact less
  · exact absurd same.symm different
  · rw [← above a ha more] at same
    exact absurd (congrArg (period deref) same) (distinct b a more ha)

/-- The test when only two tasks have costs. -/
theorem ubTest_charge {a b : ℕ} {A B : UInt32} (distinct : DistinctPeriods deref s n) (ha : a < n)
    (hb : b < n) :
    UBTest (charge deref (s a) (s b) A B) s n ↔ ∀ k < n,
      (if a ≤ k then (A.toNat : ℚ) / period deref (s a) else 0) +
        (if k = b then (B.toNat : ℚ) / period deref (s b) else 0) ≤ tableBound k :=
  forall₂_congr fun k below => by rw [charge_total distinct ha hb below]

/-- The largest blocking time that a task alone can have at index `i`. -/
def fullBlocking (i T : ℕ) : UInt32 := UInt32.ofNat (boundTable.getD i 0 * T / 10000)

theorem fullBlocking_bounds {T : ℕ} (inside : i < Config.osAvailTasks) (positive : 0 < T)
    (small : T < 2 ^ 32) :
    ((fullBlocking i T).toNat : ℚ) / T ≤ tableBound i ∧
      tableBound i < ((fullBlocking i T).toNat : ℚ) / T + 1 / T := by
  have atMost : boundTable.getD i 0 ≤ 10000 := by
    have table : ∀ k < Config.osAvailTasks, boundTable.getD k 0 ≤ 10000 := by decide +kernel
    exact table i inside
  have fits : boundTable.getD i 0 * T / 10000 < 2 ^ 32 := by
    have : boundTable.getD i 0 * T ≤ 10000 * T := Nat.mul_le_mul_right _ atMost
    omega
  have value : (fullBlocking i T).toNat = boundTable.getD i 0 * T / 10000 :=
    UInt32.toNat_ofNat_of_lt' fits
  have below : ((boundTable.getD i 0 * T / 10000 : ℕ) : ℚ) * 10000 ≤ boundTable.getD i 0 * T := by
    exact_mod_cast Nat.div_mul_le_self _ _
  have above : (boundTable.getD i 0 * T : ℚ) <
      (((boundTable.getD i 0 * T / 10000 : ℕ) : ℚ) + 1) * 10000 := by
    exact_mod_cast Nat.lt_mul_of_div_lt (Nat.lt_succ_self _) (by decide)
  have positive' : (0 : ℚ) < T := by exact_mod_cast positive
  rw [value, tableBound, ← add_div, div_le_div_iff₀ positive' (by norm_num),
    div_lt_div_iff₀ (by norm_num) positive']
  exact ⟨by linarith, by linarith⟩

/-- A task of period 1 stands first by period, and any cost is too much for it elsewhere. -/
theorem exists_costs_of_one {b : ℕ} (distinct : DistinctPeriods deref s n)
    (distinct' : DistinctPeriods deref s' n) (bound : n ≤ Config.osAvailTasks) (hb : b < n)
    (elsewhere : 0 < b) (hy : s 0 = s' b) (one : period deref (s 0) = 1) :
    ∃ c d, ¬ (UBTest (withCosts deref c d) s' n ↔ UBTest (withCosts deref c d) s n) := by
  have passes : UBTest (charge deref (s 0) (s 0) 0 1) s n := by
    rw [ubTest_charge distinct (elsewhere.trans hb) (elsewhere.trans hb), one]
    intro k below
    have half := half_le_tableBound (lt_of_lt_of_le below bound)
    by_cases start : k = 0
    · simp [start, tableBound_zero]
    · simp only [UInt32.toNat_zero, Nat.cast_zero, zero_div, ite_self, if_neg start, add_zero]
      linarith
  have fails : ¬ UBTest (charge deref (s' b) (s' b) 0 1) s' n := by
    rw [ubTest_charge distinct' hb hb, ← hy, one]
    intro all
    have test := all b hb
    have less := tableBound_lt_one elsewhere (lt_of_lt_of_le hb bound)
    simp at test
    linarith
  rw [← hy] at fails
  exact ⟨_, _, fun same => fails (same.mpr passes)⟩

/-- A task `x` at a lower index may block for longer than at its own. -/
theorem exists_costs_of_two {a b i : ℕ} (distinct : DistinctPeriods deref s n)
    (distinct' : DistinctPeriods deref s' n) (bound : n ≤ Config.osAvailTasks)
    (small : period deref (s b) < 2 ^ 32) (hb : b < n) (hab : a < b) (hib : i < b)
    (hy : s a = s' b) (hx : s b = s' i) (two : 2 ≤ period deref (s a))
    (shorter : period deref (s a) < period deref (s b)) :
    ∃ c d, ¬ (UBTest (withCosts deref c d) s' n ↔ UBTest (withCosts deref c d) s n) := by
  have inside (k : ℕ) (below : k < n) : k < Config.osAvailTasks := lt_of_lt_of_le below bound
  obtain ⟨fits, full⟩ :=
    fullBlocking_bounds (inside i (hib.trans hb)) (by omega : 0 < period deref (s b)) small
  have two' : (2 : ℚ) ≤ period deref (s a) := by exact_mod_cast two
  have shorter' : (period deref (s a) : ℚ) < period deref (s b) := by exact_mod_cast shorter
  let B := fullBlocking i (period deref (s b))
  have passes : UBTest (charge deref (s' b) (s' i) 1 B) s' n := by
    rw [ubTest_charge distinct' hb (hib.trans hb), ← hy, ← hx]
    intro k below
    have execution : ((1 : UInt32).toNat : ℚ) / period deref (s a) ≤ 1 / 2 := by
      rw [UInt32.toNat_one, Nat.cast_one, div_le_div_iff₀ (by linarith) (by norm_num)]
      linarith
    have half := half_le_tableBound (inside k below)
    by_cases blocked : k = i
    · rw [if_neg (by omega), if_pos blocked, zero_add, blocked]
      exact fits
    · rw [if_neg blocked, add_zero]
      split <;> linarith
  have fails : ¬ UBTest (charge deref (s a) (s b) 1 B) s n := by
    rw [ubTest_charge distinct (hab.trans hb) hb]
    intro all
    have test := all b hb
    have lower := tableBound_antitone hib.le (inside b hb)
    -- In the order by period `y` comes before `x`, whose blocking then exceeds the smaller entry.
    have share : 1 / (period deref (s b) : ℚ) < 1 / period deref (s a) :=
      one_div_lt_one_div_of_lt (by linarith) shorter'
    rw [if_pos hab.le, if_pos rfl, UInt32.toNat_one, Nat.cast_one] at test
    linarith
  rw [← hy, ← hx] at passes
  exact ⟨_, _, fun same => fails (same.mp passes)⟩

/-- On an array the loops leave out of order the verdict is wrong for some costs. -/
theorem exists_costs (distinct : DistinctPeriods deref tasks n) (bound : n ≤ Config.osAvailTasks)
    (positive : ∀ i < n, 1 ≤ period deref (tasks i)) (nearly : ¬ NearlySorted deref tasks n) :
    ∃ c d, ¬ VerdictExact (withCosts deref c d) tasks n := by
  obtain ⟨s, ordered⟩ := exists_rateOrder deref tasks n
  have distinctOrder := distinct.perm ordered.perm
  have distinctLeft := distinct.perm (listing_sortTasks_perm deref tasks n)
  have perm := ordered.perm.trans (listing_sortTasks_perm deref tasks n).symm
  have differs : ∃ i < n, sortTasks deref n tasks i ≠ s i := by
    by_contra! same
    refine nearly (sortTasks_rateOrder_iff.mp
      ⟨listing_sortTasks_perm deref tasks n, fun i j less below => ?_⟩)
    rw [same i (less.trans below), same j below]
    exact ordered.order i j less below
  obtain ⟨b, hb, different, above⟩ := exists_last_difference differs
  obtain ⟨a, hab, hy⟩ := exists_lower distinctLeft perm hb different above
  obtain ⟨i, hib, hx⟩ := exists_lower distinctOrder perm.symm hb (Ne.symm different)
    fun i below later => (above i below later).symm
  have shorter : period deref (s a) < period deref (s b) :=
    lt_of_le_of_ne (ordered.order a b hab hb) (distinctOrder a b hab hb).symm
  have disagree : ∃ c d, ¬ (UBTest (withCosts deref c d) (sortTasks deref n tasks) n ↔
      UBTest (withCosts deref c d) s n) := by
    -- A period of 1 leaves no room for two tasks with costs; one cost is enough then.
    rcases Nat.eq_or_lt_of_le (ordered.periods_pos positive (hab.trans hb)) with one | two
    · have first : a = 0 := by
        by_contra later
        have less := distinctOrder 0 a (by omega) (hab.trans hb)
        have := ordered.order 0 a (by omega) (hab.trans hb)
        have := ordered.periods_pos positive (show 0 < n by omega)
        omega
      subst first
      exact exists_costs_of_one distinctOrder distinctLeft bound hb hab hy one.symm
    · exact exists_costs_of_two distinctOrder distinctLeft bound (UInt32.toNat_lt _) hb hab hib hy
        hx.symm two shorter
  obtain ⟨c, d, disagree⟩ := disagree
  refine ⟨c, d, fun exact => disagree ?_⟩
  rw [← exact s ⟨ordered.perm, ordered.order⟩, assignSchedule_verdict, sortTasks_withCosts]

/-- For tasks of distinct periods the verdict is, whatever their costs, the test along the
order by period exactly when the array is nearly sorted. -/
theorem verdictExact_iff (bound : n ≤ Config.osAvailTasks)
    (positive : ∀ i < n, 1 ≤ period deref (tasks i)) (distinct : DistinctPeriods deref tasks n) :
    (∀ c b, VerdictExact (withCosts deref c b) tasks n) ↔ NearlySorted deref tasks n := by
  constructor
  · intro exact
    by_contra nearly
    obtain ⟨c, d, wrong⟩ := exists_costs distinct bound positive nearly
    exact wrong (exact c d)
  · intro nearly c b
    have distinct' : DistinctPeriods (withCosts deref c b) tasks n := distinct
    exact verdictExact_of_nearlySorted distinct' nearly

theorem verdictExact_swapped :
    VerdictExact (withCosts id (fun _ => 64) (fun _ => 0)) swappedTasks 3 :=
  (verdictExact_iff (by decide) (by decide) (by decide)).mpr (by decide) _ _

/-! ### An accepted set that the test rejects -/

/-- Three tasks by decreasing period, the longest of which can be blocked. -/
def blockedTasks : ℕ → Task
  | 0 => ⟨0, 0, 0, 16, 256, 100⟩
  | 1 => ⟨0, 0, 0, 16, 128, 0⟩
  | _ => ⟨0, 0, 0, 16, 64, 0⟩

/-- The general statement fails: the blocked task is tested at index 1, where it passes, and
by its period it stands at index 2, where it does not. -/
theorem assignSchedule_misjudges :
    ¬ ∀ (tasks : ℕ → Task) (n : ℕ), n ≤ Config.osAvailTasks →
      (∀ i < n, 1 ≤ period id (tasks i)) → DistinctPeriods id tasks n →
        VerdictExact id tasks n := by
  intro exact
  let sorted (i : ℕ) : Task := blockedTasks (2 - i)
  have order : ∀ j < 3, ∀ i < j, period id (sorted i) ≤ period id (sorted j) := by decide
  have ordered : RateOrder id blockedTasks sorted 3 :=
    ⟨by decide, fun i j less below => order j below i less⟩
  have accepts : (assignSchedule exactFloat id blockedTasks 3).1 = true := by decide +kernel
  have passes :=
    (exact blockedTasks 3 (by decide) (by decide) (by decide) sorted ordered).mp accepts
  exact absurd passes (by decide +kernel)

end Gravel
