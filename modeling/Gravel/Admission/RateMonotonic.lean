import Gravel.Library.ShrinkingBubble
import Gravel.Scheduling.Launch

/-!
# The order `assign_schedule` leaves

The two loops of `assign_schedule` are meant to sort the tasks by period. The inner loop
carries the shortest period to the front, but the outer loop shrinks the range at the
other end. The result is a permutation, and it is sorted for some arrays only.

## Main definitions

* `listing` — the array, from its last index down
* `RateOrder` — the entries of an array by nondecreasing period
* `RateMonotonic` — that order, and the priorities `allocate_tasks` makes of it
* `NearlySorted` — at every task, the shorter periods after it are at most one more than
  the others

## Main results

* `listing_sortTasks` — the loops are `shrinkSort` on the listing
* `assignSchedule_rateMonotonic_iff` — exactly the nearly sorted arrays become sorted
* `assignSchedule_misorders` — an accepted array that does not
-/

namespace Gravel

open Library

variable {P : Type*} {F : Type} {fl : FloatOps F} {deref : P → Task} {tasks tasks' : ℕ → P}
  {n i p : ℕ}

/-- The first `n` entries of an array, from the last one down. -/
def listing (tasks : ℕ → P) : ℕ → List P
  | 0 => []
  | n + 1 => tasks n :: listing tasks n

/-- The period of a task. -/
def period (deref : P → Task) (p : P) : ℕ := (deref p).T.toNat

@[simp] theorem length_listing : (listing tasks n).length = n := by
  induction n with
  | zero => rfl
  | succ n ih => simp [listing, ih]

theorem listing_congr (agree : ∀ p < n, tasks p = tasks' p) :
    listing tasks n = listing tasks' n := by
  induction n with
  | zero => rfl
  | succ n ih =>
    rw [listing, listing, agree n n.lt_succ_self, ih fun p below => agree p (by omega)]

theorem mem_listing {x : P} : x ∈ listing tasks n ↔ ∃ p < n, tasks p = x := by
  induction n with
  | zero => simp [listing]
  | succ n ih =>
    rw [listing, List.mem_cons, ih]
    constructor
    · rintro (rfl | ⟨p, below, rfl⟩)
      · exact ⟨n, n.lt_succ_self, rfl⟩
      · exact ⟨p, by omega, rfl⟩
    · rintro ⟨p, below, rfl⟩
      rcases Nat.lt_succ_iff_lt_or_eq.mp below with lower | rfl
      · exact Or.inr ⟨p, lower, rfl⟩
      · exact Or.inl rfl

theorem pairwise_listing {R : P → P → Prop} :
    (listing tasks n).Pairwise R ↔ ∀ i j, i < j → j < n → R (tasks j) (tasks i) := by
  induction n with
  | zero => simp [listing]
  | succ n ih =>
    rw [listing, List.pairwise_cons, ih]
    constructor
    · rintro ⟨last, rest⟩ i j less below
      rcases Nat.lt_succ_iff_lt_or_eq.mp below with lower | rfl
      · exact rest i j less lower
      · exact last (tasks i) (mem_listing.mpr ⟨i, less, rfl⟩)
    · intro all
      refine ⟨fun x member => ?_, fun i j less below => all i j less (by omega)⟩
      obtain ⟨i, below, rfl⟩ := mem_listing.mp member
      exact all i n below n.lt_succ_self

/-! ### The loops on the listing -/

theorem compareSwap_of_ne {j : ℕ} (low : p ≠ j) (high : p ≠ j + 1) :
    compareSwap deref tasks j p = tasks p := by
  unfold compareSwap
  split
  · rw [Function.update_of_ne low, Function.update_of_ne high]
  · rfl

theorem innerLoop_above (above : i < p) : innerLoop deref i tasks p = tasks p := by
  induction i generalizing tasks with
  | zero => rfl
  | succ i ih =>
    rw [innerLoop, ih (by omega), compareSwap_of_ne (by omega) (by omega)]

theorem sortTasks_above (above : n ≤ p) : sortTasks deref n tasks p = tasks p := by
  induction n generalizing tasks with
  | zero => rfl
  | succ n ih => rw [sortTasks, ih (by omega), innerLoop_above (by omega)]

/-- The inner loop is one pass over the listing of its range. -/
theorem listing_innerLoop :
    listing (innerLoop deref i tasks) (i + 1) =
      bubble (period deref) (tasks i) (listing tasks i) := by
  induction i generalizing tasks with
  | zero => rfl
  | succ i ih =>
    -- The exchange at `i` decides which entry is carried on; the entries below wait their turn.
    have below : listing (compareSwap deref tasks i) i = listing tasks i :=
      listing_congr fun p lower => compareSwap_of_ne (by omega) (by omega)
    rw [innerLoop, listing, innerLoop_above i.lt_succ_self, ih, below, listing, bubble]
    simp only [period, ← UInt32.lt_iff_toNat_lt]
    unfold compareSwap
    split
    · rw [Function.update_self, Function.update_of_ne (by omega), Function.update_self]
    · rfl

/-- The outer loop passes over a listing that loses its first entry after each pass. -/
theorem listing_sortTasks :
    listing (sortTasks deref n tasks) n = shrinkSort (period deref) n (listing tasks n) := by
  induction n generalizing tasks with
  | zero => rfl
  | succ n ih =>
    -- The index `n` is final after the first pass, as later ones stop below it.
    have pass : listing (innerLoop deref n tasks) (n + 1) =
        bubble (period deref) (tasks n) (listing tasks n) := listing_innerLoop
    rw [listing] at pass
    rw [sortTasks, listing, sortTasks_above le_rfl, ih, listing, shrinkSort_cons pass.symm]

/-! ### The condition, by index -/

/-- At every task, the shorter periods after it are at most one more than the others. -/
def NearlySorted (deref : P → Task) (tasks : ℕ → P) (n : ℕ) : Prop :=
  ∀ p < n,
    ((Finset.range n).filter fun q =>
        p < q ∧ period deref (tasks q) < period deref (tasks p)).card ≤
      1 + ((Finset.range n).filter fun q =>
        p < q ∧ period deref (tasks p) ≤ period deref (tasks q)).card

instance : Decidable (NearlySorted deref tasks n) := inferInstanceAs (Decidable (∀ p < n, _))

/-- What stands before an entry of the listing stands after it in the array. -/
theorem listing_eq_append {u v : List P} {x : P} (split : listing tasks n = u ++ x :: v) :
    v.length < n ∧ x = tasks v.length ∧ ∀ (r : P → Prop) [DecidablePred r],
      u.countP (fun y => r y) =
        ((Finset.range n).filter fun q => v.length < q ∧ r (tasks q)).card := by
  induction u generalizing n with
  | nil =>
    cases n with
    | zero => simp [listing] at split
    | succ n =>
      obtain ⟨rfl, rfl⟩ := List.cons.inj split
      rw [length_listing]
      refine ⟨n.lt_succ_self, rfl, fun r _ => ?_⟩
      rw [List.countP_nil, eq_comm, Finset.card_eq_zero, Finset.filter_eq_empty_iff]
      intro q inside
      have := Finset.mem_range.mp inside
      omega
  | cons a u ih =>
    cases n with
    | zero => simp [listing] at split
    | succ n =>
      obtain ⟨rfl, rest⟩ := List.cons.inj split
      obtain ⟨below, same, counts⟩ := ih rest
      refine ⟨by omega, same, fun r _ => ?_⟩
      rw [List.countP_cons, counts r, Finset.range_add_one, Finset.filter_insert]
      by_cases holds : r (tasks n)
      · simp [holds, below]
      · simp [holds]

theorem exists_listing_eq_append (tasks : ℕ → P) (below : p < n) :
    ∃ u v, listing tasks n = u ++ tasks p :: v ∧ v.length = p := by
  induction n with
  | zero => omega
  | succ n ih =>
    rcases Nat.lt_succ_iff_lt_or_eq.mp below with lower | rfl
    · obtain ⟨u, v, split, length⟩ := ih lower
      exact ⟨tasks n :: u, v, by rw [listing, split, List.cons_append], length⟩
    · exact ⟨[], listing tasks p, rfl, length_listing⟩

theorem fewBelow_listing_iff :
    FewBelow (period deref) (listing tasks n) ↔ NearlySorted deref tasks n := by
  -- A place in the listing is an index, and what precedes it are the later tasks.
  constructor
  · intro few p below
    obtain ⟨u, v, split, length⟩ := exists_listing_eq_append tasks below
    have counts := few u (tasks p) v split
    obtain ⟨-, -, count⟩ := listing_eq_append split
    rwa [count, count, length] at counts
  · intro nearly u x v split
    obtain ⟨below, rfl, count⟩ := listing_eq_append split
    rw [count, count]
    exact nearly v.length below

/-! ### The order by period -/

/-- The array `sorted` has the entries of `tasks`, by nondecreasing period. -/
structure RateOrder (deref : P → Task) (tasks sorted : ℕ → P) (n : ℕ) : Prop where
  perm : (listing sorted n).Perm (listing tasks n)
  order : ∀ i j, i < j → j < n → period deref (sorted i) ≤ period deref (sorted j)

/-- The order, read on the listing. -/
theorem RateOrder.descending {sorted : ℕ → P} (ordered : RateOrder deref tasks sorted n) :
    (listing sorted n).Pairwise fun x y => period deref y ≤ period deref x :=
  pairwise_listing.mpr ordered.order

theorem listing_sortTasks_perm (deref : P → Task) (tasks : ℕ → P) (n : ℕ) :
    (listing (sortTasks deref n tasks) n).Perm (listing tasks n) := by
  rw [listing_sortTasks]
  exact shrinkSort_perm length_listing

/-- The loops sort exactly the nearly sorted arrays. -/
theorem sortTasks_rateOrder_iff :
    RateOrder deref tasks (sortTasks deref n tasks) n ↔ NearlySorted deref tasks n := by
  rw [← fewBelow_listing_iff, ← shrinkSort_descending_iff length_listing, ← listing_sortTasks,
    pairwise_listing]
  exact ⟨RateOrder.order, fun order => ⟨listing_sortTasks_perm deref tasks n, order⟩⟩

/-! ### The priorities -/

/-- The registers a task is launched from are those of the descriptor. -/
def Carries (tcb : Tcb) (task : Task) : Prop :=
  tcb.context.r4 = task.lambda ∧ tcb.context.r5 = task.data ∧ tcb.context.r6 = task.stackPos

/-- The array `sorted` is in the order by period, and the TCBs that `allocate_tasks` gives
its tasks are prioritised by period. -/
structure RateMonotonic (pf : Platform) (deref : P → Task) (tasks sorted : ℕ → P) (n : ℕ) : Prop
    extends RateOrder deref tasks sorted n where
  carries : ∀ (s : Kernel), ∀ i < n,
    Carries ((allocateTasks pf (deref ∘ sorted) n s).systemTcb (tcbOf (i + 1))) (deref (sorted i))
  prio : ∀ (s : Kernel) (i j : ℕ), i < n → j < n →
    (deref (sorted i)).T < (deref (sorted j)).T →
      ((allocateTasks pf (deref ∘ sorted) n s).systemTcb (tcbOf (i + 1))).nativePrio <
        ((allocateTasks pf (deref ∘ sorted) n s).systemTcb (tcbOf (j + 1))).nativePrio

variable {pf : Platform} {s : Kernel}

/-- The task at index `i` is launched in TCB `i + 1`. -/
theorem allocateTasks_tcbOf {task : ℕ → Task} (bound : n ≤ Config.osAvailTasks) (inside : i < n) :
    (allocateTasks pf task n s).systemTcb (tcbOf (i + 1)) =
      launchTcb pf (task i) (i + 1) (s.systemTcb (tcbOf (i + 1))) := by
  have index : (tcbOf (i + 1)).val = i + 1 := tcbOf_val (by have := size_of_bound bound; omega)
  rw [allocateTasks_systemTcb bound (by omega), index, Nat.add_sub_cancel]

/-- Priorities follow the indices, so the order by period makes them rate monotonic. -/
theorem RateOrder.rateMonotonic {sorted : ℕ → P} (ordered : RateOrder deref tasks sorted n)
    (bound : n ≤ Config.osAvailTasks) : RateMonotonic pf deref tasks sorted n where
  toRateOrder := ordered
  carries s i inside := by
    rw [allocateTasks_tcbOf bound inside]
    exact ⟨rfl, rfl, rfl⟩
  prio s i j hi hj less := by
    rw [allocateTasks_tcbOf bound hi, allocateTasks_tcbOf bound hj]
    rw [UInt32.lt_iff_toNat_lt] at less
    have before : i < j := by
      by_contra after
      rcases Nat.lt_or_eq_of_le (not_lt.mp after) with later | rfl
      · exact absurd less (not_lt.mpr (ordered.order j i later hi))
      · exact absurd less (lt_irrefl _)
    exact Nat.succ_lt_succ before

/-- Whether or not it accepts the set, `assign_schedule` leaves a rate monotonic order
exactly when the array was nearly sorted. -/
theorem assignSchedule_rateMonotonic_iff (bound : n ≤ Config.osAvailTasks) :
    RateMonotonic pf deref tasks (assignSchedule fl deref tasks n).2 n ↔
      NearlySorted deref tasks n := by
  rw [← sortTasks_rateOrder_iff]
  exact ⟨RateMonotonic.toRateOrder, fun ordered => ordered.rateMonotonic bound⟩

/-- Three tasks whose first two are out of order. -/
def swappedTasks : ℕ → Task
  | 0 => ⟨0, 0, 0, 64, 512, 0⟩
  | 1 => ⟨0, 0, 0, 64, 256, 0⟩
  | _ => ⟨0, 0, 0, 64, 1024, 0⟩

theorem assignSchedule_rateMonotonic_swapped :
    RateMonotonic exactPlatform id swappedTasks
      (assignSchedule exactFloat id swappedTasks 3).2 3 :=
  (assignSchedule_rateMonotonic_iff (by decide)).mpr (by decide)

/-! ### An accepted set that is left out of order -/

/-- Three tasks by decreasing period. -/
def decreasingTasks : ℕ → Task
  | 0 => ⟨0, 0, 0, 64, 1024, 0⟩
  | 1 => ⟨0, 0, 0, 64, 512, 0⟩
  | _ => ⟨0, 0, 0, 64, 256, 0⟩

/-- The general statement fails: the set is accepted, and its tasks of period 1024 and 512
are left in that order. -/
theorem assignSchedule_misorders :
    ¬ ∀ (tasks : ℕ → Task) (n : ℕ), n ≤ Config.osAvailTasks →
      (assignSchedule exactFloat id tasks n).1 = true →
        RateMonotonic exactPlatform id tasks (assignSchedule exactFloat id tasks n).2 n := by
  intro ordered
  have monotonic := ordered decreasingTasks 3 (by decide) (by decide +kernel)
  exact absurd (monotonic.order 1 2 (by decide) (by decide)) (by decide)

end Gravel
