import Gravel.Admission.Soundness
import Gravel.Timing.Deadlines

/-!
# What admission guarantees

`task_create` accepts a set on the periods and costs in its descriptors, and `allocate_tasks`
gives the tasks their priorities in the order that `assign_schedule` left. If the set was
nearly sorted, no task is ever blocked, and the entry of the table for its size is within the
utilisation bound, then tasks that do what their descriptors say meet all their deadlines
on the kernel that has accepted them, as long as the devices keep their periods.

## Main definitions

* `descriptors` — the array of pointers that `task_create` fills in
* `Obeys` — tasks that do what their descriptors say

## Main results

* `demand_userTcbs` — the demand of the TCBs is that of the descriptors
* `accepted_deadlines_met` — an accepted set meets all its deadlines
-/

namespace Gravel

open Library

/-- The pointers to the descriptors of a set. -/
def descriptors (tasks : UInt32) (i : ℕ) : UInt32 := tasks + sizeofTask * UInt32.ofNat i

/-- The tasks of an array, in the TCBs they are given, wait for the device of their period
and take at most their cost for a job. -/
structure Obeys {P : Type*} (jobs : Jobs) (deref : P → Task) (sorted : ℕ → P) (n : ℕ) :
    Prop where
  paced : ∀ i < n, jobs.period (tcbOf (i + 1)) = period deref (sorted i)
  bounded : ∀ i < n, ∀ x, jobs.length (tcbOf (i + 1)) x ≤ cost deref (sorted i)

variable {P : Type*} {deref : P → Task} {sorted : ℕ → P} {jobs : Jobs} {n N x i : ℕ}
  {mem : UserMem} {tasks numTasks : UInt32} {k k' : Kernel} {t : TcbPtr} {T C : TcbPtr → ℕ}

/-- The TCBs of a set are those from 1 on. -/
theorem mem_userTcbs_iff_tcbOf (bound : n ≤ Config.osAvailTasks) :
    t ∈ userTcbs n ↔ ∃ i < n, tcbOf (i + 1) = t := by
  have size := size_of_bound bound
  have last : Config.osAvailTasks < idleTcb.val := by decide
  rw [mem_userTcbs]
  constructor
  · rintro ⟨-, lower, upper⟩
    exact ⟨t.val - 1, by omega, (tcbOf_eq_iff (by omega)).mpr (by omega)⟩
  · rintro ⟨i, inside, same⟩
    have index := (tcbOf_eq_iff (by omega)).mp same
    refine ⟨fun idle => ?_, by omega, by omega⟩
    rw [idle] at index
    omega

/-- The demand of the TCBs up to a task is that of the descriptors up to its index. -/
theorem demand_userTcbs (bound : n ≤ Config.osAvailTasks) (inside : i < n) (y : ℕ) :
    demand ((userTcbs n).filter (· ≤ tcbOf (i + 1))) T C y =
      demand (Finset.range (i + 1)) (fun j => T (tcbOf (j + 1))) (fun j => C (tcbOf (j + 1)))
        y := by
  have size := size_of_bound bound
  have index (j : ℕ) (below : j < n) : (tcbOf (j + 1)).val = j + 1 := tcbOf_val (by omega)
  symm
  apply Finset.sum_bij (fun j _ => tcbOf (j + 1))
  · intro j member
    have below := Finset.mem_range.mp member
    refine Finset.mem_filter.mpr ⟨?_, ?_⟩
    · exact (mem_userTcbs_iff_tcbOf bound).mpr ⟨j, by omega, rfl⟩
    · rw [Fin.le_def, index j (by omega), index i inside]
      omega
  · intro a first b second same
    have := congrArg Fin.val same
    rw [index a (by have := Finset.mem_range.mp first; omega),
      index b (by have := Finset.mem_range.mp second; omega)] at this
    omega
  · intro t member
    obtain ⟨member, level⟩ := Finset.mem_filter.mp member
    obtain ⟨j, below, rfl⟩ := (mem_userTcbs_iff_tcbOf bound).mp member
    rw [Fin.le_def, index j below, index i inside] at level
    exact ⟨j, Finset.mem_range.mpr (by omega), rfl⟩
  · exact fun _ _ => rfl

/-- A schedulable set has a time for the demand criterion of every TCB. -/
theorem Obeys.fits {tasks : ℕ → P} (obeys : Obeys jobs deref sorted n)
    (schedulable : Schedulable deref tasks n) (ordered : RateOrder deref tasks sorted n)
    (bound : n ≤ Config.osAvailTasks) (inside : i < n) :
    ∃ y, 0 < y ∧ y ≤ jobs.period (tcbOf (i + 1)) ∧
      demand ((userTcbs n).filter (· ≤ tcbOf (i + 1))) jobs.period
        (fun t => cost deref (sorted (t.val - 1))) y ≤ y := by
  have size := size_of_bound bound
  obtain ⟨y, positive, early, fits⟩ := schedulable sorted ordered i inside
  refine ⟨y, positive, (obeys.paced i inside).symm ▸ early, ?_⟩
  rw [demand_userTcbs bound inside]
  refine le_trans (le_of_eq (Finset.sum_congr rfl fun j member => ?_)) fits
  have below := Finset.mem_range.mp member
  dsimp only
  rw [obeys.paced j (by omega), tcbOf_val (by omega), Nat.add_sub_cancel]

/-- As long as the devices keep their periods, an accepted set that was nearly sorted, whose tasks
are never blocked and do what their descriptors say, meets all its deadlines, if the entry for its
size is within the utilisation bound. -/
theorem accepted_deadlines_met (size : numTasks.toNat = n)
    (created : taskCreate exactPlatform mem k tasks numTasks = .ok (none, k'))
    (sorted : NearlySorted (readTask mem) (descriptors tasks) n)
    (unblocked : Unblocked (readTask mem) (descriptors tasks) n)
    (entry : (1 + tableBound (n - 1) / n) ^ n ≤ 2) (positive : jobs.Positive n)
    (obeys : Obeys jobs (readTask mem)
      (assignSchedule exactFloat (readTask mem) (descriptors tasks) n).2 n)
    (keeps : KeepsPeriods k.sysTime N) (member : t ∈ userTcbs n) (inside : x ≤ N) :
    ∃ s, (Timed.start jobs { kernel := k', control := fun _ => .user }).run exactPlatform jobs x =
        .ok s ∧
      s.released t = x / jobs.period t + 1 ∧ x / jobs.period t ≤ s.done t := by
  obtain ⟨ptrs, accepted, start⟩ := taskCreate_start created
  rw [size] at accepted start
  have bound := start.bound
  obtain ⟨i, below, rfl⟩ := (mem_userTcbs_iff_tcbOf bound).mp member
  have some_tasks : 0 < n := by omega
  have schedulable : Schedulable (readTask mem) (descriptors tasks) n :=
    schedulable_of_accepted some_tasks bound entry unblocked (congrArg Prod.fst accepted)
  have ordered : RateOrder (readTask mem) (descriptors tasks)
      (assignSchedule exactFloat (readTask mem) (descriptors tasks) n).2 n :=
    sortTasks_rateOrder_iff.mpr sorted
  have launched : Launched exactPlatform k n { kernel := k', control := fun _ => .user } :=
    ⟨mem, tasks, numTasks, size, created, rfl⟩
  obtain ⟨s, mid, timeline, ran⟩ := exists_timeline launched positive keeps
  refine ⟨s x, ran x inside, timeline.meets_deadlines member (fun u other _ y => ?_)
    (obeys.fits schedulable ordered bound below) inside⟩
  obtain ⟨j, below', rfl⟩ := (mem_userTcbs_iff_tcbOf bound).mp other
  have := size_of_bound bound
  rw [tcbOf_val (by omega), Nat.add_sub_cancel]
  exact obeys.bounded j below' y

theorem accepted_deadlines_met_twoTasks :
    ∃ k', taskCreate exactPlatform twoTasks boot.kernel Config.usrStartAddr 2 = .ok (none, k') ∧
      ∃ s, (Timed.start alternateJobs { kernel := k', control := fun _ => .user }).run
          exactPlatform alternateJobs 1000 = .ok s ∧
        s.released 2 = 1000 / alternateJobs.period 2 + 1 ∧
          1000 / alternateJobs.period 2 ≤ s.done 2 := by
  obtain ⟨k', task, created, -⟩ := accepted_twoTasks.taskCreate_start (k := boot.kernel)
  refine ⟨k', created, accepted_deadlines_met rfl created (by decide) (by decide +kernel)
    (by decide +kernel) (fun _ _ _ => Nat.one_pos) ⟨by decide +kernel, fun i below _ => ?_⟩
    (keepsPeriods_of_le (by decide)) (by decide) le_rfl⟩
  change 1 ≤ cost _ _
  revert i
  decide +kernel

end Gravel
