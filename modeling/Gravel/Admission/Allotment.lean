import Gravel.Admission.RateMonotonic
import Mathlib.Data.Set.Function
import Mathlib.Logic.Equiv.Basic

/-!
# Tasks and their TCBs

The loops of `assign_schedule` only exchange entries of the pointer array, so `allocate_tasks`
gives every descriptor of the user a TCB of its own. What the TCBs, the run queue and `run_list`
held before does not matter.

## Main definitions

* `Rearranged` — an array with the entries of another, up to an index
* `taskTcbs`, `firstTcb` — the TCBs of a set of `n` tasks, and the one that starts
* `Allotment` — what `allocate_tasks` leaves, and `sched_init` finds

## Main results

* `rearranged_sortTasks` — the loops lose and duplicate no entry
* `Rearranged.allotment` — from any state, every descriptor gets exactly one TCB
* `allocateTasks_allotment`, `taskCreate_allotment` — after the loops, and in `task_create`
-/

namespace Gravel

variable {P : Type*} {F : Type} {fl : FloatOps F} {deref : P → Task} {tasks tasks' s : ℕ → P}
  {n i j p : ℕ} {pf : Platform} {k : Kernel} {t : TcbPtr}

/-- The first array has the entries of the second, in another order below `n`. -/
def Rearranged (tasks' tasks : ℕ → P) (n : ℕ) : Prop :=
  ∃ σ : Equiv.Perm ℕ, (∀ p, n ≤ p → σ p = p) ∧ tasks' = tasks ∘ σ

/-- The TCBs of a set of `n` tasks. -/
def taskTcbs (n : ℕ) : Set TcbPtr := {t | 1 ≤ t.val ∧ t.val ≤ n}

/-- The first TCB of a set of `n` tasks, or the idle TCB if there is none. -/
def firstTcb (n : ℕ) : TcbPtr := if n = 0 then idleTcb else tcbOf 1

/-- Every descriptor has a TCB of its own, the TCBs are fresh and queued at their indices, and
the first one starts. -/
structure Allotment (deref : P → Task) (tasks : ℕ → P) (n : ℕ) (k : Kernel) : Prop where
  place : ∃ place : ℕ → TcbPtr, Set.BijOn place (Set.Iio n) (taskTcbs n) ∧
    ∀ i < n, Carries (k.systemTcb (place i)) (deref (tasks i))
  fresh : ∀ t ∈ taskTcbs n, (k.systemTcb t).nativePrio = t.val ∧ (k.systemTcb t).curPrio = t.val ∧
    (k.systemTcb t).holdsLock = 0 ∧ (k.systemTcb t).sleepQueue = none
  wf : k.runQueue.Wf
  queued : ∀ p < Config.osMaxTasks, k.runQueue.slot p =
    if p = Config.idlePrio then some idleTcb else if 1 ≤ p ∧ p ≤ n then some (tcbOf p) else none
  free : k.runQueue.slot Config.highestPrio = none
  starts : ∃ k', schedInit k = .ok k' ∧ k'.curTcb = some (firstTcb n) ∧
    k'.regs = (k.systemTcb (firstTcb n)).context

/-! ### Exchanges -/

theorem Rearranged.refl (tasks : ℕ → P) (n : ℕ) : Rearranged tasks tasks n :=
  ⟨Equiv.refl ℕ, fun _ _ => rfl, rfl⟩

theorem Rearranged.trans (first : Rearranged s tasks' n) (second : Rearranged tasks' tasks n) :
    Rearranged s tasks n := by
  obtain ⟨σ, fixed, rfl⟩ := first
  obtain ⟨τ, fixed', rfl⟩ := second
  refine ⟨σ.trans τ, fun p above => ?_, rfl⟩
  rw [Equiv.trans_apply, fixed p above, fixed' p above]

/-- The exchange of neighbours below `n`. -/
theorem rearranged_compareSwap (below : j + 1 < n) :
    Rearranged (compareSwap deref tasks j) tasks n := by
  unfold compareSwap
  split
  · refine ⟨Equiv.swap j (j + 1), fun p above => ?_, ?_⟩
    · exact Equiv.swap_apply_of_ne_of_ne (by omega) (by omega)
    · rw [Equiv.comp_swap_eq_update]
  · exact .refl tasks n

theorem rearranged_innerLoop (below : i < n) :
    Rearranged (innerLoop deref i tasks) tasks n := by
  induction i generalizing tasks with
  | zero => exact .refl tasks n
  | succ i ih => exact (ih (by omega)).trans (rearranged_compareSwap below)

/-- The loops only exchange entries below their bound. -/
theorem rearranged_sortTasks (within : i ≤ n) :
    Rearranged (sortTasks deref i tasks) tasks n := by
  induction i generalizing tasks with
  | zero => exact .refl tasks n
  | succ i ih => exact (ih (by omega)).trans (rearranged_innerLoop within)

/-! ### The TCBs -/

theorem bijOn_tcbOf (bound : n < Config.osMaxTasks) :
    Set.BijOn (fun i => tcbOf (i + 1)) (Set.Iio n) (taskTcbs n) := by
  refine ⟨fun i (inside : i < n) => ?_, fun i (hi : i < n) j (hj : j < n) same => ?_, ?_⟩
  · have index : (tcbOf (i + 1)).val = i + 1 := tcbOf_val (by omega)
    change 1 ≤ (tcbOf (i + 1)).val ∧ (tcbOf (i + 1)).val ≤ n
    omega
  · have index := congrArg Fin.val same
    simp only at index
    rw [tcbOf_val (by omega), tcbOf_val (by omega)] at index
    omega
  · rintro t ⟨low, high⟩
    refine ⟨t.val - 1, ?_, (tcbOf_eq_iff (by omega)).mpr (by omega)⟩
    change t.val - 1 < n
    omega

/-- A permutation that fixes what is not below `n` permutes what is. -/
theorem bijOn_symm {σ : Equiv.Perm ℕ} (fixed : ∀ p, n ≤ p → σ p = p) :
    Set.BijOn σ.symm (Set.Iio n) (Set.Iio n) := by
  have back (i : ℕ) (inside : i < n) : σ.symm i < n := by
    by_contra above
    have same := fixed _ (not_lt.mp above)
    rw [σ.apply_symm_apply] at same
    omega
  have forth (i : ℕ) (inside : i < n) : σ i < n := by
    by_contra above
    have same := σ.injective (fixed _ (not_lt.mp above))
    omega
  exact ⟨back, σ.symm.injective.injOn, fun i inside => ⟨σ i, forth i inside, σ.symm_apply_apply i⟩⟩

/-- The TCB of a task is the one after its index, wherever its descriptor came from. -/
theorem exists_place (rearranged : Rearranged s tasks n) (bound : n ≤ Config.osAvailTasks) :
    ∃ place : ℕ → TcbPtr, Set.BijOn place (Set.Iio n) (taskTcbs n) ∧ ∀ i < n,
      Carries ((allocateTasks pf (deref ∘ s) n k).systemTcb (place i)) (deref (tasks i)) := by
  obtain ⟨σ, fixed, rfl⟩ := rearranged
  have inner := bijOn_symm fixed
  refine ⟨fun i => tcbOf (σ.symm i + 1), (bijOn_tcbOf (size_of_bound bound)).comp inner, ?_⟩
  intro i inside
  have below : σ.symm i < n := inner.mapsTo inside
  rw [allocateTasks_tcbOf bound below]
  simp only [Carries, launchTcb, Function.comp_apply, Equiv.apply_symm_apply, and_self]

/-! ### The queue and the first task -/

theorem isLeast_firstTcb (n : ℕ) : IsLeast (liveTcbs n : Set TcbPtr) (firstTcb n) := by
  have one : (tcbOf 1).val = 1 := rfl
  unfold firstTcb
  split
  · rename_i empty
    refine ⟨idleTcb_mem_liveTcbs n, fun t member => ?_⟩
    rcases mem_liveTcbs.mp member with task_tcb | rfl
    · omega
    · exact le_rfl
  · refine ⟨mem_liveTcbs.mpr (.inl (by omega)), fun t member => ?_⟩
    rw [Fin.le_def, one]
    rcases mem_liveTcbs.mp member with task_tcb | rfl
    · exact task_tcb.1
    · decide

theorem schedInit_firstTcb {task : ℕ → Task} (bound : n ≤ Config.osAvailTasks) :
    ∃ k', schedInit (allocateTasks pf task n k) = .ok k' ∧ k'.curTcb = some (firstTcb n) ∧
      k'.regs = ((allocateTasks pf task n k).systemTcb (firstTcb n)).context := by
  obtain ⟨q, dispatched, -⟩ :=
    (allocateTasks_holds bound).dispatch (allocateTasks_wf bound) (isLeast_firstTcb n)
  exact ⟨_, dispatched, rfl, rfl⟩

/-- From any state, an array with the entries of another allots their descriptors. -/
theorem Rearranged.allotment (rearranged : Rearranged s tasks n) (bound : n ≤ Config.osAvailTasks) :
    Allotment deref tasks n (allocateTasks pf (deref ∘ s) n k) where
  place := exists_place rearranged bound
  fresh t member := by
    rw [allocateTasks_systemTcb bound member]
    exact ⟨rfl, rfl, rfl, rfl⟩
  wf := allocateTasks_wf bound
  queued p inside := allocateTasks_slot inside
  free := allocateTasks_slot (p := 0) (by decide)
  starts := schedInit_firstTcb bound

/-- Every descriptor of an array that `assign_schedule` has gone through, and so every one of an
accepted array, gets exactly one TCB. -/
theorem allocateTasks_allotment (pf : Platform) (deref : P → Task) (tasks : ℕ → P) (k : Kernel)
    (bound : n ≤ Config.osAvailTasks) :
    Allotment deref tasks n
      (allocateTasks pf (deref ∘ (assignSchedule pf.float deref tasks n).2) n k) :=
  (rearranged_sortTasks le_rfl).allotment bound

/-- Three tasks in decreasing order, on a kernel that has just booted. -/
theorem allocateTasks_allotment_decreasing :
    Allotment id decreasingTasks 3 (allocateTasks exactPlatform
      (id ∘ (assignSchedule exactPlatform.float id decreasingTasks 3).2) 3 boot.kernel) :=
  allocateTasks_allotment exactPlatform id decreasingTasks boot.kernel (by decide)

/-- A call of `task_create` that does not return has allotted the descriptors in user memory, and
started the first task. -/
theorem taskCreate_allotment {mem : UserMem} {base numTasks : UInt32} {k' : Kernel}
    (created : taskCreate pf mem k base numTasks = .ok (none, k')) :
    ∃ k₁, Allotment (readTask mem) (fun i => base + sizeofTask * UInt32.ofNat i)
      numTasks.toNat k₁ ∧ schedInit k₁ = .ok k' := by
  obtain ⟨bound, ptrs, accepted, started⟩ := taskCreate_eq_ok_none created
  obtain rfl : sortTasks (readTask mem) numTasks.toNat _ = ptrs := congrArg Prod.snd accepted
  exact ⟨_, (rearranged_sortTasks le_rfl).allotment bound, started⟩

end Gravel
