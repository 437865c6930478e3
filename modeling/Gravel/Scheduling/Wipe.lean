import Gravel.Scheduling.Ceiling
import Gravel.Scheduling.Placement

/-!
# What is left of the previous task set

`task_create` reuses the TCBs of the tasks it replaces. It resets the run queue, the
devices and the TCBs, but not the mutexes: a mutex that an old task held is held by
the new task at the same index, and an old waiter stays in its sleep queue.

## Main definitions

* `Accepted` — the checks of `task_create`
* `Wiped` — nothing of the previous task set is left

## Main results

* `taskCreate_wipes_iff` — exactly when no mutex was held or waited for
* `taskCreate_inherits_lock` — a run from boot after which a new task owns a mutex
-/

namespace Gravel

open Library

/-- A call of `task_create` that passes every check. -/
structure Accepted (pf : Platform) (mem : UserMem) (tasks numTasks : UInt32) : Prop where
  bound : numTasks.toNat ≤ Config.osAvailTasks
  readable : validAddr tasks (numTasks * sizeofTask) Config.usrStartAddr Config.usrEndAddr = true
  schedulable : (assignSchedule pf.float (readTask mem)
    (fun i => tasks + sizeofTask * UInt32.ofNat i) numTasks.toNat).1 = true

/-- A set of `n` tasks starts with a clean kernel. -/
structure Wiped (n : ℕ) (k : Kernel) : Prop where
  devices : ∀ d, (k.devices d).sleepQueue = none
  waiters : ∀ m, (k.gtMutex m).pSleepQueue = none
  runnable : ∀ t, k.curTcb = some t ∨ k.Queued t ↔ t ∈ liveTcbs n
  unheld : ∀ m, (k.gtMutex m).pHoldingTcb = none
  counts : ∀ t ∈ liveTcbs n, (k.systemTcb t).holdsLock =
    (Finset.univ.filter fun m => (k.gtMutex m).pHoldingTcb = some t).card

variable {pf : Platform} {mem : UserMem} {tasks numTasks : UInt32} {k k' : Kernel} {n : ℕ}
  {task : ℕ → Task}

/-- An accepted call launches its tasks from every state. -/
theorem Accepted.taskCreate_start (accepted : Accepted pf mem tasks numTasks) :
    ∃ k' task, taskCreate pf mem k tasks numTasks = .ok (none, k') ∧
      Start pf task numTasks.toNat k k' := by
  obtain ⟨bound, readable, schedulable⟩ := accepted
  set sorted := assignSchedule pf.float (readTask mem)
    (fun i => tasks + sizeofTask * UInt32.ofNat i) numTasks.toNat with ordered
  obtain ⟨k', started, start⟩ :=
    schedInit_start (k := k) (fun j => readTask mem (sorted.2 j)) bound
  refine ⟨k', _, ?_, start⟩
  simp only [taskCreate, not_lt.mpr bound, if_false, readable, ← ordered, schedulable, started,
    Bool.not_true, Bool.false_eq_true]

theorem Start.runnable_iff (start : Start pf task n k k') (t : TcbPtr) :
    k'.curTcb = some t ∨ k'.Queued t ↔ t ∈ liveTcbs n := by
  have first := View.isLeast_launch (n := n)
  have queued : k'.Queued t ↔ t ∈ (View.launch n).ready := by
    constructor
    · rintro ⟨p, inside, found⟩
      exact ((start.holds p inside t).mp found).2
    · exact fun ready => ⟨t.val, t.isLt, start.holds.slot ready⟩
  rw [queued, start.cur, Option.some.injEq]
  constructor
  · rintro (rfl | ready)
    · exact first.1
    · exact Finset.mem_of_mem_erase ready
  · intro member
    by_cases own : t = (View.launch n).cur
    · exact Or.inl own.symm
    · exact Or.inr (Finset.mem_erase.mpr ⟨own, member⟩)

/-- The mutexes decide whether the kernel is clean. -/
theorem Start.wiped_iff (start : Start pf task n k k') :
    Wiped n k' ↔ ∀ m, (k.gtMutex m).pHoldingTcb = none ∧ (k.gtMutex m).pSleepQueue = none := by
  constructor
  · intro wiped m
    rw [← start.mutexes]
    exact ⟨wiped.unheld m, wiped.waiters m⟩
  · intro free
    exact
      { devices := start.devices
        waiters := fun m => by rw [start.mutexes, (free m).2]
        runnable := start.runnable_iff
        unheld := fun m => by rw [start.mutexes, (free m).1]
        -- The new counts are zero, which is right only while no new task owns a mutex.
        counts := by
          intro t member
          have none_held (m : MutexPtr) : (k'.gtMutex m).pHoldingTcb = none := by
            rw [start.mutexes, (free m).1]
          rw [start.tcbs, (allocateTasks_live start.bound member).2.2]
          simp [none_held] }

/-- An accepted `task_create` leaves nothing of the previous task set exactly when no
mutex was held and none had a waiter. -/
theorem taskCreate_wipes_iff (accepted : Accepted pf mem tasks numTasks) :
    ∃ k', taskCreate pf mem k tasks numTasks = .ok (none, k') ∧
      (Wiped numTasks.toNat k' ↔
        ∀ m, (k.gtMutex m).pHoldingTcb = none ∧ (k.gtMutex m).pSleepQueue = none) := by
  obtain ⟨k', task, created, start⟩ := accepted.taskCreate_start (k := k)
  exact ⟨k', created, start.wiped_iff⟩

theorem accepted_twoTasks : Accepted exactPlatform twoTasks Config.usrStartAddr 2 :=
  ⟨by decide, by decide, by decide +kernel⟩

/-- The first of two tasks waits for a device when the second one replaces the set. -/
theorem taskCreate_wipes_waiter :
    ∃ (s : Machine) (k' : Kernel), s.Enabled (.taskCreate twoTasks Config.usrStartAddr 2) ∧
      (s.kernel.devices 3).sleepQueue = some 1 ∧
      taskCreate exactPlatform twoTasks s.kernel Config.usrStartAddr 2 = .ok (none, k') ∧
        Wiped 2 k' := by
  obtain ⟨s, w, s', -, -, checked⟩ := exists_run_of_executed (k := boot.kernel)
    (G := fun _ _ => True) (fun _ _ _ => trivial)
    (by decide +kernel : ((launch exactPlatform twoTasks Config.usrStartAddr 2 boot.kernel).bind
      (Machine.execAll exactPlatform (fun _ _ => true) [.eventWait 3, .resume])).any
        (fun s => s.Enabled (.taskCreate twoTasks Config.usrStartAddr 2) ∧
          (s.kernel.devices 3).sleepQueue = some 1 ∧
          ∀ m, (s.kernel.gtMutex m).pHoldingTcb = none ∧
            (s.kernel.gtMutex m).pSleepQueue = none) = true)
  obtain ⟨enabled, waiting, free⟩ := of_decide_eq_true checked
  obtain ⟨k', created, wiped⟩ := taskCreate_wipes_iff accepted_twoTasks (k := s'.kernel)
  exact ⟨s', k', enabled, waiting, created, wiped.mpr free⟩

/-- The general statement fails: a task that calls `task_create` while it holds a mutex
leaves it to the new task at its index. -/
theorem taskCreate_inherits_lock :
    ¬ ∀ w s mem tasks numTasks k', Run (Machine.Step exactPlatform) boot w s →
      s.Enabled (.taskCreate mem tasks numTasks) →
      taskCreate exactPlatform mem s.kernel tasks numTasks = .ok (none, k') →
        Wiped numTasks.toNat k' := by
  intro wiped
  obtain ⟨s, w, s', launched, run, checked⟩ := exists_run_of_executed (k := boot.kernel)
    (G := fun _ _ => True) (fun _ _ _ => trivial)
    (by decide +kernel : ((launch exactPlatform twoTasks Config.usrStartAddr 2 boot.kernel).bind
      (Machine.execAll exactPlatform (fun _ _ => true) [.mutexCreate, .mutexLock 0])).any
        (fun s => s.Enabled (.taskCreate twoTasks Config.usrStartAddr 2) ∧
          (s.kernel.gtMutex 0).pHoldingTcb = some 1) = true)
  obtain ⟨enabled, held⟩ := of_decide_eq_true checked
  obtain ⟨label, first⟩ := launched.step rfl (by decide)
  -- The holder itself calls `task_create`: mutex 0 keeps TCB 1 as its owner.
  obtain ⟨k', task, created, start⟩ := accepted_twoTasks.taskCreate_start (k := s'.kernel)
  have whole := Run.cons first (run.mono fun _ _ _ step => step.1.1)
  have free := start.wiped_iff.mp (wiped _ s' _ _ _ k' whole enabled created) 0
  rw [held] at free
  exact absurd free.1 (by decide)

end Gravel
