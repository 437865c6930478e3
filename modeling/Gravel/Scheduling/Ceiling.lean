import Gravel.Scheduling.Launch
import Gravel.Scheduling.Simulation

/-!
# The highest locker protocol

When every mutex is free at launch, only the running task ever holds one, so no call of
`mutex_lock` blocks and no task waits for another. The run queue then has one task to a
slot, and every operation on it is in order.

## Main definitions

* `Free` — the mutexes of a kernel state have neither owner nor waiter
* `HighestLocker` — the invariant of the protocol
* `Kernel.WaitsOn` — a task waits for a mutex another one holds

## Main results

* `highestLocker_of_run` — no contention and no deadlock
* `runQueue_of_run` — no assertion fails and no queued task is overwritten
-/

namespace Gravel

open Library

/-- Every mutex is free and has no waiter. -/
def Free (k : Kernel) : Prop :=
  ∀ m, (k.gtMutex m).pHoldingTcb = none ∧ (k.gtMutex m).bLock = false ∧
    (k.gtMutex m).pSleepQueue = none

/-- What the protocol keeps among the tasks of `live`. -/
structure HighestLocker (live : Finset TcbPtr) (k : Kernel) : Prop where
  owner : ∀ m t, (k.gtMutex m).pHoldingTcb = some t → k.curTcb = some t
  counts : ∀ t ∈ live, (k.systemTcb t).holdsLock =
    (Finset.univ.filter fun m => (k.gtMutex m).pHoldingTcb = some t).card
  prio : ∀ t ∈ live, (k.systemTcb t).curPrio =
    if 0 < (k.systemTcb t).holdsLock then Config.highestPrio else (k.systemTcb t).nativePrio
  locked : ∀ m, (k.gtMutex m).bLock = true ↔ (k.gtMutex m).pHoldingTcb ≠ none
  alone : ∀ m, (k.gtMutex m).pSleepQueue = none

/-- Task `t` waits for a mutex that `u` holds. -/
def Kernel.WaitsOn (k : Kernel) (t u : TcbPtr) : Prop :=
  ∃ m, Linked k.link (k.gtMutex m).pSleepQueue t ∧ (k.gtMutex m).pHoldingTcb = some u

variable {live : Finset TcbPtr} {v : View} {k : Kernel} {t : TcbPtr} {s s' : Machine}
  {pf : Platform} {e : Event} {n : ℕ} {w : List Label}

theorem stale_eq_empty_iff : k.stale = ∅ ↔ Free k := by
  simp [Kernel.stale, Free, Set.eq_empty_iff_forall_notMem]

/-! ### Reading the representation without stale mutexes -/

theorem Agrees.holder_eq (agrees : Agrees live ∅ v k) (m : MutexPtr) :
    (k.gtMutex m).pHoldingTcb = v.holder m :=
  (agrees.mutex m (Set.notMem_empty m)).1

theorem View.holder_eq_some_iff {m : MutexPtr} : v.holder m = some t ↔ m ∈ v.locks ∧ t = v.cur := by
  simp [View.holder, eq_comm]

theorem View.card_held :
    (Finset.univ.filter fun m => v.holder m = some t).card = v.holdsLock t := by
  by_cases own : t = v.cur
  · simp [View.holder_eq_some_iff, View.holdsLock, own]
  · simp [View.holder_eq_some_iff, View.holdsLock, own]

theorem Agrees.highestLocker (agrees : Agrees live ∅ v k) : HighestLocker live k where
  owner m t holder := by
    rw [agrees.holder_eq] at holder
    rw [agrees.cur, (View.holder_eq_some_iff.mp holder).2]
  counts t member := by
    rw [agrees.holds t member]
    simp only [agrees.holder_eq, View.card_held]
  prio t member := by
    rw [agrees.prio t member, agrees.holds t member, agrees.native t member]
    by_cases own : t = v.cur
    · simp [View.prio, View.holdsLock, own, Finset.card_pos, Finset.nonempty_iff_ne_empty]
    · simp [View.prio, View.holdsLock, own]
  locked m := by
    rw [agrees.holder_eq, (agrees.mutex m (Set.notMem_empty m)).2.1]
    simp [View.holder]
  alone m := (agrees.mutex m (Set.notMem_empty m)).2.2

/-- Under the protocol `mutex_lock` never reaches its `dispatch_sleep`. -/
theorem HighestLocker.not_sleep (locker : HighestLocker live k) (mutex : ℤ) (m : MutexPtr)
    (k' : Kernel) : mutexLockEnter k mutex ≠ .ok (.sleep m, k') := by
  unfold mutexLockEnter
  split
  · simp
  · split
    · simp
    · rename_i m' _ other
      -- A locked mutex is owned by the running task, which is refused one line above.
      rw [if_neg]
      · simp
      · intro blocked
        obtain ⟨t, holder⟩ := Option.ne_none_iff_exists'.mp ((locker.locked m').mp blocked)
        exact other (by rw [holder, locker.owner m' t holder])

theorem HighestLocker.not_waitsOn (locker : HighestLocker live k) (t u : TcbPtr) :
    ¬ k.WaitsOn t u := by
  rintro ⟨m, linked, -⟩
  rw [locker.alone m] at linked
  exact not_linked_none linked

/-! ### All runs -/

/-- In every run from a launch with free mutexes the machine represents a scheduler
state. -/
theorem represents_of_run (launched : Launched pf k n s) (free : Free k)
    (run : Run (Machine.TaskStep pf) s w s') :
    ∃ v, Represents (liveTcbs n) ∅ v s' ∧ v.Inv (liveTcbs n) idleTcb := by
  have start : Represents (liveTcbs n) ∅ (View.launch n) s :=
    stale_eq_empty_iff.mpr free ▸ launched.represents
  -- The invariant is that some scheduler state is represented and keeps `Inv`.
  induction run with
  | nil => exact ⟨View.launch n, start, View.inv_launch⟩
  | snoc _ step ih =>
    obtain ⟨v, rep, inv⟩ := ih
    obtain ⟨v', move, rep'⟩ := rep.step inv step (freshCall_of_clean rfl)
    exact ⟨v', rep', move.inv inv⟩

/-- Only the running task holds mutexes, at the ceiling, and the counts are right; no
call of `mutex_lock` blocks, none is blocked, and no tasks wait in a circle. -/
theorem highestLocker_of_run (launched : Launched pf k n s) (free : Free k)
    (run : Run (Machine.TaskStep pf) s w s') :
    HighestLocker (liveTcbs n) s'.kernel ∧
      (∀ mutex m k', mutexLockEnter s'.kernel mutex ≠ .ok (.sleep m, k')) ∧
      (∀ t ∈ liveTcbs n, ∀ m, s'.control t ≠ .lockTail m) ∧
      ∀ t, ¬ Relation.TransGen s'.kernel.WaitsOn t t := by
  obtain ⟨v, rep, inv⟩ := represents_of_run launched free run
  have locker := rep.highestLocker
  refine ⟨locker, locker.not_sleep, fun t member m => ?_, fun t circle => ?_⟩
  · rw [rep.control t member]
    split <;> simp
  · -- A circle would have a first task that waits for a mutex.
    obtain ⟨u, first, -⟩ := Relation.TransGen.head'_iff.mp circle
    exact locker.not_waitsOn t u first

theorem free_boot : Free boot.kernel := stale_eq_empty_iff.mp stale_boot

/-- A run from boot in which the running task takes a mutex. -/
theorem exists_locked_run :
    ∃ s w s', Launched exactPlatform boot.kernel 2 s ∧
      Run (Machine.TaskStep exactPlatform) s w s' ∧ (s'.kernel.gtMutex 0).pHoldingTcb = some 1 := by
  obtain ⟨s, w, s', launched, run, held⟩ := exists_run_of_executed (k := boot.kernel)
    (G := fun _ _ => True) (fun _ _ _ => trivial)
    (by decide +kernel : ((launch exactPlatform twoTasks Config.usrStartAddr 2 boot.kernel).bind
      (Machine.execAll exactPlatform (fun _ _ => true) [.mutexCreate, .mutexLock 0, .tick])).any
        (fun s => (s.kernel.gtMutex 0).pHoldingTcb = some 1) = true)
  exact ⟨s, w, s', launched, run.mono fun _ _ _ step => step.1, of_decide_eq_true held⟩

theorem highestLocker_of_run_twoTasks :
    ∃ s : Machine, (s.kernel.gtMutex 0).pHoldingTcb = some 1 ∧
      HighestLocker (liveTcbs 2) s.kernel := by
  obtain ⟨s, w, s', launched, run, held⟩ := exists_locked_run
  exact ⟨s', held, (highestLocker_of_run launched free_boot run).1⟩

/-- No call of `runqueue_add` since the launch has overwritten another task, and no
further step fails an assertion or faults otherwise. -/
theorem runQueue_of_run (launched : Launched pf k n s) (free : Free k)
    (run : Run (Machine.TaskStep pf) s w s') :
    (∀ call ∈ s'.kernel.runQueue.added, call.Ok) ∧
      ∀ e, s'.Enabled e → e.isTaskCreate = false → ∃ t r, s'.exec pf e = .ok (t, r) := by
  obtain ⟨v, rep, inv⟩ := represents_of_run launched free run
  refine ⟨rep.added, fun e enabled task => ?_⟩
  obtain ⟨v', t, r, executed, -, -⟩ := rep.exec pf inv enabled (freshCall_of_clean rfl) task
  exact ⟨t, r, executed⟩

theorem runQueue_of_run_twoTasks :
    ∃ s : Machine, (s.kernel.gtMutex 0).pHoldingTcb = some 1 ∧
      ∀ call ∈ s.kernel.runQueue.added, call.Ok := by
  obtain ⟨s, w, s', launched, run, held⟩ := exists_locked_run
  exact ⟨s', held, (runQueue_of_run launched free_boot run).1⟩

end Gravel
