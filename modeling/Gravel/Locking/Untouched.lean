import Gravel.Kernel.Machine

/-!
# What leaves the mutexes alone

Only the calls of `mutex.c` write the mutexes and `cur_mutex_num`. The dispatches, the
devices and `task_create` do not, whether they return a code or switch tasks.

## Main definitions

* `Kernel.SameMutexes`

## Main results

* `cIrqHandler_mutexes`, `eventWait_mutexes`, `dispatchSleep_mutexes`, `taskCreate_mutexes`
-/

namespace Gravel

/-- The mutexes and `cur_mutex_num` are what they were. -/
def Kernel.SameMutexes (k k' : Kernel) : Prop :=
  k'.gtMutex = k.gtMutex ∧ k'.curMutexNum = k.curMutexNum

variable {k k' k'' : Kernel}

theorem Kernel.SameMutexes.refl (k : Kernel) : k.SameMutexes k := ⟨rfl, rfl⟩

theorem Kernel.SameMutexes.trans (first : k.SameMutexes k') (second : k'.SameMutexes k'') :
    k.SameMutexes k'' :=
  ⟨second.1.trans first.1, second.2.trans first.2⟩

/-! ### Dispatching -/

theorem Kernel.OnlySwitched.mutexes (only : k.OnlySwitched k') : k.SameMutexes k' :=
  ⟨only.gtMutex, only.curMutexNum⟩

theorem dispatchSleep_mutexes (slept : dispatchSleep k = .ok k') : k.SameMutexes k' :=
  (dispatchSleep_onlySwitched slept).mutexes

/-! ### Devices -/

theorem devWaitEnter_mutexes {d : DevPtr} (entered : devWaitEnter k d = .ok k') :
    k.SameMutexes k' := by
  unfold devWaitEnter at entered
  split at entered
  · simp at entered
  · obtain rfl := Except.ok.inj entered
    exact ⟨rfl, rfl⟩

theorem eventWait_mutexes {dev : UInt32} {code : Option ℤ}
    (waited : eventWait k dev = .ok (code, k')) : k.SameMutexes k' := by
  -- Refused as a lock holder, inserted, or refused for the device number.
  unfold eventWait at waited
  split at waited
  · simp at waited
  · split at waited
    · obtain ⟨-, rfl⟩ := Prod.mk.inj (Except.ok.inj waited)
      exact .refl k
    · split at waited
      · split at waited
        · simp at waited
        · rename_i k'' entered
          obtain ⟨-, rfl⟩ := Prod.mk.inj (Except.ok.inj waited)
          exact devWaitEnter_mutexes entered
      · obtain ⟨-, rfl⟩ := Prod.mk.inj (Except.ok.inj waited)
        exact .refl k

/-- A round writes the run queue and one TCB. -/
theorem wakeWaiters_mutexes {fuel : ℕ} {p : Option TcbPtr} {state state' : Bool × Kernel}
    (woken : wakeWaiters fuel p state = .ok state') : state.2.SameMutexes state'.2 :=
  ⟨wakeWaiters_keeps (f := Kernel.gtMutex) (fun _ _ => rfl) woken,
    wakeWaiters_keeps (f := Kernel.curMutexNum) (fun _ _ => rfl) woken⟩

theorem updateDevice_mutexes {millis : UInt32} {d : DevPtr} {state state' : Bool × Kernel}
    (updated : updateDevice millis d state = .ok state') : state.2.SameMutexes state'.2 := by
  unfold updateDevice at updated
  dsimp only at updated
  split at updated
  · split at updated
    · simp at updated
    · rename_i flag k woken
      obtain rfl := Except.ok.inj updated
      have drained : state.2.SameMutexes k := wakeWaiters_mutexes woken
      exact drained
  · obtain rfl := Except.ok.inj updated
    exact .refl _

theorem updateDevices_mutexes {millis : UInt32} {ds : List DevPtr} {state state' : Bool × Kernel}
    (updated : updateDevices millis ds state = .ok state') : state.2.SameMutexes state'.2 := by
  induction ds generalizing state with
  | nil =>
    obtain rfl := Except.ok.inj updated
    exact .refl _
  | cons d ds ih =>
    rw [updateDevices] at updated
    split at updated
    · simp at updated
    · rename_i one first
      exact (updateDevice_mutexes first).trans (ih updated)

theorem cIrqHandler_mutexes (handled : cIrqHandler k = .ok k') : k.SameMutexes k' := by
  simp only [cIrqHandler, devUpdate] at handled
  split at handled
  · simp at handled
  · rename_i needCtx k'' updated
    have before : k.SameMutexes k'' := updateDevices_mutexes updated
    split at handled
    · exact before.trans (dispatchSave_onlySwitched handled).mutexes
    · obtain rfl := Except.ok.inj handled
      exact before

/-! ### Task creation -/

variable {pf : Platform} {task : ℕ → Task} {n : ℕ}

theorem allocateLoop_mutexes : k.SameMutexes (allocateLoop pf task n k) := by
  induction n generalizing k with
  | zero => exact .refl k
  | succ n ih =>
    have once : k.SameMutexes (allocateTask pf (task n) n k) := ⟨rfl, rfl⟩
    exact once.trans ih

theorem taskCreate_mutexes {mem : UserMem} {tasks numTasks : UInt32} {code : Option ℤ}
    (created : taskCreate pf mem k tasks numTasks = .ok (code, k')) : k.SameMutexes k' := by
  -- Three refusals that change nothing, and the accepted call.
  unfold taskCreate at created
  split at created
  · obtain ⟨-, rfl⟩ := Prod.mk.inj (Except.ok.inj created)
    exact .refl k
  · split at created
    · obtain ⟨-, rfl⟩ := Prod.mk.inj (Except.ok.inj created)
      exact .refl k
    · dsimp only at created
      split at created
      · obtain ⟨-, rfl⟩ := Prod.mk.inj (Except.ok.inj created)
        exact .refl k
      · split at created
        · simp at created
        · rename_i k'' started
          obtain ⟨-, rfl⟩ := Prod.mk.inj (Except.ok.inj created)
          have allocated (k : Kernel) (task : ℕ → Task) :
              k.SameMutexes (allocateTasks pf task numTasks.toNat (devInit k)) :=
            allocateLoop_mutexes
              (k := { devInit k with runQueue := runqueueInit (devInit k).runQueue })
          exact (allocated k _).trans (dispatchNosave_onlySwitched started).mutexes

end Gravel
