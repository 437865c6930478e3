import Gravel.Locking.Untouched
import Gravel.Scheduling.Ceiling

/-!
# The result codes of the mutex calls

`mutex_lock` and `mutex_unlock` compare the owner of the mutex with `cur_tcb`. For a task
that gives the documented codes. While the boot program runs `cur_tcb` is NULL, and NULL
is also the owner of a free mutex: `mutex_lock` reports a deadlock that there is not, and
`mutex_unlock` goes on to write through the NULL pointer.

## Main definitions

* `Reached` — the states the boot program, and then the tasks it creates, can reach
* `Created` — a call of `mutex_create` has returned the number
* `ResultCodes` — the codes are what the history of calls says
* `MutexEffect` — what a step does to the mutexes, with the return that goes with it
* `HistoryInv` — the mutexes are what the history says

## Main results

* `resultCodes_iff` — the codes are exact for every caller with a TCB, and for every
  number that names no mutex
* `mutexLock_misreports_boot` — a run of the boot program with a wrong code
-/

namespace Gravel

open Library

/-- A mutex call of the boot program. -/
def Machine.BootStep (pf : Platform) (s : Machine) (label : Label) (s' : Machine) : Prop :=
  s.Step pf label s' ∧ s.kernel.curTcb = none ∧
    (label.1 = .mutexCreate ∨ (∃ mutex, label.1 = .mutexLock mutex) ∨
      ∃ mutex, label.1 = .mutexUnlock mutex)

/-- The boot program makes mutex calls, and may then launch tasks, which run. -/
inductive Reached (pf : Platform) : List Label → Machine → Prop
  | boot {w : List Label} {s : Machine} : Run (Machine.BootStep pf) boot w s → Reached pf w s
  | tasks {v w : List Label} {s t u : Machine} {n : ℕ} :
      Run (Machine.BootStep pf) Gravel.boot v s → Launched pf s.kernel n t →
        Run (Machine.TaskStep pf) t w u → Reached pf (v ++ w) u

/-- A call of `mutex_create` has returned this number. -/
def Created (history : List Return) (mutex : ℤ) : Prop :=
  0 ≤ mutex ∧ ∃ r ∈ history, r.call = .create ∧ r.code = mutex

/-- The codes that the running program gets for a mutex number are what the history of calls
says, and an error changes no mutex and no TCB. -/
structure ResultCodes (history : List Return) (k : Kernel) (mutex : ℤ) : Prop where
  lock_invalid :
    (∃ k', mutexLock k mutex = .ok (.ret (-Config.einval), k')) ↔ ¬ Created history mutex
  unlock_invalid :
    (∃ k', mutexUnlock k mutex = .ok (-Config.einval, k')) ↔ ¬ Created history mutex
  lock_deadlock : Created history mutex →
    ((∃ k', mutexLock k mutex = .ok (.ret (-Config.edeadlock), k')) ↔
      HeldBy history k.curTcb mutex)
  unlock_ok : Created history mutex →
    ((∃ k', mutexUnlock k mutex = .ok (0, k')) ↔ HeldBy history k.curTcb mutex)
  unlock_perm : Created history mutex → ¬ HeldBy history k.curTcb mutex →
    ∃ k', mutexUnlock k mutex = .ok (-Config.eperm, k')
  lock_unchanged : ∀ code < 0, ∀ k', mutexLock k mutex = .ok (.ret code, k') →
    k'.gtMutex = k.gtMutex ∧ k'.systemTcb = k.systemTcb
  unlock_unchanged : ∀ code < 0, ∀ k', mutexUnlock k mutex = .ok (code, k') →
    k'.gtMutex = k.gtMutex ∧ k'.systemTcb = k.systemTcb

/-! ### What a step does to the mutexes -/

/-- A step leaves the mutexes alone, or it is a successful mutex call. -/
inductive MutexEffect (k k' : Kernel) : Option Return → Prop
  -- Nothing is written; the call, if there is one, has failed.
  | quiet {r : Option Return} : (∀ x ∈ r, x.code < 0) → k.SameMutexes k' → MutexEffect k k' r
  | create (caller : Option TcbPtr) : k.curMutexNum < Config.osNumMutex →
      (k'.gtMutex = fun m =>
        if m.val = k.curMutexNum then { k.gtMutex m with bAvailable := false } else k.gtMutex m) →
      k'.curMutexNum = k.curMutexNum + 1 →
      MutexEffect k k' (some ⟨caller, .create, k.curMutexNum⟩)
  | take (c : TcbPtr) (m : MutexPtr) : (k.gtMutex m).pHoldingTcb = none →
      (k.gtMutex m).bAvailable = false →
      k'.gtMutex = Function.update k.gtMutex m
        { k.gtMutex m with bLock := true, pHoldingTcb := some c } →
      k'.curMutexNum = k.curMutexNum → MutexEffect k k' (some ⟨some c, .lock m.val, 0⟩)
  | release (c : TcbPtr) (m : MutexPtr) : (k.gtMutex m).pHoldingTcb = some c →
      k'.gtMutex = Function.update k.gtMutex m
        { k.gtMutex m with bLock := false, pHoldingTcb := none } →
      k'.curMutexNum = k.curMutexNum → MutexEffect k k' (some ⟨some c, .unlock m.val, 0⟩)

/-- Only the running program holds mutexes, and nobody waits for one. -/
structure Solo (k : Kernel) : Prop where
  owner : ∀ m t, (k.gtMutex m).pHoldingTcb = some t → k.curTcb = some t
  locked : ∀ m, (k.gtMutex m).bLock = true ↔ (k.gtMutex m).pHoldingTcb ≠ none
  alone : ∀ m, (k.gtMutex m).pSleepQueue = none

theorem HighestLocker.solo {live : Finset TcbPtr} {k : Kernel} (locker : HighestLocker live k) :
    Solo k :=
  ⟨locker.owner, locker.locked, locker.alone⟩

theorem Free.solo {k : Kernel} (free : Free k) : Solo k where
  owner m t held := by simp [(free m).1] at held
  locked m := by simp [free m]
  alone m := (free m).2.2

variable {pf : Platform} {k k' : Kernel} {mutex : ℤ} {m : MutexPtr} {c : TcbPtr}
  {s s' : Machine} {label : Label} {history : List Return} {r : Option Return}

/-- A mutex that the running program does not hold is free. -/
theorem Solo.free (solo : Solo k) (other : (k.gtMutex m).pHoldingTcb ≠ k.curTcb) :
    (k.gtMutex m).pHoldingTcb = none ∧ (k.gtMutex m).bLock = false := by
  have unheld : (k.gtMutex m).pHoldingTcb = none := by
    by_contra held
    obtain ⟨t, held⟩ := Option.ne_none_iff_exists'.mp held
    exact other (held.trans (solo.owner m t held).symm)
  refine ⟨unheld, ?_⟩
  rw [← Bool.not_eq_true, solo.locked]
  exact not_not.mpr unheld

theorem mutexCreate_effect (caller : Option TcbPtr) (bound : k.curMutexNum ≤ Config.osNumMutex) :
    MutexEffect k (mutexCreate k).2 (some ⟨caller, .create, (mutexCreate k).1⟩) := by
  unfold mutexCreate
  split
  · refine .quiet (fun x returned => ?_) (.refl k)
    obtain rfl := Option.some.inj returned
    show -Config.enomem < 0
    decide
  · rename_i more
    have code : ((k.curMutexNum + 1 : ℕ) : ℤ) - 1 = k.curMutexNum := by omega
    simp only [code]
    exact .create caller (lt_of_le_of_ne bound more) rfl rfl

/-- An error code changes nothing. -/
theorem MutexEffect.of_error {code : ℤ} {call : MutexCall} (negative : code < 0) :
    MutexEffect k k (some ⟨k.curTcb, call, code⟩) := by
  refine .quiet (fun x returned => ?_) (.refl k)
  obtain rfl := Option.some.inj returned
  exact negative

/-- A task takes a mutex nobody holds. -/
theorem mutexLock_take (valid : validMutex k mutex = some m) (current : k.curTcb = some c)
    (free : (k.gtMutex m).pHoldingTcb = none) (unlocked : (k.gtMutex m).bLock = false) :
    ∃ k', mutexLock k mutex = .ok (.ret 0, k') ∧
      MutexEffect k k' (some ⟨some c, .lock mutex, 0⟩) := by
  obtain ⟨rfl, created⟩ := validMutex_eq_some_iff.mp valid
  have other : k.curTcb ≠ (k.gtMutex m).pHoldingTcb := by simp [current, free]
  refine ⟨mutexLockTail (k.setMutex m { k.gtMutex m with bLock := true }) m c, ?_,
    .take c m free created (by simp) rfl⟩
  simp only [mutexLock, mutexLockEnter_of_free valid other unlocked, Kernel.setMutex_curTcb,
    current]

/-- `mutex_lock` returns at once. -/
theorem Solo.mutexLock (solo : Solo k) (mutex : ℤ) :
    ∃ code k', mutexLock k mutex = .ok (.ret code, k') ∧
      MutexEffect k k' (some ⟨k.curTcb, .lock mutex, code⟩) := by
  cases valid : validMutex k mutex with
  | none => exact ⟨_, _, mutexLock_of_invalid valid, .of_error (by decide)⟩
  | some m =>
    by_cases holder : (k.gtMutex m).pHoldingTcb = k.curTcb
    · exact ⟨_, _, mutexLock_of_holder valid holder.symm, .of_error (by decide)⟩
    · obtain ⟨free, unlocked⟩ := solo.free holder
      -- A caller without a TCB equals the NULL owner and was refused above.
      cases current : k.curTcb with
      | none => exact absurd (free.trans current.symm) holder
      | some c =>
        obtain ⟨k', called, effect⟩ := mutexLock_take valid current free unlocked
        exact ⟨0, k', called, effect⟩

/-- `mutex_unlock` returns at once to a task. -/
theorem Solo.mutexUnlock (solo : Solo k) (current : k.curTcb = some c) (mutex : ℤ) :
    ∃ code k', mutexUnlock k mutex = .ok (code, k') ∧
      MutexEffect k k' (some ⟨k.curTcb, .unlock mutex, code⟩) := by
  cases valid : validMutex k mutex with
  | none => exact ⟨_, _, mutexUnlock_of_invalid valid, .of_error (by decide)⟩
  | some m =>
    by_cases holder : (k.gtMutex m).pHoldingTcb = k.curTcb
    · obtain ⟨rfl, -⟩ := validMutex_eq_some_iff.mp valid
      obtain ⟨k', called, -, -, -, -, mutexes, -, number⟩ :=
        mutexUnlock_of_noWaiter valid current (holder.trans current) (solo.alone m)
      exact ⟨0, k', called, current ▸ .release c m (holder.trans current) mutexes number⟩
    · exact ⟨_, _, mutexUnlock_of_other valid (Ne.symm holder), .of_error (by decide)⟩

/-- What a step of a task does to the mutexes. -/
theorem MutexEffect.of_effect {e : Event} {r : Option Return} (solo : Solo s.kernel)
    (current : s.kernel.curTcb = some c) (bound : s.kernel.curMutexNum ≤ Config.osNumMutex)
    (outside : ∀ m, s.control c ≠ .lockTail m) (effect : s.Effect pf e r k) :
    MutexEffect s.kernel k r := by
  have silent {k' : Kernel} (same : s.kernel.SameMutexes k') : MutexEffect s.kernel k' none :=
    .quiet (by simp) same
  cases effect with
  | mutexCreate => exact mutexCreate_effect _ bound
  | mutexLock called =>
    obtain ⟨code, k', returned, effect⟩ := solo.mutexLock _
    obtain ⟨same, rfl⟩ := Prod.mk.inj (Except.ok.inj (returned.symm.trans called))
    obtain rfl := LockResult.ret.inj same
    exact effect
  | asleep called =>
    obtain ⟨code, k', returned, -⟩ := solo.mutexLock _
    obtain ⟨same, -⟩ := Prod.mk.inj (Except.ok.inj (returned.symm.trans called))
    simp at same
  | mutexUnlock called =>
    obtain ⟨code, k', returned, effect⟩ := solo.mutexUnlock current _
    obtain ⟨rfl, rfl⟩ := Prod.mk.inj (Except.ok.inj (returned.symm.trans called))
    exact effect
  | eventWait called => exact silent (eventWait_mutexes called)
  | taskCreate called => exact silent (taskCreate_mutexes called)
  | user => exact silent (.refl _)
  | devWait _ slept => exact silent (dispatchSleep_mutexes slept)
  | lockTail current' tail =>
    -- No task of the run is inside `mutex_lock`.
    obtain rfl := Option.some.inj (current.symm.trans current')
    exact absurd tail (outside _)
  | tick handled => exact silent (cIrqHandler_mutexes handled)

/-! ### The history -/

/-- The mutexes are what the history of calls says. -/
structure HistoryInv (history : List Return) (k : Kernel) : Prop where
  bound : k.curMutexNum ≤ Config.osNumMutex
  available : ∀ m, (k.gtMutex m).bAvailable = false ↔ m.val < k.curMutexNum
  created : ∀ mutex, Created history mutex ↔ 0 ≤ mutex ∧ mutex < k.curMutexNum
  held : ∀ caller mutex, HeldBy history caller mutex ↔
    caller ≠ none ∧ ∃ m : MutexPtr, mutex = m.val ∧ (k.gtMutex m).pHoldingTcb = caller
  owned : ∀ m, (k.gtMutex m).pHoldingTcb ≠ none → (k.gtMutex m).bAvailable = false

theorem historyInv_boot : HistoryInv [] boot.kernel where
  bound := by decide
  available m := by simp [boot, mutexInit]
  created mutex := by
    have none_yet : (boot.kernel.curMutexNum : ℤ) = 0 := rfl
    rw [none_yet]
    constructor
    · rintro ⟨-, r, member, -⟩
      simp at member
    · omega
  held caller mutex := by
    refine iff_of_false not_since_nil ?_
    rintro ⟨present, m, -, owner⟩
    exact present owner.symm
  owned m owned := absurd rfl owned

/-- The inputs of `HistoryInv` are the mutexes only. -/
theorem HistoryInv.congr (inv : HistoryInv history k) (same : k.SameMutexes k') :
    HistoryInv history k' := by
  obtain ⟨mutexes, number⟩ := same
  exact
    { bound := number ▸ inv.bound
      available := by simpa only [mutexes, number] using inv.available
      created := by simpa only [number] using inv.created
      held := by simpa only [mutexes] using inv.held
      owned := by simpa only [mutexes] using inv.owned }

theorem created_snoc {x : Return} : Created (history ++ [x]) mutex ↔
    Created history mutex ∨ (0 ≤ mutex ∧ x.call = .create ∧ x.code = mutex) := by
  simp only [Created, List.mem_append, List.mem_singleton]
  constructor
  · rintro ⟨nonneg, r, before | rfl, about⟩
    · exact Or.inl ⟨nonneg, r, before, about⟩
    · exact Or.inr ⟨nonneg, about⟩
  · rintro (⟨nonneg, r, before, about⟩ | ⟨nonneg, about⟩)
    · exact ⟨nonneg, r, Or.inl before, about⟩
    · exact ⟨nonneg, x, Or.inr rfl, about⟩

/-- An error is no event of the history. -/
theorem HistoryInv.error {x : Return} (inv : HistoryInv history k) (negative : x.code < 0) :
    HistoryInv (history ++ [x]) k where
  bound := inv.bound
  available := inv.available
  created mutex := by
    rw [created_snoc, inv.created]
    omega
  held caller mutex := by
    have fails (call : MutexCall) : x ≠ ⟨caller, call, 0⟩ := by
      rintro rfl
      simp at negative
    rw [heldBy_snoc, ← inv.held]
    simp [fails]
  owned := inv.owned

theorem HistoryInv.create (inv : HistoryInv history k) (caller : Option TcbPtr)
    (more : k.curMutexNum < Config.osNumMutex)
    (mutexes : k'.gtMutex = fun m =>
      if m.val = k.curMutexNum then { k.gtMutex m with bAvailable := false } else k.gtMutex m)
    (number : k'.curMutexNum = k.curMutexNum + 1) :
    HistoryInv (history ++ [⟨caller, .create, k.curMutexNum⟩]) k' where
  bound := by omega
  available m := by
    have before := inv.available m
    rw [mutexes, number]
    dsimp only
    split
    · simp
      omega
    · rw [before]
      omega
  created mutex := by
    rw [created_snoc, inv.created, number]
    simp only [true_and]
    push_cast
    omega
  held other mutex := by
    have owners (m : MutexPtr) : (k'.gtMutex m).pHoldingTcb = (k.gtMutex m).pHoldingTcb := by
      rw [mutexes]
      dsimp only
      split <;> rfl
    simp only [owners, ← inv.held]
    simp [heldBy_snoc]
  owned m owned := by
    have before := inv.owned m
    rw [mutexes] at owned ⊢
    dsimp only at owned ⊢
    split
    · rfl
    · rename_i other
      rw [if_neg other] at owned
      exact before owned

theorem HistoryInv.take (inv : HistoryInv history k) (free : (k.gtMutex m).pHoldingTcb = none)
    (available : (k.gtMutex m).bAvailable = false)
    (mutexes : k'.gtMutex = Function.update k.gtMutex m
      { k.gtMutex m with bLock := true, pHoldingTcb := some c })
    (number : k'.curMutexNum = k.curMutexNum) :
    HistoryInv (history ++ [⟨some c, .lock m.val, 0⟩]) k' where
  bound := number ▸ inv.bound
  available n := by
    rw [mutexes, number, ← inv.available]
    by_cases same : n = m <;> simp [same]
  created mutex := by
    rw [created_snoc, inv.created, number]
    simp
  held caller mutex := by
    have owner (n : MutexPtr) : (k'.gtMutex n).pHoldingTcb =
        if n = m then some c else (k.gtMutex n).pHoldingTcb := by
      by_cases same : n = m <;> simp [mutexes, same]
    rw [heldBy_snoc, inv.held]
    constructor
    · rintro (took | ⟨-, present, n, rfl, before⟩)
      · obtain ⟨rfl, call, -⟩ := Return.mk.inj took
        obtain rfl := MutexCall.lock.inj call
        exact ⟨by simp, m, rfl, by rw [owner, if_pos rfl]⟩
      · have other : n ≠ m := by
          rintro rfl
          exact present (before.symm.trans free)
        exact ⟨present, n, rfl, by rw [owner, if_neg other, before]⟩
    · rintro ⟨present, n, rfl, after⟩
      by_cases same : n = m
      · subst same
        rw [owner, if_pos rfl] at after
        exact Or.inl (after ▸ rfl)
      · rw [owner, if_neg same] at after
        exact Or.inr ⟨by simp, present, n, rfl, after⟩
  owned n owned := by
    rw [mutexes] at owned ⊢
    by_cases same : n = m
    · simpa [same] using available
    · simpa [same] using inv.owned n (by simpa [same] using owned)

theorem HistoryInv.release (inv : HistoryInv history k)
    (holder : (k.gtMutex m).pHoldingTcb = some c)
    (mutexes : k'.gtMutex = Function.update k.gtMutex m
      { k.gtMutex m with bLock := false, pHoldingTcb := none })
    (number : k'.curMutexNum = k.curMutexNum) :
    HistoryInv (history ++ [⟨some c, .unlock m.val, 0⟩]) k' where
  bound := number ▸ inv.bound
  available n := by
    rw [mutexes, number, ← inv.available]
    by_cases same : n = m <;> simp [same]
  created mutex := by
    rw [created_snoc, inv.created, number]
    simp
  held caller mutex := by
    have owner (n : MutexPtr) : (k'.gtMutex n).pHoldingTcb =
        if n = m then none else (k.gtMutex n).pHoldingTcb := by
      by_cases same : n = m <;> simp [mutexes, same]
    rw [heldBy_snoc, inv.held]
    constructor
    · rintro (never | ⟨kept, present, n, rfl, before⟩)
      · simp at never
      · have other : n ≠ m := by
          rintro rfl
          exact kept (before ▸ holder ▸ rfl)
        exact ⟨present, n, rfl, by rw [owner, if_neg other, before]⟩
    · rintro ⟨present, n, rfl, after⟩
      by_cases same : n = m
      · rw [owner, if_pos same] at after
        exact absurd after.symm present
      · rw [owner, if_neg same] at after
        have unnamed : (m.val : ℤ) ≠ n.val := fun number =>
          same (Fin.ext (Int.ofNat.inj number).symm)
        exact Or.inr ⟨by simp [unnamed], present, n, rfl, after⟩
  owned n owned := by
    rw [mutexes] at owned ⊢
    by_cases same : n = m
    · simp [same] at owned
    · simpa [same] using inv.owned n (by simpa [same] using owned)

/-- Every step keeps the invariant. -/
theorem HistoryInv.effect (inv : HistoryInv history k) (effect : MutexEffect k k' r) :
    HistoryInv (history ++ r.toList) k' := by
  cases effect with
  | quiet negative same =>
    cases r with
    | none => simpa using inv.congr same
    | some x => exact (inv.error (negative x rfl)).congr same
  | create caller more mutexes number => exact inv.create caller more mutexes number
  | take c m free available mutexes number => exact inv.take free available mutexes number
  | release c m holder mutexes number => exact inv.release holder mutexes number

/-! ### The boot program -/

theorem mutexCreate_boot (nobody : k.curTcb = none) (free : Free k) :
    (mutexCreate k).2.curTcb = none ∧ Free (mutexCreate k).2 := by
  unfold mutexCreate
  split
  · exact ⟨nobody, free⟩
  · refine ⟨nobody, fun m => ?_⟩
    dsimp only
    split <;> exact free m

/-- NULL equals the owner of a free mutex, so the boot program cannot take one. -/
theorem mutexLock_boot (nobody : k.curTcb = none) (free : Free k) (mutex : ℤ) :
    ∃ code < 0, mutexLock k mutex = .ok (.ret code, k) := by
  cases valid : validMutex k mutex with
  | none => exact ⟨_, by decide, mutexLock_of_invalid valid⟩
  | some m => exact ⟨_, by decide, mutexLock_of_holder valid (nobody.trans (free m).1.symm)⟩

theorem mutexUnlock_boot (nobody : k.curTcb = none) (free : Free k) (mutex : ℤ) :
    (∃ code < 0, mutexUnlock k mutex = .ok (code, k)) ∨
      mutexUnlock k mutex = .error .nullDeref := by
  cases valid : validMutex k mutex with
  | none => exact Or.inl ⟨_, by decide, mutexUnlock_of_invalid valid⟩
  | some m => exact Or.inr (mutexUnlock_of_boot valid nobody (free m).1)

/-- The boot program leaves every mutex free. -/
theorem boot_step (free : Free s.kernel) (inv : HistoryInv history s.kernel)
    (step : s.BootStep pf label s') :
    s'.kernel.curTcb = none ∧ Free s'.kernel ∧
      HistoryInv (history ++ label.2.toList) s'.kernel := by
  obtain ⟨e, r⟩ := label
  obtain ⟨⟨-, executed⟩, nobody, call⟩ := step
  rcases call with rfl | ⟨mutex, rfl⟩ | ⟨mutex, rfl⟩
  · obtain ⟨rfl, rfl⟩ := Prod.mk.inj (Except.ok.inj executed)
    obtain ⟨nobody', free'⟩ := mutexCreate_boot nobody free
    exact ⟨nobody', free', inv.effect (mutexCreate_effect _ inv.bound)⟩
  · obtain ⟨code, negative, called⟩ := mutexLock_boot nobody free mutex
    simp only [Machine.exec, called] at executed
    obtain ⟨rfl, rfl⟩ := Prod.mk.inj (Except.ok.inj executed)
    exact ⟨nobody, free, inv.error negative⟩
  · rcases mutexUnlock_boot nobody free mutex with ⟨code, negative, called⟩ | fault
    · simp only [Machine.exec, called] at executed
      obtain ⟨rfl, rfl⟩ := Prod.mk.inj (Except.ok.inj executed)
      exact ⟨nobody, free, inv.error negative⟩
    · -- The NULL dereference is not a step.
      simp [Machine.exec, fault] at executed

theorem boot_run {w : List Label} (run : Run (Machine.BootStep pf) boot w s) :
    s.kernel.curTcb = none ∧ Free s.kernel ∧ HistoryInv (returns w) s.kernel := by
  refine run.invariant_trace
    (fun w s => s.kernel.curTcb = none ∧ Free s.kernel ∧ HistoryInv (returns w) s.kernel) ?_ ?_
  · rintro w s label s' ⟨-, free, inv⟩ step
    rw [returns_snoc]
    exact boot_step free inv step
  · exact ⟨rfl, free_boot, historyInv_boot⟩

/-! ### The tasks -/

theorem tasks_run {n : ℕ} {v w : List Label} {t : Machine} (free : Free s.kernel)
    (inv : HistoryInv (returns v) s.kernel) (launched : Launched pf s.kernel n t)
    (run : Run (Machine.TaskStep pf) t w s') :
    HistoryInv (returns (v ++ w)) s'.kernel := by
  induction run with
  | nil =>
    obtain ⟨mem, tasks, numTasks, -, created, -⟩ := launched
    rw [List.append_nil]
    exact inv.congr (taskCreate_mutexes created)
  | snoc before step ih =>
    obtain ⟨view, rep, scheduled⟩ := represents_of_run launched free before
    rw [← List.append_assoc, returns_snoc]
    refine ih.effect (.of_effect rep.highestLocker.solo rep.cur ih.bound (fun m => ?_)
      (Machine.exec_effect step.1.2))
    rw [rep.control _ scheduled.cur_live]
    split <;> simp

/-- In every reached state the mutexes are what the history says, and nobody but the
running program holds one. -/
theorem Reached.historyInv {w : List Label} (reached : Reached pf w s) :
    HistoryInv (returns w) s.kernel ∧ Solo s.kernel := by
  cases reached with
  | boot run =>
    obtain ⟨-, free, inv⟩ := boot_run run
    exact ⟨inv, free.solo⟩
  | tasks first launched rest =>
    obtain ⟨-, free, inv⟩ := boot_run first
    obtain ⟨view, rep, -⟩ := represents_of_run launched free rest
    exact ⟨tasks_run free inv launched rest, rep.highestLocker.solo⟩

/-! ### The codes -/

theorem HistoryInv.valid_iff (inv : HistoryInv history k) :
    validMutex k mutex = none ↔ ¬ Created history mutex := by
  rw [validMutex_eq_none_iff, inv.created]
  constructor
  · rintro invalid ⟨nonneg, below⟩
    have inside : mutex.toNat < Config.osNumMutex := by
      have := inv.bound
      omega
    have available := invalid ⟨mutex.toNat, inside⟩ (by simp [nonneg])
    have := (inv.available ⟨mutex.toNat, inside⟩).mpr (by simp only; omega)
    rw [available] at this
    simp at this
  · rintro unknown m rfl
    by_contra available
    exact unknown ⟨by omega, by
      exact_mod_cast (inv.available m).mp (by simpa using available)⟩

/-- A call that returns has one code. -/
theorem exists_ret_iff {call : Except Fault (LockResult × Kernel)} {code code' : ℤ}
    (called : call = .ok (.ret code', k')) :
    (∃ k', call = .ok (.ret code, k')) ↔ code = code' := by
  subst called
  simp [eq_comm]

theorem exists_code_iff {call : Except Fault (ℤ × Kernel)} {code code' : ℤ}
    (called : call = .ok (code', k')) : (∃ k', call = .ok (code, k')) ↔ code = code' := by
  subst called
  simp [eq_comm]

/-- A number that names no mutex gives the documented codes to every caller. -/
theorem HistoryInv.resultCodes_of_unknown (inv : HistoryInv history k)
    (unknown : ¬ Created history mutex) : ResultCodes history k mutex := by
  have invalid := inv.valid_iff.mpr unknown
  have locked := mutexLock_of_invalid invalid
  have unlocked := mutexUnlock_of_invalid invalid
  refine ⟨iff_of_true ⟨_, locked⟩ unknown, iff_of_true ⟨_, unlocked⟩ unknown,
    fun created => absurd created unknown, fun created => absurd created unknown,
    fun created => absurd created unknown, fun code _ k' called => ?_, fun code _ k' called => ?_⟩
  · obtain ⟨-, rfl⟩ := Prod.mk.inj (Except.ok.inj (locked.symm.trans called))
    exact ⟨rfl, rfl⟩
  · obtain ⟨-, rfl⟩ := Prod.mk.inj (Except.ok.inj (unlocked.symm.trans called))
    exact ⟨rfl, rfl⟩

/-- A caller with a TCB gets the documented codes for every mutex. -/
theorem HistoryInv.resultCodes_of_task (inv : HistoryInv history k) (solo : Solo k)
    (current : k.curTcb = some c) (created : Created history mutex) :
    ResultCodes history k mutex := by
  obtain ⟨m, valid⟩ := Option.ne_none_iff_exists'.mp (mt inv.valid_iff.mp (not_not.mpr created))
  obtain ⟨rfl, -⟩ := validMutex_eq_some_iff.mp valid
  have held_iff : HeldBy history k.curTcb m.val ↔ (k.gtMutex m).pHoldingTcb = some c := by
    rw [inv.held, current]
    constructor
    · rintro ⟨-, n, same, holder⟩
      obtain rfl := Fin.ext (Int.ofNat.inj same)
      exact holder
    · exact fun holder => ⟨by simp, m, rfl, holder⟩
  by_cases holder : (k.gtMutex m).pHoldingTcb = some c
  · have locked := mutexLock_of_holder valid (current.trans holder.symm)
    obtain ⟨k₁, unlocked, -⟩ := mutexUnlock_of_noWaiter valid current holder (solo.alone m)
    have held := held_iff.mpr holder
    refine ⟨?_, ?_, fun _ => ?_, fun _ => ?_, fun _ other => absurd held other,
      fun code _ k' called => ?_, fun code negative k' called => ?_⟩
    · exact iff_of_false (mt (exists_ret_iff locked).mp (by decide)) (not_not.mpr created)
    · exact iff_of_false (mt (exists_code_iff unlocked).mp (by decide)) (not_not.mpr created)
    · exact iff_of_true ⟨_, locked⟩ held
    · exact iff_of_true ⟨_, unlocked⟩ held
    · obtain ⟨-, rfl⟩ := Prod.mk.inj (Except.ok.inj (locked.symm.trans called))
      exact ⟨rfl, rfl⟩
    · obtain rfl := (exists_code_iff unlocked).mp ⟨k', called⟩
      exact absurd negative (lt_irrefl 0)
  · have other : (k.gtMutex m).pHoldingTcb ≠ k.curTcb := current ▸ holder
    obtain ⟨free, open_⟩ := solo.free other
    obtain ⟨k₁, locked, -⟩ := mutexLock_take valid current free open_
    have unlocked := mutexUnlock_of_other valid (Ne.symm other)
    have unheld : ¬ HeldBy history k.curTcb m.val := mt held_iff.mp holder
    refine ⟨?_, ?_, fun _ => ?_, fun _ => ?_, fun _ _ => ⟨_, unlocked⟩,
      fun code negative k' called => ?_, fun code _ k' called => ?_⟩
    · exact iff_of_false (mt (exists_ret_iff locked).mp (by decide)) (not_not.mpr created)
    · exact iff_of_false (mt (exists_code_iff unlocked).mp (by decide)) (not_not.mpr created)
    · exact iff_of_false (mt (exists_ret_iff locked).mp (by decide)) unheld
    · exact iff_of_false (mt (exists_code_iff unlocked).mp (by decide)) unheld
    · obtain rfl := (exists_ret_iff locked).mp ⟨k', called⟩
      exact absurd negative (lt_irrefl 0)
    · obtain ⟨-, rfl⟩ := Prod.mk.inj (Except.ok.inj (unlocked.symm.trans called))
      exact ⟨rfl, rfl⟩

/-- A caller without a TCB is told of a deadlock on any mutex. -/
theorem HistoryInv.not_resultCodes_of_boot (inv : HistoryInv history k) (solo : Solo k)
    (nobody : k.curTcb = none) (created : Created history mutex) :
    ¬ ResultCodes history k mutex := by
  intro codes
  obtain ⟨m, valid⟩ := Option.ne_none_iff_exists'.mp (mt inv.valid_iff.mp (not_not.mpr created))
  have free : (k.gtMutex m).pHoldingTcb = none := by
    by_contra held
    obtain ⟨t, held⟩ := Option.ne_none_iff_exists'.mp held
    simp [solo.owner m t held] at nobody
  -- The code claims a lock, but the history has no caller without a TCB that took one.
  have held := (codes.lock_deadlock created).mp
    ⟨k, mutexLock_of_holder valid (nobody.trans free.symm)⟩
  exact ((inv.held _ _).mp held).1 nobody

/-- The codes are exact for every caller with a TCB, and for every number that names no
mutex; for the boot program and a created mutex they are not. -/
theorem resultCodes_iff {w : List Label} (reached : Reached pf w s) (mutex : ℤ) :
    ResultCodes (returns w) s.kernel mutex ↔
      s.kernel.curTcb ≠ none ∨ ¬ Created (returns w) mutex := by
  obtain ⟨inv, solo⟩ := reached.historyInv
  constructor
  · intro codes
    by_contra! boot_created
    exact inv.not_resultCodes_of_boot solo boot_created.1 boot_created.2 codes
  · intro condition
    by_cases created : Created (returns w) mutex
    · obtain ⟨c, current⟩ := Option.ne_none_iff_exists'.mp (condition.resolve_right
        (not_not.mpr created))
      exact inv.resultCodes_of_task solo current created
    · exact inv.resultCodes_of_unknown created

theorem resultCodes_twoTasks :
    ∃ w s, Reached exactPlatform w s ∧ (s.kernel.gtMutex 0).pHoldingTcb = some 1 ∧
      ResultCodes (returns w) s.kernel 0 := by
  obtain ⟨s, w, s', launched, run, held⟩ := exists_locked_run
  have reached : Reached exactPlatform ([] ++ w) s' := .tasks (.nil boot) launched run
  have current := reached.historyInv.2.owner 0 1 held
  exact ⟨_, s', reached, held, (resultCodes_iff reached 0).mpr (Or.inl (by simp [current]))⟩

/-- The general statement fails: after its first `mutex_create` the boot program gets
-EDEADLOCK for a mutex it has never locked. -/
theorem mutexLock_misreports_boot :
    ¬ ∀ w s, Reached exactPlatform w s → ∀ mutex, ResultCodes (returns w) s.kernel mutex := by
  intro exact
  have enabled : boot.Enabled .mutexCreate := by decide
  have run : Run (Machine.BootStep exactPlatform) boot
      ([] ++ [(.mutexCreate, some ⟨none, .create, 0⟩)])
      { boot with kernel := (mutexCreate boot.kernel).2 } :=
    .snoc (.nil boot) ⟨⟨enabled, rfl⟩, rfl, Or.inl rfl⟩
  have created : Created [⟨none, .create, 0⟩] 0 := ⟨le_rfl, _, List.mem_singleton_self _, rfl, rfl⟩
  have codes := exact _ _ (.boot run) 0
  have locked : mutexLock (mutexCreate boot.kernel).2 0 =
      .ok (.ret (-Config.edeadlock), (mutexCreate boot.kernel).2) := rfl
  have held := (codes.lock_deadlock created).mp ⟨_, locked⟩
  have held' : HeldBy ([] ++ [⟨none, .create, 0⟩]) none 0 := held
  rcases heldBy_snoc.mp held' with took | ⟨-, before⟩
  · simp at took
  · exact not_since_nil before

end Gravel
