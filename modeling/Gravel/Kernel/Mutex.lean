import Gravel.Kernel.Dispatch
import Gravel.Library.Chain

/-!
# Mutexes

The functions of `mutex.c`. `mutex_lock` has two halves. The first returns a code
or reaches `dispatch_sleep()`; the second is the tail that the caller executes
when it runs again, or at once when the mutex was free.

## Main definitions

* `mutexInit`, `mutexCreate`, `mutexLock`, `mutexUnlock`
* `mutexCreateEnter`, `mutexCreateReturn` — `mutex_create` up to `enable_interrupts`, and
  after it
* `mutexLockEnter` — `mutex_lock` up to its return or its call of `dispatch_sleep`
* `mutexLockTail` — the statements after it
* `validMutex` — the check of the mutex number both calls make
* `Kernel.OnlyLocks` — what no lock or unlock writes
-/

namespace Gravel

open Library

/-- Every mutex is free, without waiters, and not created. -/
def mutexInit (s : Kernel) : Kernel :=
  { s with
    gtMutex := fun _ =>
      { bAvailable := true, pHoldingTcb := none, bLock := false, pSleepQueue := none }
    curMutexNum := 0 }

def mutexCreate (s : Kernel) : ℤ × Kernel :=
  if s.curMutexNum = Config.osNumMutex then (-Config.enomem, s)
  else
    let s := { s with
      gtMutex := fun m =>
        if m.val = s.curMutexNum then { s.gtMutex m with bAvailable := false } else s.gtMutex m
      curMutexNum := s.curMutexNum + 1 }
    ((s.curMutexNum : ℤ) - 1, s)

/-- `mutex_create` up to `enable_interrupts()`: the mutex it has made available, or `none`
when there is none left. -/
def mutexCreateEnter (s : Kernel) : Option ℕ × Kernel :=
  if s.curMutexNum = Config.osNumMutex then (none, s)
  else (some s.curMutexNum, (mutexCreate s).2)

/-- What `mutex_create` returns: it looks at the counter again, with interrupts enabled. -/
def mutexCreateReturn (s : Kernel) : Option ℕ → ℤ
  | none => -Config.enomem
  | some _ => (s.curMutexNum : ℤ) - 1

/-- The mutex a number names, if it is in range and has been created. -/
def validMutex (s : Kernel) (mutex : ℤ) : Option MutexPtr :=
  if h : 0 ≤ mutex ∧ mutex.toNat < Config.osNumMutex then
    let m : MutexPtr := ⟨mutex.toNat, h.2⟩
    -- `bAvailable` is true of the mutexes that were not created.
    if (s.gtMutex m).bAvailable then none else some m
  else none

/-- Where the first half of `mutex_lock` ends. -/
inductive LockStop
  /-- The call returns this code. -/
  | ret (code : ℤ)
  /-- The mutex was free: the tail follows at once. -/
  | acquire (m : MutexPtr)
  /-- The caller is in the sleep queue and calls `dispatch_sleep`. -/
  | sleep (m : MutexPtr)
  deriving DecidableEq

/-- Append the caller to the sleep queue of a mutex: clear its link, walk to the
last waiter, and link that one to it. -/
def enqueueWaiter (s : Kernel) (m : MutexPtr) (cur : TcbPtr) : Except Fault Kernel :=
  let s := s.setTcb cur { s.systemTcb cur with sleepQueue := none }
  match (s.gtMutex m).pSleepQueue with
  | none => .ok (s.setMutex m { s.gtMutex m with pSleepQueue := some cur })
  | some first =>
    -- `while (tcb_iterator->sleep_queue)`
    match lastLink s.link Config.osMaxTasks first with
    | none => .error .divergence
    | some last => .ok (s.setTcb last { s.systemTcb last with sleepQueue := some cur })

def mutexLockEnter (s : Kernel) (mutex : ℤ) : Except Fault (LockStop × Kernel) :=
  match validMutex s mutex with
  | none => .ok (.ret (-Config.einval), s)
  | some m =>
    -- Pointer equality: it also holds when nobody holds the mutex and `cur_tcb` is NULL.
    if s.curTcb = (s.gtMutex m).pHoldingTcb then .ok (.ret (-Config.edeadlock), s)
    else if (s.gtMutex m).bLock then
      match s.curTcb with
      | none => .error .nullDeref
      | some cur =>
        match enqueueWaiter s m cur with
        | .error fault => .error fault
        | .ok s => .ok (.sleep m, s)
    else .ok (.acquire m, s.setMutex m { s.gtMutex m with bLock := true })

/-- The caller `cur` takes the mutex and runs at the ceiling. -/
def mutexLockTail (s : Kernel) (m : MutexPtr) (cur : TcbPtr) : Kernel :=
  let s := s.setMutex m { s.gtMutex m with pHoldingTcb := some cur }
  s.setTcb cur { s.systemTcb cur with
    holdsLock := (s.systemTcb cur).holdsLock + 1
    curPrio := Config.highestPrio }

/-- What a caller of `mutex_lock` sees of the call. -/
inductive LockResult
  /-- The call returns this code. -/
  | ret (code : ℤ)
  /-- The caller was switched out in `dispatch_sleep`, waiting for this mutex. -/
  | asleep (m : MutexPtr)
  deriving DecidableEq

/-- `mutex_lock`, up to its return or up to the switch in `dispatch_sleep`. -/
def mutexLock (s : Kernel) (mutex : ℤ) : Except Fault (LockResult × Kernel) :=
  match mutexLockEnter s mutex with
  | .error fault => .error fault
  | .ok (.ret code, s) => .ok (.ret code, s)
  | .ok (.acquire m, s) =>
    match s.curTcb with
    | none => .error .nullDeref
    | some cur => .ok (.ret 0, mutexLockTail s m cur)
  | .ok (.sleep m, s) =>
    match dispatchSleep s with
    | .error fault => .error fault
    | .ok s => .ok (.asleep m, s)

def mutexUnlock (s : Kernel) (mutex : ℤ) : Except Fault (ℤ × Kernel) :=
  match validMutex s mutex with
  | none => .ok (-Config.einval, s)
  | some m =>
    if s.curTcb ≠ (s.gtMutex m).pHoldingTcb then .ok (-Config.eperm, s)
    else
      -- A waiter gets the mutex before it runs: `bLock` stays set and the owner is never NULL.
      let taskToWaken := (s.gtMutex m).pSleepQueue
      let s :=
        match taskToWaken with
        | some w =>
          let s := s.setMutex m { s.gtMutex m with pSleepQueue := (s.systemTcb w).sleepQueue }
          let s := s.setTcb w { s.systemTcb w with sleepQueue := none }
          { s with runQueue := runqueueAdd s.runQueue w (s.systemTcb w).curPrio }
        | none => s.setMutex m { s.gtMutex m with bLock := false }
      let s := s.setMutex m { s.gtMutex m with pHoldingTcb := taskToWaken }
      match s.curTcb with
      | none => .error .nullDeref
      | some cur =>
        let s := s.setTcb cur
          { s.systemTcb cur with holdsLock := (s.systemTcb cur).holdsLock - 1 }
        if (s.systemTcb cur).holdsLock = 0 then
          .ok (0, s.setTcb cur
            { s.systemTcb cur with curPrio := (s.systemTcb cur).nativePrio })
        else .ok (0, s)

/-- Uninterrupted, the two parts are the call. -/
theorem mutexCreate_eq (s : Kernel) : mutexCreate s =
    (mutexCreateReturn (mutexCreateEnter s).2 (mutexCreateEnter s).1, (mutexCreateEnter s).2) := by
  by_cases full : s.curMutexNum = Config.osNumMutex
  · simp [mutexCreate, mutexCreateEnter, mutexCreateReturn, full]
  · simp [mutexCreate, mutexCreateEnter, mutexCreateReturn, full]

/-! ### The checks of the mutex number -/

variable {s : Kernel} {mutex : ℤ} {m : MutexPtr} {c : TcbPtr}

theorem validMutex_eq_some_iff :
    validMutex s mutex = some m ↔ mutex = m.val ∧ (s.gtMutex m).bAvailable = false := by
  unfold validMutex
  split
  · rename_i inside
    rw [Option.ite_none_left_eq_some, Option.some.injEq, Bool.not_eq_true]
    constructor
    · rintro ⟨created, rfl⟩
      exact ⟨by simp [inside.1], created⟩
    · rintro ⟨rfl, created⟩
      exact ⟨created, rfl⟩
  · rename_i outside
    simp only [reduceCtorEq, false_iff, not_and]
    rintro rfl
    exact absurd ⟨by simp, by simp⟩ outside

/-- A number names no mutex when it is out of range or its mutex was not created. -/
theorem validMutex_eq_none_iff :
    validMutex s mutex = none ↔
      ∀ m : MutexPtr, mutex = m.val → (s.gtMutex m).bAvailable = true := by
  rw [Option.eq_none_iff_forall_ne_some]
  simp only [ne_eq, validMutex_eq_some_iff, not_and, Bool.not_eq_false]

/-! ### The outcomes of the calls -/

theorem mutexLock_of_invalid (invalid : validMutex s mutex = none) :
    mutexLock s mutex = .ok (.ret (-Config.einval), s) := by
  simp [mutexLock, mutexLockEnter, invalid]

theorem mutexLock_of_holder (valid : validMutex s mutex = some m)
    (holder : s.curTcb = (s.gtMutex m).pHoldingTcb) :
    mutexLock s mutex = .ok (.ret (-Config.edeadlock), s) := by
  simp [mutexLock, mutexLockEnter, valid, holder]

theorem mutexLockEnter_of_free (valid : validMutex s mutex = some m)
    (other : s.curTcb ≠ (s.gtMutex m).pHoldingTcb) (free : (s.gtMutex m).bLock = false) :
    mutexLockEnter s mutex =
      .ok (.acquire m, s.setMutex m { s.gtMutex m with bLock := true }) := by
  simp [mutexLockEnter, valid, other, free]

@[simp] theorem mutexLockTail_link : (mutexLockTail s m c).link = s.link := by
  simp [mutexLockTail, Kernel.link]

@[simp] theorem mutexLockTail_gtMutex : (mutexLockTail s m c).gtMutex =
    Function.update s.gtMutex m { s.gtMutex m with pHoldingTcb := some c } := by
  simp [mutexLockTail]

theorem mutexLockTail_holdsLock (t : TcbPtr) : ((mutexLockTail s m c).systemTcb t).holdsLock =
    (s.systemTcb t).holdsLock + if t = c then 1 else 0 := by
  by_cases same : t = c <;> simp [mutexLockTail, same]

/-- A free mutex is taken at once. -/
theorem mutexLock_of_free (valid : validMutex s mutex = some m) (current : s.curTcb = some c)
    (other : (s.gtMutex m).pHoldingTcb ≠ some c) (free : (s.gtMutex m).bLock = false) :
    ∃ s', mutexLock s mutex = .ok (.ret 0, s') ∧
      s'.curTcb = s.curTcb ∧ s'.runQueue = s.runQueue ∧ s'.devices = s.devices ∧
      s'.link = s.link ∧
      s'.gtMutex = Function.update s.gtMutex m
        { s.gtMutex m with bLock := true, pHoldingTcb := some c } ∧
      s'.systemTcb = Function.update s.systemTcb c
        { s.systemTcb c with
          holdsLock := (s.systemTcb c).holdsLock + 1
          curPrio := Config.highestPrio } := by
  have entered := mutexLockEnter_of_free valid (fun same => other (current ▸ same).symm) free
  refine ⟨mutexLockTail (s.setMutex m { s.gtMutex m with bLock := true }) m c, ?_, rfl, rfl,
    rfl, ?_, ?_, rfl⟩
  · simp only [mutexLock, entered, Kernel.setMutex_curTcb, current]
  · simp
  · simp

/-- The caller is appended to the waiters, and lists that share no task with them or with
the caller stay what they are. -/
theorem enqueueWaiter_eq_ok {l : List TcbPtr}
    (waiters : Chain s.link (s.gtMutex m).pSleepQueue l) (fresh : c ∉ l) :
    ∃ s' head, enqueueWaiter s m c = .ok s' ∧
      s'.gtMutex = Function.update s.gtMutex m { s.gtMutex m with pSleepQueue := head } ∧
      Chain s'.link head (l ++ [c]) ∧
      (∀ p r, Chain s.link p r → c ∉ r → (∀ t ∈ r, t ∉ l) → Chain s'.link p r) ∧
      ∀ t, (s'.systemTcb t).holdsLock = (s.systemTcb t).holdsLock := by
  have cleared (p : Option TcbPtr) (r : List TcbPtr) (chain : Chain s.link p r)
      (outside : c ∉ r) : Chain (Function.update s.link c none) p r :=
    chain.update_of_notMem outside
  rcases List.eq_nil_or_concat l with rfl | ⟨l, z, rfl⟩
  · -- No waiter yet: the caller becomes the head.
    have empty : (s.gtMutex m).pSleepQueue = none := waiters
    refine ⟨_, some c, by simp only [enqueueWaiter, Kernel.setTcb_gtMutex, empty]; rfl, ?_, ?_,
      fun p r chain outside _ => ?_, fun t => ?_⟩
    · simp
    · simp
    · simpa using cleared p r chain outside
    · by_cases same : t = c <;> simp [same]
  · -- The walk from the head ends at the last waiter `z`, whose link is overwritten.
    rw [List.concat_eq_append] at waiters fresh ⊢
    have chain := cleared _ _ waiters fresh
    cases first : (s.gtMutex m).pSleepQueue with
    | none =>
      rw [first] at chain
      cases l <;> simp at chain
    | some a =>
      rw [first] at chain
      have last : lastLink (Function.update s.link c none) Config.osMaxTasks a = some z :=
        chain.lastLink_eq
      refine ⟨_, some a, by
        simp only [enqueueWaiter, Kernel.setTcb_gtMutex, first, Kernel.setTcb_link, last]; rfl,
        ?_, ?_, fun p r chain outside disjoint => ?_, fun t => ?_⟩
      · simp [← first]
      · rw [first] at waiters
        simpa using waiters.snoc_update fresh
      · have away : z ∉ r := fun member => disjoint z member (by simp)
        simpa using (cleared p r chain outside).update_of_notMem (q := some c) away
      · by_cases same : t = z <;> by_cases same' : t = c <;> simp [same, same'] <;> grind

/-- The caller of `mutex_lock` on a mutex another task holds is appended to its waiters. -/
theorem mutexLockEnter_of_locked {l : List TcbPtr} (valid : validMutex s mutex = some m)
    (current : s.curTcb = some c) (other : (s.gtMutex m).pHoldingTcb ≠ some c)
    (locked : (s.gtMutex m).bLock = true)
    (waiters : Chain s.link (s.gtMutex m).pSleepQueue l) (fresh : c ∉ l) :
    ∃ s' head, mutexLockEnter s mutex = .ok (.sleep m, s') ∧
      s'.gtMutex = Function.update s.gtMutex m { s.gtMutex m with pSleepQueue := head } ∧
      Chain s'.link head (l ++ [c]) ∧
      (∀ p r, Chain s.link p r → c ∉ r → (∀ t ∈ r, t ∉ l) → Chain s'.link p r) ∧
      ∀ t, (s'.systemTcb t).holdsLock = (s.systemTcb t).holdsLock := by
  have different : ¬ some c = (s.gtMutex m).pHoldingTcb := fun same => other same.symm
  obtain ⟨s', head, queued, rest⟩ := enqueueWaiter_eq_ok waiters fresh
  refine ⟨s', head, ?_, rest⟩
  simp only [mutexLockEnter, valid, current, different, if_false, locked, if_true, queued]

theorem mutexUnlock_of_invalid (invalid : validMutex s mutex = none) :
    mutexUnlock s mutex = .ok (-Config.einval, s) := by
  simp [mutexUnlock, invalid]

theorem mutexUnlock_of_other (valid : validMutex s mutex = some m)
    (other : s.curTcb ≠ (s.gtMutex m).pHoldingTcb) :
    mutexUnlock s mutex = .ok (-Config.eperm, s) := by
  simp [mutexUnlock, valid, other]

/-- Without a waiter the mutex becomes free, and the last release restores the
native priority. -/
theorem mutexUnlock_of_noWaiter (valid : validMutex s mutex = some m)
    (current : s.curTcb = some c) (holder : (s.gtMutex m).pHoldingTcb = some c)
    (alone : (s.gtMutex m).pSleepQueue = none) :
    ∃ s', mutexUnlock s mutex = .ok (0, s') ∧
      s'.curTcb = s.curTcb ∧ s'.runQueue = s.runQueue ∧ s'.devices = s.devices ∧
      s'.link = s.link ∧
      s'.gtMutex = Function.update s.gtMutex m
        { s.gtMutex m with bLock := false, pHoldingTcb := none } ∧
      s'.systemTcb = Function.update s.systemTcb c
        { s.systemTcb c with
          holdsLock := (s.systemTcb c).holdsLock - 1
          curPrio :=
            if (s.systemTcb c).holdsLock - 1 = 0 then (s.systemTcb c).nativePrio
            else (s.systemTcb c).curPrio } ∧
      s'.curMutexNum = s.curMutexNum := by
  by_cases last : (s.systemTcb c).holdsLock - 1 = 0
  · refine ⟨_, by simp [mutexUnlock, valid, current, holder, alone, last]; rfl, ?_⟩
    refine ⟨rfl, rfl, rfl, ?_, ?_, ?_, rfl⟩ <;> simp [Kernel.link, last, alone]
  · refine ⟨_, by simp [mutexUnlock, valid, current, holder, alone, last]; rfl, ?_⟩
    refine ⟨rfl, rfl, rfl, ?_, ?_, ?_, rfl⟩ <;> simp [Kernel.link, last, alone]

/-- With waiters the mutex stays locked and goes to the first of them, which is queued. -/
theorem mutexUnlock_of_waiter {a : TcbPtr} (valid : validMutex s mutex = some m)
    (current : s.curTcb = some c) (holder : (s.gtMutex m).pHoldingTcb = some c)
    (waiting : (s.gtMutex m).pSleepQueue = some a) :
    ∃ s', mutexUnlock s mutex = .ok (0, s') ∧
      s'.gtMutex = Function.update s.gtMutex m
        { s.gtMutex m with pSleepQueue := s.link a, pHoldingTcb := some a } ∧
      s'.runQueue = runqueueAdd s.runQueue a (s.systemTcb a).curPrio ∧
      s'.link = Function.update s.link a none ∧
      ∀ t, (s'.systemTcb t).holdsLock =
        (s.systemTcb t).holdsLock - if t = c then 1 else 0 := by
  -- The waiter and the caller may be one TCB as far as the code goes.
  let left := s.setTcb a { s.systemTcb a with sleepQueue := none }
  have holds (t : TcbPtr) : (left.systemTcb t).holdsLock = (s.systemTcb t).holdsLock := by
    by_cases same : t = a <;> simp [left, same]
  -- The last release differs in the priority of the caller only.
  have opened : ∃ s' tcb, mutexUnlock s mutex = .ok (0, s') ∧
      s'.gtMutex = Function.update s.gtMutex m
        { s.gtMutex m with pSleepQueue := s.link a, pHoldingTcb := some a } ∧
      s'.runQueue = runqueueAdd s.runQueue a (s.systemTcb a).curPrio ∧
      s'.systemTcb = Function.update left.systemTcb c tcb ∧
      tcb.holdsLock = (left.systemTcb c).holdsLock - 1 ∧ tcb.sleepQueue = left.link c := by
    by_cases last : (left.systemTcb c).holdsLock - 1 = 0
    · refine ⟨_, { left.systemTcb c with
          holdsLock := 0
          curPrio := (left.systemTcb c).nativePrio },
        by simp [left] at last; simp [mutexUnlock, valid, current, holder, waiting, last]; rfl,
        ?_, ?_, ?_, last.symm, rfl⟩ <;> simp [left, Kernel.link]
    · refine ⟨_, { left.systemTcb c with holdsLock := (left.systemTcb c).holdsLock - 1 },
        by simp [left] at last; simp [mutexUnlock, valid, current, holder, waiting, last]; rfl,
        ?_, ?_, ?_, rfl, rfl⟩ <;> simp [left, Kernel.link]
  obtain ⟨s', tcb, called, mutexes, queue, tcbs, count, link⟩ := opened
  refine ⟨s', called, mutexes, queue, ?_, fun t => ?_⟩
  · funext t
    have cleared : left.link t = Function.update s.link a none t := by simp [left]
    rw [← cleared, Kernel.link, tcbs]
    by_cases same : t = c
    · rw [same, Function.update_self, link]
    · rw [Function.update_of_ne same, Kernel.link]
  · rw [tcbs]
    by_cases same : t = c
    · rw [same, Function.update_self, count, holds, if_pos rfl]
    · rw [Function.update_of_ne same, holds, if_neg same, Int.sub_zero]

/-- The boot program faults on a free mutex: its NULL TCB equals the NULL owner. -/
theorem mutexUnlock_of_boot (valid : validMutex s mutex = some m) (current : s.curTcb = none)
    (free : (s.gtMutex m).pHoldingTcb = none) :
    mutexUnlock s mutex = .error .nullDeref := by
  simp only [mutexUnlock, valid, current, free, ne_eq, not_true_eq_false, if_false]
  cases (s.gtMutex m).pSleepQueue <;> simp [current]

/-! ### What the calls do not write -/

section Frame

variable {s' s'' : Kernel} {code : ℤ} {stop : LockStop} {result : LockResult}

theorem update_bAvailable {f : MutexPtr → Mutex} {x : Mutex}
    (same : x.bAvailable = (f m).bAvailable) (m' : MutexPtr) :
    (Function.update f m x m').bAvailable = (f m').bAvailable := by
  by_cases own : m' = m
  · subst own
    simpa using same
  · simp [own]

/-- The devices, the clock, and which mutexes exist are what they were. -/
structure Kernel.OnlyLocks (s s' : Kernel) : Prop where
  devices : s'.devices = s.devices
  sysTime : s'.sysTime = s.sysTime
  curMutexNum : s'.curMutexNum = s.curMutexNum
  bAvailable : ∀ m, (s'.gtMutex m).bAvailable = (s.gtMutex m).bAvailable

theorem Kernel.OnlyLocks.refl (s : Kernel) : s.OnlyLocks s := ⟨rfl, rfl, rfl, fun _ => rfl⟩

theorem Kernel.OnlyLocks.trans (first : s.OnlyLocks s') (second : s'.OnlyLocks s'') :
    s.OnlyLocks s'' where
  devices := second.devices.trans first.devices
  sysTime := second.sysTime.trans first.sysTime
  curMutexNum := second.curMutexNum.trans first.curMutexNum
  bAvailable m := (second.bAvailable m).trans (first.bAvailable m)

theorem Kernel.OnlySwitched.onlyLocks (only : s.OnlySwitched s') : s.OnlyLocks s' where
  devices := only.devices
  sysTime := only.sysTime
  curMutexNum := only.curMutexNum
  bAvailable _ := by rw [only.gtMutex]

theorem enqueueWaiter_onlyLocks (queued : enqueueWaiter s m c = .ok s') : s.OnlyLocks s' := by
  simp only [enqueueWaiter] at queued
  split at queued
  · obtain rfl := Except.ok.inj queued
    exact ⟨rfl, rfl, rfl, update_bAvailable rfl⟩
  · split at queued
    · simp at queued
    · obtain rfl := Except.ok.inj queued
      exact ⟨rfl, rfl, rfl, fun _ => rfl⟩

theorem mutexLockEnter_onlyLocks (entered : mutexLockEnter s mutex = .ok (stop, s')) :
    s.OnlyLocks s' := by
  simp only [mutexLockEnter] at entered
  split at entered
  · obtain ⟨-, rfl⟩ := Prod.mk.inj (Except.ok.inj entered)
    exact .refl s
  · split_ifs at entered
    · obtain ⟨-, rfl⟩ := Prod.mk.inj (Except.ok.inj entered)
      exact .refl s
    · split at entered
      · simp at entered
      · split at entered
        · simp at entered
        · rename_i queued
          obtain ⟨-, rfl⟩ := Prod.mk.inj (Except.ok.inj entered)
          exact enqueueWaiter_onlyLocks queued
    · obtain ⟨-, rfl⟩ := Prod.mk.inj (Except.ok.inj entered)
      exact ⟨rfl, rfl, rfl, update_bAvailable rfl⟩

theorem mutexLockTail_onlyLocks : s.OnlyLocks (mutexLockTail s m c) :=
  ⟨rfl, rfl, rfl, update_bAvailable rfl⟩

theorem mutexLock_onlyLocks (called : mutexLock s mutex = .ok (result, s')) : s.OnlyLocks s' := by
  simp only [mutexLock] at called
  split at called
  · simp at called
  · rename_i entered
    obtain ⟨-, rfl⟩ := Prod.mk.inj (Except.ok.inj called)
    exact mutexLockEnter_onlyLocks entered
  · rename_i entered
    split at called
    · simp at called
    · obtain ⟨-, rfl⟩ := Prod.mk.inj (Except.ok.inj called)
      exact (mutexLockEnter_onlyLocks entered).trans mutexLockTail_onlyLocks
  · rename_i entered
    split at called
    · simp at called
    · rename_i slept
      obtain ⟨-, rfl⟩ := Prod.mk.inj (Except.ok.inj called)
      exact (mutexLockEnter_onlyLocks entered).trans (dispatchSleep_onlySwitched slept).onlyLocks

theorem mutexUnlock_onlyLocks (called : mutexUnlock s mutex = .ok (code, s')) :
    s.OnlyLocks s' := by
  simp only [mutexUnlock] at called
  split at called
  · obtain ⟨-, rfl⟩ := Prod.mk.inj (Except.ok.inj called)
    exact .refl s
  · rename_i m valid
    split_ifs at called
    · obtain ⟨-, rfl⟩ := Prod.mk.inj (Except.ok.inj called)
      exact .refl s
    · have twice {x y : Mutex} (first : x.bAvailable = (s.gtMutex m).bAvailable)
          (second : y.bAvailable = x.bAvailable) (m' : MutexPtr) :
          (Function.update (Function.update s.gtMutex m x) m y m').bAvailable =
            (s.gtMutex m').bAvailable := by
        rw [Function.update_idem, update_bAvailable (second.trans first)]
      cases waiter : (s.gtMutex m).pSleepQueue
      all_goals
        simp only [waiter] at called
        split at called
        · simp at called
        · split_ifs at called
          all_goals
            obtain ⟨-, rfl⟩ := Prod.mk.inj (Except.ok.inj called)
            exact ⟨rfl, rfl, rfl, twice rfl (by simp)⟩

end Frame

end Gravel
