import Gravel.Kernel.Machine
import Gravel.Library.HandOffLocks

/-!
# The mutex layer under any scheduling

Here any task may run at any time, except that a task in the sleep queue of a mutex makes
no step until `mutex_unlock` has put it into the run queue, and then continues with the tail
of `mutex_lock`. The calls are those of `mutex.c` on the kernel state; which task runs is
left open, so `dispatch_sleep()` is the point at which a caller stops, and no more.

## Main definitions

* `LockEvent`, `LockLayer` — the calls, and the kernel with the stage of every task
* `LockLayer.exec`, `LockLayer.Step` — one step
* `LockLayer.Models` — the kernel stores the locks

## Main results

* `LockLayer.Models.exec` — a step does not fault, and is a move of the locks or changes
  nothing
-/

namespace Gravel

open Library

/-- A call, or the continuation of one, and the task that makes it. -/
inductive LockEvent
  | create (t : TcbPtr)
  | lock (t : TcbPtr) (mutex : ℤ)
  | unlock (t : TcbPtr) (mutex : ℤ)
  /-- A task that was made runnable executes the tail of `mutex_lock`. -/
  | resume (t : TcbPtr)
  deriving DecidableEq

/-- The task that makes the step. -/
def LockEvent.actor : LockEvent → TcbPtr
  | create t | lock t _ | unlock t _ | resume t => t

structure LockLayer where
  kernel : Kernel
  stage : TcbPtr → Stage MutexPtr

/-- The task is the running one. -/
def Kernel.run (k : Kernel) (t : TcbPtr) : Kernel := { k with curTcb := some t }

@[simp] theorem Kernel.run_curTcb (k : Kernel) (t : TcbPtr) : (k.run t).curTcb = some t := rfl
@[simp] theorem Kernel.run_gtMutex (k : Kernel) (t : TcbPtr) : (k.run t).gtMutex = k.gtMutex := rfl
@[simp] theorem Kernel.run_systemTcb (k : Kernel) (t : TcbPtr) :
    (k.run t).systemTcb = k.systemTcb := rfl
@[simp] theorem Kernel.run_link (k : Kernel) (t : TcbPtr) : (k.run t).link = k.link := rfl
@[simp] theorem Kernel.run_runQueue (k : Kernel) (t : TcbPtr) :
    (k.run t).runQueue = k.runQueue := rfl

/-- A waiting task becomes runnable when `runqueue_add` is called for it. -/
def wake (added : List AddCall) (stage : TcbPtr → Stage MutexPtr) (t : TcbPtr) :
    Stage MutexPtr :=
  match stage t with
  | .waiting m => if ∃ call ∈ added, call.tcb = t then .woken m else .waiting m
  | elsewhere => elsewhere

theorem wake_nil {stage : TcbPtr → Stage MutexPtr} : wake [] stage = stage := by
  funext t
  unfold wake
  split <;> simp_all

/-- One call of `runqueue_add` wakes the task it is for. -/
theorem wake_singleton {stage : TcbPtr → Stage MutexPtr} {a : TcbPtr} {m : MutexPtr} {prio : ℕ}
    {found : Option TcbPtr} (waiting : stage a = .waiting m) :
    wake [⟨a, prio, found⟩] stage = Function.update stage a (.woken m) := by
  funext t
  by_cases same : t = a
  · simp [wake, same, waiting]
  · rw [Function.update_of_ne same]
    unfold wake
    split
    · rename_i n stands
      simp [Ne.symm same, stands]
    · rfl

namespace LockLayer

/-- Calls come from user code, the tail of `mutex_lock` from tasks that were made runnable. -/
def Enabled (s : LockLayer) : LockEvent → Prop
  | .create t | .lock t _ | .unlock t _ => s.stage t = .user
  | .resume t => ∃ m, s.stage t = .woken m

def exec (s : LockLayer) : LockEvent → Except Fault (LockLayer × Option Return)
  | .create t =>
    let (code, k) := mutexCreate (s.kernel.run t)
    .ok ({ s with kernel := k }, some ⟨some t, .create, code⟩)
  | .lock t mutex =>
    match mutexLockEnter (s.kernel.run t) mutex with
    | .error fault => .error fault
    | .ok (.ret code, k) => .ok ({ s with kernel := k }, some ⟨some t, .lock mutex, code⟩)
    | .ok (.acquire m, k) =>
      .ok ({ s with kernel := mutexLockTail k m t }, some ⟨some t, .lock mutex, 0⟩)
    | .ok (.sleep m, k) =>
      .ok ({ kernel := k, stage := Function.update s.stage t (.waiting m) }, none)
  | .unlock t mutex =>
    match mutexUnlock (s.kernel.run t) mutex with
    | .error fault => .error fault
    | .ok (code, k) =>
      -- The calls of `runqueue_add` that this call has made.
      let added := k.runQueue.added.drop s.kernel.runQueue.added.length
      .ok ({ kernel := k, stage := wake added s.stage }, some ⟨some t, .unlock mutex, code⟩)
  | .resume t =>
    match s.stage t with
    | .woken m =>
      .ok ({ kernel := mutexLockTail (s.kernel.run t) m t
             stage := Function.update s.stage t .user }, some ⟨some t, .lock m.val, 0⟩)
    | _ => .ok (s, none)

end LockLayer

/-- A step as the label of a run: the event, and the return it completes. -/
abbrev LockLabel := LockEvent × Option Return

def LockLayer.Step (s : LockLayer) (label : LockLabel) (s' : LockLayer) : Prop :=
  s.Enabled label.1 ∧ s.exec label.1 = .ok (s', label.2)

/-- No mutex is locked, no task holds or waits for one. Any of them may have been created. -/
structure LockLayer.Start (s : LockLayer) : Prop where
  mutexes : ∀ m, (s.kernel.gtMutex m).pHoldingTcb = none ∧ (s.kernel.gtMutex m).bLock = false ∧
    (s.kernel.gtMutex m).pSleepQueue = none
  tasks : ∀ t, (s.kernel.systemTcb t).holdsLock = 0
  stage : ∀ t, s.stage t = .user

/-! ### The kernel stores the locks -/

namespace LockLayer

/-- The fields of the mutexes and of the TCBs are those of the locks. -/
structure Models (v : Locks TcbPtr MutexPtr) (s : LockLayer) : Prop where
  stage : s.stage = v.stage
  owner : ∀ m, (s.kernel.gtMutex m).pHoldingTcb = v.owner m
  locked : ∀ m, (s.kernel.gtMutex m).bLock = (v.owner m).isSome
  created : ∀ m, (v.owner m).isSome → (s.kernel.gtMutex m).bAvailable = false
  waiters : ∀ m, Chain s.kernel.link (s.kernel.gtMutex m).pSleepQueue (v.queue m)
  count : ∀ t, (s.kernel.systemTcb t).holdsLock = v.heldCount t

variable {v : Locks TcbPtr MutexPtr} {s : LockLayer} {k : Kernel} {e : LockEvent}
  {t : TcbPtr} {m : MutexPtr} {mutex : ℤ}

/-- The return a move completes. -/
def completes : LockMove TcbPtr MutexPtr → Option Return
  | .take t m | .resume t m => some ⟨some t, .lock m.val, 0⟩
  | .wait _ _ => none
  | .release t m => some ⟨some t, .unlock m.val, 0⟩

/-- A call that is refused, or that is not about the owner of a mutex. -/
def Refused (r : Return) : Prop := r.call = .create ∨ r.code < 0

/-- `mutex_create` leaves the owners, the queues and the TCBs alone. -/
theorem Models.create (models : Models v s) :
    Models v { s with kernel := (mutexCreate (s.kernel.run t)).2 } := by
  unfold mutexCreate
  split
  · exact { models with }
  · refine { models with
      owner := fun m => ?_, locked := fun m => ?_, created := fun m held => ?_,
      waiters := fun m => ?_ }
    · have before := models.owner m
      dsimp only
      split <;> exact before
    · have before := models.locked m
      dsimp only
      split <;> exact before
    · have before := models.created m held
      dsimp only
      split
      · rfl
      · exact before
    · have before := models.waiters m
      dsimp only
      split <;> exact before

/-- A task that is in user code waits in no queue. -/
theorem Models.notMem_queue (ok : v.Ok) (models : Models v s) (running : s.stage t = .user) :
    t ∉ v.queue m := by
  rw [ok.mem_queue, ← models.stage, running]
  simp

/-- What is left to show when one mutex is written. -/
theorem Models.write {v' : Locks TcbPtr MutexPtr} {x : Mutex} (models : Models v s)
    (mutexes : k.gtMutex = Function.update s.kernel.gtMutex m x)
    (owners : ∀ n, n ≠ m → v'.owner n = v.owner n) (owner : x.pHoldingTcb = v'.owner m)
    (locked : x.bLock = (v'.owner m).isSome) (created : x.bAvailable = false)
    (others : ∀ n, n ≠ m → Chain k.link (s.kernel.gtMutex n).pSleepQueue (v'.queue n))
    (waiters : Chain k.link x.pSleepQueue (v'.queue m))
    (count : ∀ t, (k.systemTcb t).holdsLock = v'.heldCount t) :
    Models v' { kernel := k, stage := v'.stage } := by
  refine ⟨rfl, fun n => ?_, fun n => ?_, fun n owned => ?_, fun n => ?_, count⟩ <;>
    by_cases same : n = m
  · subst same
    simpa [mutexes] using owner
  · simpa [mutexes, same, owners] using models.owner n
  · subst same
    simpa [mutexes] using locked
  · simpa [mutexes, same, owners] using models.locked n
  · subst same
    simpa [mutexes] using created
  · rw [owners n same] at owned
    simpa [mutexes, same] using models.created n owned
  · subst same
    simpa [mutexes] using waiters
  · simpa [mutexes, same] using others n same

/-- A free mutex is taken at once. -/
theorem Models.take (ok : v.Ok) (models : Models v s) (running : s.stage t = .user)
    (valid : validMutex s.kernel mutex = some m) (free : v.owner m = none) :
    ∃ s', s.exec (.lock t mutex) = .ok (s', some ⟨some t, .lock mutex, 0⟩) ∧
      v.Allowed (.take t m) ∧ Models (v.act (.take t m)) s' := by
  have allowed : v.Allowed (.take t m) := ⟨models.stage ▸ running, free⟩
  have unheld : (s.kernel.run t).curTcb ≠ ((s.kernel.run t).gtMutex m).pHoldingTcb := by
    simp [models.owner, free]
  have unlocked : ((s.kernel.run t).gtMutex m).bLock = false := by
    simp [models.locked, free]
  have entered := mutexLockEnter_of_free (s := s.kernel.run t) valid unheld unlocked
  let k := mutexLockTail ((s.kernel.run t).setMutex m { s.kernel.gtMutex m with bLock := true }) m t
  refine ⟨{ kernel := k, stage := v.stage }, by simp only [exec, entered, models.stage]; rfl,
    allowed, ?_⟩
  refine models.write (m := m)
    (x := { s.kernel.gtMutex m with bLock := true, pHoldingTcb := some t }) (by simp [k])
    (fun n other => by simp [Locks.act, Locks.own, other]) (by simp [Locks.act, Locks.own])
    (by simp [Locks.act, Locks.own]) (validMutex_eq_some_iff.mp valid).2
    (fun n _ => by simpa [k, Locks.act, Locks.own] using models.waiters n)
    (by simpa [k, Locks.act, Locks.own] using models.waiters m) fun u => ?_
  rw [mutexLockTail_holdsLock, ok.heldCount_act allowed, ← models.count]
  by_cases same : u = t <;> simp [same, LockMove.actor, Locks.gain]

/-- A mutex somebody else owns is waited for. -/
theorem Models.wait (ok : v.Ok) (models : Models v s) (running : s.stage t = .user)
    (valid : validMutex s.kernel mutex = some m) (owned : v.owner m ≠ none)
    (other : v.owner m ≠ some t) :
    ∃ s', s.exec (.lock t mutex) = .ok (s', none) ∧
      v.Allowed (.wait t m) ∧ Models (v.act (.wait t m)) s' := by
  have allowed : v.Allowed (.wait t m) := ⟨models.stage ▸ running, owned, other⟩
  -- `bLock` is set as long as there is an owner, also through a hand-off.
  have locked : (s.kernel.gtMutex m).bLock = true := by
    rw [models.locked, Option.isSome_iff_ne_none]
    exact owned
  obtain ⟨k, head, entered, mutexes, queue, others, count⟩ :=
    mutexLockEnter_of_locked (s := s.kernel.run t) (c := t) valid rfl
      (fun same => other ((models.owner m).symm.trans same)) locked (models.waiters m)
      (models.notMem_queue ok running)
  refine ⟨{ kernel := k, stage := (v.act (.wait t m)).stage },
    by simp only [exec, entered, Locks.act, models.stage], allowed, ?_⟩
  refine models.write mutexes (fun _ _ => rfl) (models.owner m) (models.locked m)
    (validMutex_eq_some_iff.mp valid).2 (fun n different => ?_)
    (by simpa [Locks.act] using queue) fun u => ?_
  · -- The chain of another mutex has neither the caller nor the last waiter in it.
    have apart (u : TcbPtr) (queued : u ∈ v.queue n) : u ∉ v.queue m :=
      ok.disjoint different queued
    simpa [Locks.act, different] using
      others _ _ (models.waiters n) (models.notMem_queue ok running) apart
  · rw [count, ok.heldCount_act allowed, Kernel.run_systemTcb, models.count]
    simp [Locks.gain]

/-- The owner releases a mutex nobody waits for. -/
theorem Models.release_of_nil (ok : v.Ok) (models : Models v s) (running : s.stage t = .user)
    (valid : validMutex s.kernel mutex = some m) (owned : v.owner m = some t)
    (empty : v.queue m = []) :
    ∃ s', s.exec (.unlock t mutex) = .ok (s', some ⟨some t, .unlock mutex, 0⟩) ∧
      v.Allowed (.release t m) ∧ Models (v.act (.release t m)) s' := by
  have allowed : v.Allowed (.release t m) := ⟨models.stage ▸ running, owned⟩
  have alone : (s.kernel.gtMutex m).pSleepQueue = none := by
    have waiters := models.waiters m
    rwa [empty] at waiters
  obtain ⟨k, called, -, queue, -, link, mutexes, tcbs, -⟩ :=
    mutexUnlock_of_noWaiter (s := s.kernel.run t) valid rfl ((models.owner m).trans owned) alone
  have count := fun u => ok.heldCount_act allowed u
  rw [Locks.act_release_of_nil empty] at count ⊢
  refine ⟨{ kernel := k, stage := v.stage },
    by simp [exec, called, queue, wake_nil, models.stage], allowed, ?_⟩
  refine models.write mutexes (fun n other => by simp [other]) (by simp) (by simp)
    (validMutex_eq_some_iff.mp valid).2 (fun n _ => link ▸ models.waiters n)
    (link ▸ models.waiters m) fun u => ?_
  rw [count, ← models.count, tcbs]
  by_cases same : u = t
  · subst same
    simp [LockMove.actor, Locks.gain]
    omega
  · simp [same, LockMove.actor]

/-- The owner hands a mutex to the oldest waiter. -/
theorem Models.release_of_cons {a : TcbPtr} {r : List TcbPtr} (ok : v.Ok) (models : Models v s)
    (running : s.stage t = .user) (valid : validMutex s.kernel mutex = some m)
    (owned : v.owner m = some t) (waiting : v.queue m = a :: r) :
    ∃ s', s.exec (.unlock t mutex) = .ok (s', some ⟨some t, .unlock mutex, 0⟩) ∧
      v.Allowed (.release t m) ∧ Models (v.act (.release t m)) s' := by
  have allowed : v.Allowed (.release t m) := ⟨models.stage ▸ running, owned⟩
  have chain := models.waiters m
  rw [waiting] at chain
  have first : v.stage a = .waiting m := by
    rw [← ok.mem_queue, waiting]
    exact List.mem_cons_self
  obtain ⟨k, called, mutexes, queue, link, holds⟩ :=
    mutexUnlock_of_waiter (s := s.kernel.run t) valid rfl ((models.owner m).trans owned) chain.1
  have count := fun u => ok.heldCount_act allowed u
  rw [Locks.act_release_of_cons waiting] at count ⊢
  refine ⟨{ kernel := k, stage := Function.update v.stage a (.woken m) }, ?_, allowed, ?_⟩
  · simp only [exec, called, queue, added_runqueueAdd, Kernel.run_runQueue,
      List.drop_left, models.stage, wake_singleton first]
  · refine models.write mutexes (fun n other => by simp [other]) (by simp)
      (by simp [models.locked, owned]) (validMutex_eq_some_iff.mp valid).2
      (fun n other => ?_) (by simpa [link] using chain.pop) fun u => ?_
    · -- The link that is cleared is no link of another queue.
      have apart : a ∉ v.queue n := ok.disjoint (Ne.symm other) (by simp [waiting])
      simpa [link, other] using (models.waiters n).update_of_notMem (q := none) apart
    · rw [count, ← models.count, holds]
      by_cases same : u = t <;> simp [same, LockMove.actor, Locks.gain]
      omega

/-- A task that was made runnable becomes the owner, which it is already. -/
theorem Models.resume (ok : v.Ok) (models : Models v s) (woken : s.stage t = .woken m) :
    ∃ s', s.exec (.resume t) = .ok (s', some ⟨some t, .lock m.val, 0⟩) ∧
      v.Allowed (.resume t m) ∧ Models (v.act (.resume t m)) s' := by
  have allowed : v.Allowed (.resume t m) := (congrFun models.stage t).symm.trans woken
  have owned : v.owner m = some t := ok.woken t m allowed
  refine ⟨{ kernel := mutexLockTail (s.kernel.run t) m t, stage := (v.act (.resume t m)).stage },
    by simp [exec, woken, Locks.act, models.stage], allowed, ?_⟩
  refine models.write mutexLockTail_gtMutex
    (fun n other => by simp [Locks.act, Locks.own, other]) (by simp [Locks.act, Locks.own])
    (by simp [Locks.act, Locks.own, models.locked, owned]) (models.created m (by simp [owned]))
    (fun n _ => by simpa [Locks.act, Locks.own] using models.waiters n)
    (by simpa [Locks.act, Locks.own] using models.waiters m) fun u => ?_
  rw [mutexLockTail_holdsLock, ok.heldCount_act allowed, ← models.count]
  by_cases same : u = t <;> simp [same, LockMove.actor, Locks.gain]

/-- Making a task the running one changes nothing else. -/
theorem Models.run (models : Models v s) : Models v { s with kernel := s.kernel.run t } :=
  { models with }

/-- The owner's `mutex_unlock` is a release. -/
theorem Models.release (ok : v.Ok) (models : Models v s) (running : s.stage t = .user)
    (valid : validMutex s.kernel mutex = some m) (owned : v.owner m = some t) :
    ∃ s', s.exec (.unlock t mutex) = .ok (s', some ⟨some t, .unlock mutex, 0⟩) ∧
      v.Allowed (.release t m) ∧ Models (v.act (.release t m)) s' := by
  cases waiting : v.queue m with
  | nil => exact models.release_of_nil ok running valid owned waiting
  | cons a r => exact models.release_of_cons ok running valid owned waiting

/-- An enabled step does not fault. It is refused, or it is a move of the locks. -/
theorem Models.exec (ok : v.Ok) (models : Models v s) (enabled : s.Enabled e) :
    ∃ s' r, s.exec e = .ok (s', r) ∧
      ((Models v s' ∧ s'.stage = s.stage ∧ ∃ x, r = some x ∧ Refused x) ∨
        ∃ move, v.Allowed move ∧ move.actor = e.actor ∧ r = completes move ∧
          Models (v.act move) s' ∧ ∀ t m, move = .wait t m → ∃ mutex, e = .lock t mutex) := by
  cases e with
  | create t => exact ⟨_, _, rfl, Or.inl ⟨models.create, rfl, _, rfl, Or.inl rfl⟩⟩
  | lock t mutex =>
    -- The outcomes of `mutex_lock`: no such mutex, free, owned by the caller, owned by another.
    cases valid : validMutex s.kernel mutex with
    | none =>
      have entered : mutexLockEnter (s.kernel.run t) mutex =
          .ok (.ret (-Config.einval), s.kernel.run t) := by
        rw [mutexLockEnter, show validMutex (s.kernel.run t) mutex = none from valid]
      exact ⟨_, _, by simp only [LockLayer.exec, entered]; rfl,
        Or.inl ⟨models.run, rfl, _, rfl, Or.inr (show -Config.einval < 0 by decide)⟩⟩
    | some m =>
      obtain ⟨rfl, created⟩ := validMutex_eq_some_iff.mp valid
      by_cases free : v.owner m = none
      · obtain ⟨s', called, allowed, models'⟩ := models.take ok enabled valid free
        exact ⟨s', _, called, Or.inr ⟨_, allowed, rfl, rfl, models', by simp⟩⟩
      · by_cases own : v.owner m = some t
        · have entered : mutexLockEnter (s.kernel.run t) m.val =
              .ok (.ret (-Config.edeadlock), s.kernel.run t) := by
            rw [mutexLockEnter, show validMutex (s.kernel.run t) m.val = some m from valid]
            simp [models.owner, own]
          exact ⟨_, _, by simp only [LockLayer.exec, entered]; rfl,
            Or.inl ⟨models.run, rfl, _, rfl, Or.inr (show -Config.edeadlock < 0 by decide)⟩⟩
        · obtain ⟨s', called, allowed, models'⟩ := models.wait ok enabled valid free own
          refine ⟨s', _, called, Or.inr ⟨_, allowed, rfl, rfl, models', ?_⟩⟩
          rintro u n ⟨rfl, rfl⟩
          exact ⟨_, rfl⟩
  | unlock t mutex =>
    have refused (code : ℤ) (negative : code < 0)
        (called : mutexUnlock (s.kernel.run t) mutex = .ok (code, s.kernel.run t)) :
        ∃ s' r, s.exec (.unlock t mutex) = .ok (s', r) ∧
          Models v s' ∧ s'.stage = s.stage ∧ ∃ x, r = some x ∧ Refused x :=
      ⟨{ s with kernel := s.kernel.run t }, _,
        by simp only [LockLayer.exec, called, Kernel.run_runQueue, List.drop_length, wake_nil]; rfl,
        models.run, rfl, _, rfl, Or.inr negative⟩
    cases valid : validMutex s.kernel mutex with
    | none =>
      obtain ⟨s', r, called, rest⟩ := refused _ (by decide)
        (mutexUnlock_of_invalid (s := s.kernel.run t) valid)
      exact ⟨s', r, called, Or.inl rest⟩
    | some m =>
      by_cases own : v.owner m = some t
      · obtain ⟨rfl, created⟩ := validMutex_eq_some_iff.mp valid
        obtain ⟨s', called, allowed, models'⟩ := models.release ok enabled valid own
        exact ⟨s', _, called, Or.inr ⟨_, allowed, rfl, rfl, models', by simp⟩⟩
      · have other : (s.kernel.run t).curTcb ≠ ((s.kernel.run t).gtMutex m).pHoldingTcb :=
          fun same => own ((models.owner m).symm.trans same.symm)
        obtain ⟨s', r, called, rest⟩ := refused _ (by decide)
          (mutexUnlock_of_other (s := s.kernel.run t) valid other)
        exact ⟨s', r, called, Or.inl rest⟩
  | resume t =>
    obtain ⟨m, woken⟩ := enabled
    obtain ⟨s', called, allowed, models'⟩ := models.resume ok woken
    exact ⟨s', _, called, Or.inr ⟨_, allowed, rfl, rfl, models', by simp⟩⟩

end LockLayer

end Gravel
