import Gravel.Kernel.Machine
import Gravel.Library.CeilingScheduler

/-!
# What the kernel's data represents

The abstract scheduler of the library, read at the kernel's pointers: the index of
a TCB is the native priority of its task, so the order of the indices is the order
of urgency. A kernel state represents a scheduler state when the run queue holds
the ready tasks at their indices, the chain of every device spells out its
waiting list, priorities and lock counts follow from the locks of the running
task, and the mutexes are held by nobody else.

Mutexes that were not free when the task set was launched are *stale*. Nothing is
said of them, and the runs considered do not name them.

## Main definitions

* `View`, `View.prio`, `View.holdsLock`, `View.holder`
* `Kernel.stale` — the mutexes that are not free
* `RunQueue.Holds` — the tasks in the run queue
* `Agrees` — the TCBs, the run queue and the mutexes match
* `Models` — the device chains match as well
* `Represents` — a machine represents a scheduler state

## Main results

* `RunQueue.Holds.best` — `highest_prio` finds the most urgent ready task
* `Models.dispatchSave`, `Models.dispatchSleep` — the two dispatches match
-/

namespace Gravel

open Library

/-- The scheduler over the kernel's pointers. -/
abbrev View := Scheduler TcbPtr DevPtr MutexPtr

/-- The running task runs at the ceiling while it holds a lock. -/
def View.prio (v : View) (t : TcbPtr) : ℕ :=
  if t = v.cur ∧ v.locks ≠ ∅ then Config.highestPrio else t.val

def View.holdsLock (v : View) (t : TcbPtr) : ℤ := if t = v.cur then v.locks.card else 0

def View.holder (v : View) (m : MutexPtr) : Option TcbPtr :=
  if m ∈ v.locks then some v.cur else none

/-- The mutexes that are not free. -/
def Kernel.stale (s : Kernel) : Set MutexPtr :=
  {m | (s.gtMutex m).pHoldingTcb ≠ none ∨ (s.gtMutex m).bLock = true ∨
    (s.gtMutex m).pSleepQueue ≠ none}

/-- The queue holds exactly the tasks of `ready`, each in the slot of its index. -/
def RunQueue.Holds (q : RunQueue) (ready : Finset TcbPtr) : Prop :=
  ∀ p < Config.osMaxTasks, ∀ t, q.slot p = some t ↔ t.val = p ∧ t ∈ ready

/-- The TCBs of `live`, the run queue, and the mutexes outside `stale` match a
scheduler state. -/
structure Agrees (live : Finset TcbPtr) (stale : Set MutexPtr) (v : View) (k : Kernel) :
    Prop where
  cur : k.curTcb = some v.cur
  wf : k.runQueue.Wf
  slots : k.runQueue.Holds v.ready
  native : ∀ t ∈ live, (k.systemTcb t).nativePrio = t.val
  prio : ∀ t ∈ live, (k.systemTcb t).curPrio = v.prio t
  holds : ∀ t ∈ live, (k.systemTcb t).holdsLock = v.holdsLock t
  fresh : ∀ m ∈ v.locks, m ∉ stale
  created : ∀ m ∈ v.locks, (k.gtMutex m).bAvailable = false
  mutex : ∀ m ∉ stale, (k.gtMutex m).pHoldingTcb = v.holder m ∧
    (k.gtMutex m).bLock = decide (m ∈ v.locks) ∧ (k.gtMutex m).pSleepQueue = none
  added : ∀ call ∈ k.runQueue.added, call.Ok

/-- The device chains match as well. -/
structure Models (live : Finset TcbPtr) (stale : Set MutexPtr) (v : View) (k : Kernel) : Prop
    extends Agrees live stale v k where
  chains : ∀ d, Chain k.link (k.devices d).sleepQueue (v.waits d)

/-- A machine represents a scheduler state: tasks in the window are in `dev_wait`, and
the others in user code. -/
structure Represents (live : Finset TcbPtr) (stale : Set MutexPtr) (v : View) (s : Machine) :
    Prop extends Models live stale v s.kernel where
  control : ∀ t ∈ live, s.control t = if t ∈ v.window then .devWait else .user

variable {live : Finset TcbPtr} {stale : Set MutexPtr} {v v' : View} {k k' : Kernel}
  {t u : TcbPtr}

/-! ### Reading the representation -/

theorem View.prio_of_unlocked (unlocked : v.locks = ∅) : v.prio t = t.val := by
  simp [View.prio, unlocked]

/-! ### The queue as a set -/

section Queue

variable {q q' : RunQueue} {ready : Finset TcbPtr} {b : TcbPtr}

theorem RunQueue.Holds.slot (holds : q.Holds ready) (member : t ∈ ready) :
    q.slot t.val = some t :=
  (holds t.val t.isLt t).mpr ⟨rfl, member⟩

/-- A slot is empty or holds the task of that index. -/
theorem RunQueue.Holds.slot_eq (holds : q.Holds ready) (t : TcbPtr) :
    q.slot t.val = none ∨ q.slot t.val = some t := by
  cases found : q.slot t.val with
  | none => exact Or.inl rfl
  | some u =>
    obtain ⟨same, -⟩ := (holds t.val t.isLt u).mp found
    exact Or.inr (by rw [Fin.ext same])

/-- Queueing a task at its native priority is in order. -/
theorem RunQueue.Holds.addCall_ok (holds : q.Holds ready) (t : TcbPtr) :
    (AddCall.mk t t.val (q.slot t.val)).Ok :=
  ⟨t.isLt, holds.slot_eq t⟩

theorem RunQueue.Holds.insert (holds : q.Holds ready)
    (slots : ∀ p, q'.slot p = if p = t.val then some t else q.slot p) :
    q'.Holds (insert t ready) := by
  intro p inside u
  rw [slots, Finset.mem_insert]
  by_cases own : p = t.val
  · subst own
    rw [if_pos rfl, Option.some.injEq]
    constructor
    · rintro rfl
      exact ⟨rfl, Or.inl rfl⟩
    · rintro ⟨index, -⟩
      exact (Fin.ext index).symm
  · rw [if_neg own, holds p inside u]
    refine and_congr_right fun index => (or_iff_right ?_).symm
    rintro rfl
    exact own index.symm

theorem RunQueue.Holds.erase (holds : q.Holds ready)
    (slots : ∀ p, q'.slot p = if p = t.val then none else q.slot p) :
    q'.Holds (ready.erase t) := by
  intro p inside u
  rw [slots, Finset.mem_erase]
  split
  · rename_i taken
    constructor
    · simp
    · rintro ⟨index, different, -⟩
      exact absurd (Fin.ext (index.trans taken)) different
  · rename_i other
    rw [holds p inside u]
    refine and_congr_right fun index => (and_iff_right ?_).symm
    rintro rfl
    exact other index.symm

/-- `highest_prio` finds the most urgent task. -/
theorem RunQueue.Holds.best (holds : q.Holds ready) (wf : q.Wf)
    (least : IsLeast (ready : Set TcbPtr) b) : highestPrio q = b.val ∧ q.Best b := by
  have queued := holds.slot least.1
  have highest := isLeast_highestPrio wf b.isLt queued
  have same : highestPrio q = b.val := by
    apply Nat.le_antisymm (highest.2 ⟨b.isLt, b, queued⟩)
    obtain ⟨inside, t, found⟩ := highest.1
    obtain ⟨index, member⟩ := (holds _ inside t).mp found
    rw [← index]
    exact least.2 member
  exact ⟨same, same ▸ b.isLt, by rw [same, queued]⟩

/-- `dispatch_nosave` takes the most urgent task, whatever ran before. -/
theorem RunQueue.Holds.dispatch {s : Kernel} (holds : s.runQueue.Holds ready)
    (wf : s.runQueue.Wf) (least : IsLeast (ready : Set TcbPtr) b) :
    ∃ q, dispatchNosave s = .ok (ctxSwitchHalf { s with runQueue := q, curTcb := some b } b) ∧
      q.Wf ∧ q.added = s.runQueue.added ∧ q.Holds (ready.erase b) := by
  obtain ⟨highest, best⟩ := holds.best wf least
  obtain ⟨q, dispatched, wfq, added, slots⟩ := dispatchNosave_eq_ok wf best
  rw [highest] at slots
  exact ⟨q, dispatched, wfq, added, holds.erase slots⟩

end Queue

/-- `highest_prio` finds the most urgent ready task. -/
theorem Agrees.best (agrees : Agrees live stale v k) (nonempty : v.ready.Nonempty) :
    highestPrio k.runQueue = v.best.val ∧ k.runQueue.Best v.best :=
  agrees.slots.best agrees.wf (Scheduler.isLeast_best nonempty)

/-! ### What the representation does not read -/

/-- The data that a representation reads of a TCB. -/
def Kernel.SameTasks (k k' : Kernel) : Prop :=
  ∀ t, (k'.systemTcb t).nativePrio = (k.systemTcb t).nativePrio ∧
    (k'.systemTcb t).curPrio = (k.systemTcb t).curPrio ∧
    (k'.systemTcb t).holdsLock = (k.systemTcb t).holdsLock

/-- Contexts, links, devices and the clock are irrelevant. -/
theorem Agrees.congr (agrees : Agrees live stale v k) (cur : k'.curTcb = k.curTcb)
    (queue : k'.runQueue = k.runQueue) (mutex : k'.gtMutex = k.gtMutex)
    (tasks : k.SameTasks k') : Agrees live stale v k' where
  cur := cur.trans agrees.cur
  wf := queue ▸ agrees.wf
  slots := queue ▸ agrees.slots
  native t member := (tasks t).1.trans (agrees.native t member)
  prio t member := (tasks t).2.1.trans (agrees.prio t member)
  holds t member := (tasks t).2.2.trans (agrees.holds t member)
  fresh := agrees.fresh
  created := mutex ▸ agrees.created
  mutex := mutex ▸ agrees.mutex
  added := queue ▸ agrees.added

/-- The waiting lists and the window are irrelevant. -/
theorem Agrees.congr_view (agrees : Agrees live stale v k) (v' : View) (cur : v'.cur = v.cur)
    (ready : v'.ready = v.ready) (locks : v'.locks = v.locks) :
    Agrees live stale v' k := by
  obtain ⟨c, r, waits, window, l⟩ := v'
  obtain rfl : c = v.cur := cur
  obtain rfl : r = v.ready := ready
  obtain rfl : l = v.locks := locks
  exact
    { cur := agrees.cur, wf := agrees.wf, slots := agrees.slots, native := agrees.native
      prio := agrees.prio, holds := agrees.holds, fresh := agrees.fresh
      created := agrees.created, mutex := agrees.mutex, added := agrees.added }

/-! ### Dispatching -/

/-- A switch between tasks without locks changes the run queue and the running task. -/
theorem Agrees.switch {q : RunQueue} (agrees : Agrees live stale v k) (unlocked : v.locks = ∅)
    (unlocked' : v'.locks = ∅) (wf : q.Wf)
    (slots : q.Holds v'.ready)
    (added : ∀ call ∈ q.added, call.Ok) (c : TcbPtr) :
    Agrees live stale v'
      (ctxSwitchFull { k with runQueue := q, curTcb := some v'.cur } v'.cur c) where
  cur := rfl
  wf := wf
  slots := slots
  native t member := by
    rw [ctxSwitchFull_nativePrio]
    exact agrees.native t member
  prio t member := by
    rw [ctxSwitchFull_curPrio, View.prio_of_unlocked unlocked']
    exact (agrees.prio t member).trans (View.prio_of_unlocked unlocked)
  holds t member := by
    rw [ctxSwitchFull_holdsLock]
    refine (agrees.holds t member).trans ?_
    simp [View.holdsLock, unlocked, unlocked']
  fresh := by simp [unlocked']
  created := by simp [unlocked']
  mutex m outside := by
    have before := agrees.mutex m outside
    simp only [View.holder, unlocked, unlocked'] at before ⊢
    exact before
  added := added

theorem Models.switch {q : RunQueue} (models : Models live stale v k) (unlocked : v.locks = ∅)
    (v' : View) (unlocked' : v'.locks = ∅) (waits : v'.waits = v.waits) (wf : q.Wf)
    (slots : q.Holds v'.ready)
    (added : ∀ call ∈ q.added, call.Ok) (c : TcbPtr) :
    Models live stale v'
      (ctxSwitchFull { k with runQueue := q, curTcb := some v'.cur } v'.cur c) where
  toAgrees := models.toAgrees.switch unlocked unlocked' wf slots added c
  chains d := by
    rw [ctxSwitchFull_link, waits]
    exact models.chains d

/-- `dispatch_save` preempts exactly when the abstract scheduler does. -/
theorem Models.dispatchSave (models : Models live stale v k) (inside : v.cur ∈ live)
    (nonempty : v.ready.Nonempty) :
    ∃ k', dispatchSave k = .ok k' ∧ Models live stale v.preempt k' := by
  obtain ⟨highest, best⟩ := models.best nonempty
  have prio := models.prio v.cur inside
  -- The kernel compares priorities, the scheduler urgencies and locks.
  by_cases switch : v.locks = ∅ ∧ v.best < v.cur
  · obtain ⟨unlocked, better⟩ := switch
    rw [View.prio_of_unlocked unlocked] at prio
    have worse : highestPrio k.runQueue < (k.systemTcb v.cur).curPrio := by
      rw [highest, prio]
      exact better
    obtain ⟨q, saved, wf, added, slots⟩ := dispatchSave_eq_switch models.wf models.cur
      (by rw [prio]; exact v.cur.isLt) best worse
    rw [highest, prio] at slots
    rw [prio] at added
    have preempted : v.preempt =
        { v with cur := v.best, ready := insert v.cur (v.ready.erase v.best) } := by
      rw [Scheduler.preempt, if_pos ⟨unlocked, better⟩]
    refine ⟨_, saved, ?_⟩
    rw [preempted]
    refine models.switch unlocked
      { v with cur := v.best, ready := insert v.cur (v.ready.erase v.best) }
      unlocked rfl wf ?_ ?_ v.cur
    · have queued : (runqueueAdd k.runQueue v.cur v.cur.val).Holds (insert v.cur v.ready) :=
        models.slots.insert fun p => slot_runqueueAdd
      rw [← Finset.erase_insert_of_ne (ne_of_gt better)]
      exact queued.erase fun p => by rw [slots, slot_runqueueAdd]
    · rw [added, List.forall_mem_append, List.forall_mem_singleton]
      exact ⟨models.added, models.slots.addCall_ok v.cur⟩
  · refine ⟨k, dispatchSave_eq_self models.cur ?_, ?_⟩
    · -- No switch: the best task is not more urgent, or the ceiling keeps it off.
      rw [highest, prio]
      by_cases unlocked : v.locks = ∅
      · rw [View.prio_of_unlocked unlocked]
        exact not_lt.mp fun better => switch ⟨unlocked, better⟩
      · simp [View.prio, unlocked]
    · rw [Scheduler.preempt, if_neg switch]
      exact models

/-- `dispatch_sleep` gives the processor to the most urgent ready task. -/
theorem Models.dispatchSleep (models : Models live stale v k) (unlocked : v.locks = ∅)
    (nonempty : v.ready.Nonempty) :
    ∃ k', dispatchSleep k = .ok k' ∧ Models live stale v.sleep k' := by
  obtain ⟨highest, best⟩ := models.best nonempty
  obtain ⟨q, slept, wf, added, slots⟩ := dispatchSleep_eq_ok models.wf models.cur best
  rw [highest] at slots
  refine ⟨_, slept, ?_⟩
  refine models.switch unlocked v.sleep unlocked rfl wf (models.slots.erase slots) ?_ v.cur
  rw [added]
  exact models.added

end Gravel
