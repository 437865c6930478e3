import Gravel.Scheduling.Representation

/-!
# The kernel simulates the scheduler

Every step of the machine that names no stale mutex is a step of the abstract
scheduler, or leaves it alone, and no such step faults.

## Main definitions

* `FreshCall` — a mutex call that names no stale mutex
* `Moves` — the scheduler steps an event may stand for

## Main results

* `Models.cIrqHandler`, `Models.eventWait`, `Models.mutexLock`, `Models.mutexUnlock` —
  each operation of the kernel against the scheduler
* `Represents.exec` — the simulation
-/

namespace Gravel

open Library

variable {live : Finset TcbPtr} {stale : Set MutexPtr} {v v' : View} {k k' : Kernel}
  {t u : TcbPtr} {s s' : Machine} {pf : Platform} {e : Event}

/-! ### The timer interrupt -/

theorem Models.congr (models : Models live stale v k) (k' : Kernel) (cur : k'.curTcb = k.curTcb)
    (queue : k'.runQueue = k.runQueue) (mutex : k'.gtMutex = k.gtMutex)
    (tasks : k.SameTasks k') (link : k'.link = k.link) (devices : k'.devices = k.devices) :
    Models live stale v k' where
  toAgrees := models.toAgrees.congr cur queue mutex tasks
  chains := by
    rw [link, devices]
    exact models.chains

theorem Agrees.wakeWaiter (agrees : Agrees live stale v k) (member : t ∈ live)
    (native : v.prio t = t.val) :
    Agrees live stale { v with ready := insert t v.ready } (wakeWaiter k t) where
  cur := agrees.cur
  wf := by
    rw [wakeWaiter_runQueue, agrees.prio t member, native]
    exact agrees.wf.runqueueAdd t.isLt
  slots := by
    rw [wakeWaiter_runQueue, agrees.prio t member, native]
    exact agrees.slots.insert fun p => slot_runqueueAdd
  native u member := (wakeWaiter_nativePrio k t u).trans (agrees.native u member)
  prio u member := (wakeWaiter_curPrio k t u).trans (agrees.prio u member)
  holds u member := (wakeWaiter_holdsLock k t u).trans (agrees.holds u member)
  fresh := agrees.fresh
  created := agrees.created
  mutex := agrees.mutex
  added := by
    rw [wakeWaiter_runQueue, agrees.prio t member, native, added_runqueueAdd,
      List.forall_mem_append, List.forall_mem_singleton]
    exact ⟨agrees.added, agrees.slots.addCall_ok t⟩

/-- The loop of `dev_update` along a chain wakes its tasks and clears their links. -/
theorem Agrees.wakeWaiters {l : List TcbPtr} {p : Option TcbPtr} {fuel : ℕ}
    (agrees : Agrees live stale v k) (flag : Bool) (chain : Chain k.link p l)
    (waiting : ∀ t ∈ l, t ∈ live ∧ v.prio t = t.val) (enough : l.length ≤ fuel) :
    ∃ k', wakeWaiters fuel p (flag, k) = .ok (flag || !l.isEmpty, k') ∧
      Agrees live stale { v with ready := v.ready ∪ l.toFinset } k' ∧
      k'.devices = k.devices ∧ ∀ t ∉ l, k'.link t = k.link t := by
  induction l generalizing k v p flag fuel with
  | nil =>
    obtain rfl : p = none := chain
    refine ⟨k, by cases fuel <;> simp [Gravel.wakeWaiters], ?_, rfl, fun _ _ => rfl⟩
    exact agrees.congr_view _ rfl (by simp) rfl
  | cons a l ih =>
    obtain rfl := chain.1
    obtain ⟨fuel, rfl⟩ := Nat.exists_eq_succ_of_ne_zero (Nat.ne_zero_of_lt enough)
    obtain ⟨⟨member, native⟩, rest⟩ := List.forall_mem_cons.mp waiting
    have popped : Chain (Gravel.wakeWaiter k a).link (k.link a) l := by
      rw [wakeWaiter_link]
      exact chain.pop
    obtain ⟨k', woken, agrees', devices, links⟩ :=
      ih (agrees.wakeWaiter member native) true popped rest (by simpa using enough)
    refine ⟨k', ?_, ?_, devices, fun t outside => ?_⟩
    · simpa [Gravel.wakeWaiters] using woken
    · refine agrees'.congr_view _ rfl ?_ rfl
      simp [Finset.insert_union, Finset.union_insert]
    · obtain ⟨different, absent⟩ := not_or.mp (List.mem_cons.not.mp outside)
      rw [links t absent, wakeWaiter_link, Function.update_of_ne different]

/-- A waiting task is at its native priority: a lock holder does not wait. -/
theorem prio_of_waiting {idle : TcbPtr} {d : DevPtr} (core : v.Core live idle)
    (waiting : t ∈ v.waits d) : v.prio t = t.val := by
  unfold View.prio
  rw [if_neg]
  rintro ⟨rfl, locked⟩
  by_cases window : v.cur ∈ v.window
  · exact locked (core.window_locks window)
  · exact (core.asleep d v.cur waiting window).1 rfl

theorem Models.updateDevice (models : Models live stale v k) (core : v.Core live idleTcb)
    (millis : UInt32) (d : DevPtr) (flag : Bool) :
    ∃ due k', updateDevice millis d (flag, k) = .ok (flag || decide (v.woken due).Nonempty, k') ∧
      Models live stale (v.drain due) k' := by
  by_cases isDue : (k.devices d).nextMatch ≤ millis
  · have chain := models.chains d
    have short : (v.waits d).length ≤ Config.osMaxTasks + 1 := by
      have bound := chain.nodup.length_le_card
      rw [Fintype.card_fin] at bound
      exact Nat.le_succ_of_le bound
    obtain ⟨k', woken, agrees, devices, links⟩ :=
      models.toAgrees.wakeWaiters flag chain
        (fun t ht => ⟨core.waits_live d t ht, prio_of_waiting core ht⟩) short
    have all : v.woken {d} = (v.waits d).toFinset := by
      ext t
      simp
    have some_woken : decide (v.woken {d}).Nonempty = !(v.waits d).isEmpty := by
      rw [all]
      cases v.waits d <;> simp
    refine ⟨{d}, k'.setDev d
      { sleepQueue := none, nextMatch := (k'.devices d).nextMatch + devFreq d }, ?_, ?_, ?_⟩
    · rw [some_woken]
      simp only [Gravel.updateDevice, isDue, if_true, woken]
    · have ready : (v.drain {d}).ready = v.ready ∪ (v.waits d).toFinset := by
        simp [Scheduler.drain, all]
      exact (agrees.congr_view (v.drain {d}) rfl ready rfl).congr rfl rfl rfl
        fun t => ⟨rfl, rfl, rfl⟩
    · intro d'
      by_cases same : d' = d
      · subst same
        simp [Scheduler.drain]
      · -- The drained links are not links of another device's chain.
        have kept : ∀ t ∈ v.waits d', k.link t = k'.link t := fun t ht =>
          (links t fun ht' => same (core.disjoint d' d t ht ht')).symm
        simpa [Scheduler.drain, same, devices] using (models.chains d').congr kept
  · refine ⟨∅, k, ?_, ?_⟩
    · simp [Gravel.updateDevice, isDue]
    · rw [Scheduler.drain_empty]
      exact models

theorem Models.updateDevices (models : Models live stale v k) (core : v.Core live idleTcb)
    (millis : UInt32) (ds : List DevPtr) (flag : Bool) :
    ∃ due k', updateDevices millis ds (flag, k) =
        .ok (flag || decide (v.woken due).Nonempty, k') ∧
      Models live stale (v.drain due) k' := by
  induction ds generalizing v k flag with
  | nil =>
    refine ⟨∅, k, by simp [Gravel.updateDevices], ?_⟩
    rw [Scheduler.drain_empty]
    exact models
  | cons d ds ih =>
    obtain ⟨due, k₁, first, models₁⟩ := models.updateDevice core millis d flag
    obtain ⟨due', k₂, rest, models₂⟩ :=
      ih models₁ core.drain (flag || decide (v.woken due).Nonempty)
    -- The devices that were due drain one after the other, as if at once.
    refine ⟨due ∪ due', k₂, ?_, ?_⟩
    · simp only [Gravel.updateDevices, first, rest, Scheduler.woken_union_nonempty, Bool.or_assoc,
        Bool.decide_or]
    · rw [← Scheduler.drain_drain]
      exact models₂

/-- A timer interrupt is a tick of the scheduler. -/
theorem Models.cIrqHandler (models : Models live stale v k) (core : v.Core live idleTcb) :
    ∃ due k', cIrqHandler k = .ok k' ∧ Models live stale (v.tick due) k' := by
  have later := models.congr { k with sysTime := k.sysTime + Config.timeResolution }
    rfl rfl rfl (fun _ => ⟨rfl, rfl, rfl⟩) rfl rfl
  obtain ⟨due, k₁, updated, models₁⟩ := later.updateDevices core
    (k.sysTime + Config.timeResolution) (List.finRange Config.numDevices) false
  refine ⟨due, ?_⟩
  -- `need_ctx` says whether a task was woken; only then is `dispatch_save` called.
  unfold Scheduler.tick
  split
  · rename_i some_woken
    have nonempty : (v.drain due).ready.Nonempty := some_woken.mono Finset.subset_union_right
    obtain ⟨k₂, saved, models₂⟩ := models₁.dispatchSave core.cur_live nonempty
    refine ⟨k₂, ?_, models₂⟩
    simp only [Gravel.cIrqHandler, devUpdate, updated, some_woken, decide_true, Bool.or_true,
      if_true, saved]
  · rename_i none_woken
    refine ⟨k₁, ?_, models₁⟩
    simp [Gravel.cIrqHandler, devUpdate, updated, none_woken]

/-! ### The calls of the running task -/

/-- The insertion of `dev_wait` is the first half of a wait. -/
theorem Models.devWaitEnter (models : Models live stale v k) (inv : v.Inv live idleTcb)
    (outside : v.cur ∉ v.window) (d : DevPtr) :
    ∃ k', devWaitEnter k d = .ok k' ∧ k'.curTcb = k.curTcb ∧
      Models live stale (v.wait d) k' := by
  have absent (d' : DevPtr) : v.cur ∉ v.waits d' := fun waiting =>
    (inv.asleep d' v.cur waiting outside).1 rfl
  have entered := show Gravel.devWaitEnter k d = .ok _ by
    simp only [Gravel.devWaitEnter, models.cur]
    rfl
  refine ⟨_, entered, rfl, ?_, fun d' => ?_⟩
  · refine (models.toAgrees.congr_view (v.wait d) rfl rfl rfl).congr rfl rfl rfl fun t => ?_
    by_cases own : t = v.cur
    · subst own
      simp
    · simp [own]
  · -- The caller heads the chain of `d`, and its link is not part of any other chain.
    by_cases same : d' = d
    · subst same
      simpa [Scheduler.wait] using (models.chains d').cons_update (absent d')
    · simpa [Scheduler.wait, same] using (models.chains d').update_of_notMem (absent d')

/-- `event_wait` returns an error code, or is the first half of a wait. -/
theorem Models.eventWait (models : Models live stale v k) (inv : v.Inv live idleTcb)
    (outside : v.cur ∉ v.window) (dev : UInt32) :
    (∃ code, eventWait k dev = .ok (some code, k)) ∨
      ∃ d k', v.locks = ∅ ∧ eventWait k dev = .ok (none, k') ∧ k'.curTcb = k.curTcb ∧
        Models live stale (v.wait d) k' := by
  have holds := models.holds v.cur inv.cur_live
  rw [View.holdsLock, if_pos rfl] at holds
  by_cases locked : v.locks = ∅
  · rw [locked, Finset.card_empty, Nat.cast_zero] at holds
    by_cases inside : dev.toNat < Config.numDevices
    · obtain ⟨k', entered, same, models'⟩ := models.devWaitEnter inv outside ⟨dev.toNat, inside⟩
      refine Or.inr ⟨⟨dev.toNat, inside⟩, k', locked, ?_, same, models'⟩
      simp [Gravel.eventWait, models.cur, holds, inside, entered]
    · exact Or.inl ⟨-Config.einval, by simp [Gravel.eventWait, models.cur, holds, inside]⟩
  · have positive : (v.locks.card : ℤ) ≠ 0 := by simpa using locked
    refine Or.inl ⟨-Config.eholdslock, ?_⟩
    simp [Gravel.eventWait, models.cur, holds, locked]

theorem View.holder_eq_cur_iff {m : MutexPtr} : some v.cur = v.holder m ↔ m ∈ v.locks := by
  simp [View.holder]

/-- Creating a mutex makes it available and changes nothing else. -/
theorem Models.mutexCreate (models : Models live stale v k) :
    Models live stale v (mutexCreate k).2 := by
  unfold Gravel.mutexCreate
  split
  · exact models
  · refine { models with created := fun m held => ?_, mutex := fun m outside => ?_ }
    · have before := models.created m held
      dsimp only
      split <;> simp [before]
    · have before := models.mutex m outside
      dsimp only
      split <;> exact before

/-- Taking a free mutex: one lock more, at the ceiling. -/
theorem Agrees.lock {m : MutexPtr} (agrees : Agrees live stale v k) (unheld : m ∉ v.locks)
    (fresh : m ∉ stale) (created : (k.gtMutex m).bAvailable = false) (inside : v.cur ∈ live)
    (cur : k'.curTcb = k.curTcb)
    (queue : k'.runQueue = k.runQueue)
    (mutexes : k'.gtMutex = Function.update k.gtMutex m
      { k.gtMutex m with bLock := true, pHoldingTcb := some v.cur })
    (tasks : k'.systemTcb = Function.update k.systemTcb v.cur
      { k.systemTcb v.cur with
        holdsLock := (k.systemTcb v.cur).holdsLock + 1
        curPrio := Config.highestPrio }) :
    Agrees live stale (v.lock m) k' where
  cur := cur.trans agrees.cur
  wf := queue ▸ agrees.wf
  slots := queue ▸ agrees.slots
  native t member := by
    rw [tasks]
    by_cases own : t = v.cur
    · subst own
      simpa using agrees.native v.cur member
    · simpa [own] using agrees.native t member
  prio t member := by
    rw [tasks]
    by_cases own : t = v.cur
    · subst own
      simp [View.prio, Scheduler.lock]
    · simpa [View.prio, Scheduler.lock, own] using agrees.prio t member
  holds t member := by
    rw [tasks]
    by_cases own : t = v.cur
    · subst own
      simp [View.holdsLock, Scheduler.lock, agrees.holds v.cur inside, unheld]
    · simpa [View.holdsLock, Scheduler.lock, own] using agrees.holds t member
  fresh m' member := by
    rcases Finset.mem_insert.mp member with rfl | old
    · exact fresh
    · exact agrees.fresh m' old
  created m' member := by
    rw [mutexes]
    by_cases same : m' = m
    · subst same
      simpa using created
    · simpa [same] using agrees.created m' ((Finset.mem_insert.mp member).resolve_left same)
  mutex m' outside := by
    rw [mutexes]
    obtain ⟨holder, locked, alone⟩ := agrees.mutex m' outside
    by_cases same : m' = m
    · subst same
      simp [View.holder, Scheduler.lock, alone]
    · simpa [View.holder, Scheduler.lock, same, alone] using And.intro holder locked
  added := queue ▸ agrees.added

/-- Releasing a mutex: one lock less, and the native priority after the last. -/
theorem Agrees.unlock {m : MutexPtr} (agrees : Agrees live stale v k) (held : m ∈ v.locks)
    (inside : v.cur ∈ live) (cur : k'.curTcb = k.curTcb) (queue : k'.runQueue = k.runQueue)
    (mutexes : k'.gtMutex = Function.update k.gtMutex m
      { k.gtMutex m with bLock := false, pHoldingTcb := none })
    (tasks : k'.systemTcb = Function.update k.systemTcb v.cur
      { k.systemTcb v.cur with
        holdsLock := (k.systemTcb v.cur).holdsLock - 1
        curPrio :=
          if (k.systemTcb v.cur).holdsLock - 1 = 0 then (k.systemTcb v.cur).nativePrio
          else (k.systemTcb v.cur).curPrio }) :
    Agrees live stale (v.unlock m) k' := by
  -- The count the code tests for zero is the number of locks that remain.
  have left : (k.systemTcb v.cur).holdsLock - 1 = ((v.locks.erase m).card : ℤ) := by
    have positive : 0 < v.locks.card := Finset.card_pos.mpr ⟨m, held⟩
    rw [agrees.holds v.cur inside, View.holdsLock, if_pos rfl, Finset.card_erase_of_mem held]
    omega
  exact
    { cur := cur.trans agrees.cur
      wf := queue ▸ agrees.wf
      slots := queue ▸ agrees.slots
      native := by
        intro t member
        rw [tasks]
        by_cases own : t = v.cur
        · subst own
          simpa using agrees.native v.cur member
        · simpa [own] using agrees.native t member
      prio := by
        intro t member
        rw [tasks]
        by_cases own : t = v.cur
        · subst own
          have ceiling := agrees.prio v.cur inside
          rw [View.prio, if_pos ⟨rfl, Finset.ne_empty_of_mem held⟩] at ceiling
          by_cases last : v.locks.erase m = ∅
          · simp [View.prio, Scheduler.unlock, left, last, agrees.native v.cur inside]
          · simp [View.prio, Scheduler.unlock, left, last, ceiling]
        · simpa [View.prio, Scheduler.unlock, own] using agrees.prio t member
      holds := by
        intro t member
        rw [tasks]
        by_cases own : t = v.cur
        · subst own
          simpa [View.holdsLock, Scheduler.unlock] using left
        · simpa [View.holdsLock, Scheduler.unlock, own] using agrees.holds t member
      fresh := fun m' member => agrees.fresh m' (Finset.mem_of_mem_erase member)
      created := by
        intro m' member
        obtain ⟨different, old⟩ := Finset.mem_erase.mp member
        simpa [mutexes, different] using agrees.created m' old
      mutex := by
        intro m' outside
        rw [mutexes]
        obtain ⟨holder, locked, alone⟩ := agrees.mutex m' outside
        by_cases same : m' = m
        · subst same
          simp [View.holder, Scheduler.unlock, alone]
        · simpa [View.holder, Scheduler.unlock, same, alone] using And.intro holder locked
      added := queue ▸ agrees.added }

/-- `mutex_lock` on a fresh mutex returns an error code or takes the mutex. -/
theorem Models.mutexLock (models : Models live stale v k) (inside : v.cur ∈ live) {mutex : ℤ}
    (fresh : ∀ m : MutexPtr, mutex = m.val → m ∉ stale) :
    (∃ code, mutexLock k mutex = .ok (.ret code, k)) ∨
      ∃ m k', m ∉ v.locks ∧ mutexLock k mutex = .ok (.ret 0, k') ∧
        Models live stale (v.lock m) k' := by
  cases valid : validMutex k mutex with
  | none => exact Or.inl ⟨_, mutexLock_of_invalid valid⟩
  | some m =>
    obtain ⟨names, created⟩ := validMutex_eq_some_iff.mp valid
    have outside := fresh m names
    obtain ⟨holder, locked, -⟩ := models.mutex m outside
    -- A fresh mutex is free or held by the running task, so the call never sleeps.
    by_cases held : m ∈ v.locks
    · refine Or.inl ⟨_, mutexLock_of_holder valid ?_⟩
      rw [models.cur, holder]
      exact View.holder_eq_cur_iff.mpr held
    · have other : (k.gtMutex m).pHoldingTcb ≠ some v.cur := by
        rw [holder]
        exact fun same => held (View.holder_eq_cur_iff.mp same.symm)
      have free : (k.gtMutex m).bLock = false := by simpa [held] using locked
      obtain ⟨k', called, cur, queue, devices, link, mutexes, tasks⟩ :=
        mutexLock_of_free valid models.cur other free
      refine Or.inr ⟨m, k', held, called, ?_, ?_⟩
      · exact models.toAgrees.lock held outside created inside cur queue mutexes tasks
      · rw [link, devices]
        exact models.chains

/-- `mutex_unlock` of a mutex the running task holds releases it. -/
theorem Models.mutexUnlock_of_held {m : MutexPtr} (models : Models live stale v k)
    (inside : v.cur ∈ live) (held : m ∈ v.locks) :
    ∃ k', mutexUnlock k m.val = .ok (0, k') ∧ Models live stale (v.unlock m) k' := by
  obtain ⟨holder, -, alone⟩ := models.mutex m (models.fresh m held)
  have valid : validMutex k m.val = some m :=
    validMutex_eq_some_iff.mpr ⟨rfl, models.created m held⟩
  have owner : (k.gtMutex m).pHoldingTcb = some v.cur := by
    rw [holder]
    exact (View.holder_eq_cur_iff.mpr held).symm
  obtain ⟨k', called, cur, queue, devices, link, mutexes, tasks, -⟩ :=
    mutexUnlock_of_noWaiter valid models.cur owner alone
  refine ⟨k', called, models.toAgrees.unlock held inside cur queue mutexes tasks, ?_⟩
  rw [link, devices]
  exact models.chains

/-- `mutex_unlock` of a fresh mutex returns an error code or releases the mutex. -/
theorem Models.mutexUnlock (models : Models live stale v k) (inside : v.cur ∈ live) {mutex : ℤ}
    (fresh : ∀ m : MutexPtr, mutex = m.val → m ∉ stale) :
    (∃ code, mutexUnlock k mutex = .ok (code, k)) ∨
      ∃ m k', m ∈ v.locks ∧ mutex = m.val ∧ mutexUnlock k mutex = .ok (0, k') ∧
        Models live stale (v.unlock m) k' := by
  cases valid : validMutex k mutex with
  | none => exact Or.inl ⟨_, mutexUnlock_of_invalid valid⟩
  | some m =>
    obtain ⟨rfl, -⟩ := validMutex_eq_some_iff.mp valid
    by_cases held : m ∈ v.locks
    · obtain ⟨k', called, models'⟩ := models.mutexUnlock_of_held inside held
      exact Or.inr ⟨m, k', held, rfl, called, models'⟩
    · refine Or.inl ⟨_, mutexUnlock_of_other valid ?_⟩
      rw [models.cur, (models.mutex m (fresh m rfl)).1]
      exact fun same => held (View.holder_eq_cur_iff.mp same)

/-! ### The machine -/

/-- The call names no stale mutex. -/
def FreshCall (stale : Set MutexPtr) : Event → Prop
  | .mutexLock mutex => ∀ m : MutexPtr, mutex = m.val → m ∉ stale
  | .mutexUnlock mutex => ∀ m : MutexPtr, mutex = m.val → m ∉ stale
  | _ => True

/-- When every mutex was free no call is stale. -/
theorem freshCall_of_clean (clean : stale = ∅) : FreshCall stale e := by
  subst clean
  cases e <;> simp [FreshCall]

/-- The scheduler steps that an event may stand for. -/
inductive Moves (v : View) : Event → View → Prop
  | stay {e : Event} : e ≠ .resume → Moves v e v
  | lock {mutex : ℤ} (m : MutexPtr) : v.cur ∉ v.window → Moves v (.mutexLock mutex) (v.lock m)
  | unlock {mutex : ℤ} (m : MutexPtr) :
      v.cur ∉ v.window → m ∈ v.locks → mutex = m.val → Moves v (.mutexUnlock mutex) (v.unlock m)
  | wait {dev : UInt32} (d : DevPtr) :
      v.cur ∉ v.window → v.cur ≠ idleTcb → v.locks = ∅ → Moves v (.eventWait dev) (v.wait d)
  | sleep : v.cur ∈ v.window → Moves v .resume v.sleep
  | tick (due : Finset DevPtr) : Moves v .tick (v.tick due)

theorem Moves.inv (move : Moves v e v') (inv : v.Inv live idleTcb) : v'.Inv live idleTcb := by
  cases move with
  | stay => exact inv
  | lock m outside => exact inv.lock outside m
  | unlock m outside => exact inv.unlock outside m
  | wait d outside active unlocked => exact inv.wait outside active unlocked d
  | sleep window => exact inv.sleep window
  | tick due => exact inv.tick

theorem Represents.curControl (rep : Represents live stale v s) (inside : v.cur ∈ live) :
    s.curControl = if v.cur ∈ v.window then .devWait else .user := by
  simp only [Machine.curControl, rep.cur]
  exact rep.control v.cur inside

/-- A call of the running task comes from outside the window. -/
theorem Represents.outside (rep : Represents live stale v s) (inside : v.cur ∈ live)
    (user : s.curControl = .user) : v.cur ∉ v.window := by
  intro window
  rw [rep.curControl inside, if_pos window] at user
  simp at user

theorem Represents.window (rep : Represents live stale v s) (inside : v.cur ∈ live)
    (busy : s.curControl ≠ .user) : v.cur ∈ v.window := by
  by_contra outside
  rw [rep.curControl inside, if_neg outside] at busy
  exact busy rfl

/-- A step that returns to where it came from. -/
theorem Represents.stay (rep : Represents live stale v s) (models : Models live stale v' k)
    (window : v'.window = v.window) :
    Represents live stale v' { s with kernel := k } where
  toModels := models
  control := by
    rw [window]
    exact rep.control

theorem Represents.leave {c : Control} (rep : Represents live stale v s)
    (models : Models live stale v' k)
    (control : ∀ t ∈ live, Function.update s.control v.cur c t =
      if t ∈ v'.window then .devWait else .user) :
    Represents live stale v' (s.leave k c) := by
  have left : s.leave k c = { kernel := k, control := Function.update s.control v.cur c } := by
    simp only [Machine.leave, rep.cur, Machine.setControl]
  rw [left]
  exact { toModels := models, control := control }

/-- Every enabled step that names no stale mutex succeeds, and is a step of the
scheduler. -/
theorem Represents.exec (rep : Represents live stale v s) (pf : Platform)
    (inv : v.Inv live idleTcb)
    (enabled : s.Enabled e) (fresh : FreshCall stale e)
    (task : e.isTaskCreate = false) :
    ∃ v' s' r, s.exec pf e = .ok (s', r) ∧ Moves v e v' ∧ Represents live stale v' s' := by
  cases e with
  | mutexCreate =>
    exact ⟨v, _, _, by simp only [Machine.exec]; rfl, .stay (by simp),
      rep.stay rep.toModels.mutexCreate rfl⟩
  | mutexLock mutex =>
    have outside := rep.outside inv.cur_live enabled.1
    rcases rep.toModels.mutexLock inv.cur_live fresh with
      ⟨code, called⟩ | ⟨m, k', -, called, models⟩
    · exact ⟨v, _, _, by simp only [Machine.exec, called]; rfl, .stay (by simp),
        rep.stay rep.toModels rfl⟩
    · exact ⟨v.lock m, _, _, by simp only [Machine.exec, called]; rfl, .lock m outside,
        rep.stay models rfl⟩
  | mutexUnlock mutex =>
    have outside := rep.outside inv.cur_live enabled.1
    rcases rep.toModels.mutexUnlock inv.cur_live fresh with
      ⟨code, called⟩ | ⟨m, k', held, names, called, models⟩
    · exact ⟨v, _, _, by simp only [Machine.exec, called]; rfl, .stay (by simp),
        rep.stay rep.toModels rfl⟩
    · exact ⟨v.unlock m, _, _, by simp only [Machine.exec, called]; rfl, .unlock m outside held
        names, rep.stay models rfl⟩
  | eventWait dev =>
    have outside := rep.outside inv.cur_live enabled.1
    have active : v.cur ≠ idleTcb := fun same => enabled.2 (by rw [rep.cur, same])
    rcases rep.toModels.eventWait inv outside dev with
      ⟨code, called⟩ | ⟨d, k', unlocked, called, -, models⟩
    · exact ⟨v, _, _, by simp only [Machine.exec, called]; rfl, .stay (by simp),
        rep.stay rep.toModels rfl⟩
    · refine ⟨v.wait d, _, _, by simp only [Machine.exec, called]; rfl,
        .wait d outside active unlocked, rep.leave models fun t member => ?_⟩
      by_cases own : t = v.cur
      · subst own
        simp [Scheduler.wait]
      · simpa [Scheduler.wait, own] using rep.control t member
  | taskCreate mem tasks numTasks => simp [Event.isTaskCreate] at task
  | resume =>
    have window := rep.window inv.cur_live enabled
    obtain ⟨k', slept, models⟩ := rep.toModels.dispatchSleep (inv.window_locks window)
      ⟨idleTcb, inv.idle_ready window⟩
    -- The continuation is the `dispatch_sleep` of `dev_wait`: no task sleeps in `mutex_lock`.
    have busy := rep.control v.cur inv.cur_live
    rw [if_pos window] at busy
    refine ⟨v.sleep, _, _, by simp only [Machine.exec, Machine.resume, rep.cur, busy, slept]; rfl,
      .sleep window, rep.leave models fun t member => ?_⟩
    by_cases own : t = v.cur
    · subst own
      simp [Scheduler.sleep]
    · simpa [Scheduler.sleep, own] using rep.control t member
  | tick =>
    obtain ⟨due, k', ticked, models⟩ := rep.toModels.cIrqHandler inv.toCore
    refine ⟨v.tick due, _, _, by simp only [Machine.exec, ticked]; rfl, .tick due,
      rep.stay models Scheduler.tick_window⟩

/-- The simulation, for a step that was taken. -/
theorem Represents.step {label : Label} (rep : Represents live stale v s)
    (inv : v.Inv live idleTcb) (step : s.TaskStep pf label s') (fresh : FreshCall stale label.1) :
    ∃ v', Moves v label.1 v' ∧ Represents live stale v' s' := by
  obtain ⟨⟨enabled, executed⟩, task⟩ := step
  obtain ⟨v', t, r, executed', move, rep'⟩ := rep.exec pf inv enabled fresh task
  obtain ⟨rfl, -⟩ := Prod.ext_iff.mp (Except.ok.inj (executed'.symm.trans executed))
  exact ⟨v', move, rep'⟩

end Gravel
