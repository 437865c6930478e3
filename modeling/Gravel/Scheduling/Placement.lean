import Gravel.Scheduling.Launch
import Gravel.Scheduling.Simulation

/-!
# Where the tasks are

A task of the running set is the current one, or is queued, or is linked in the sleep
queue of a device or of a mutex. `dev_wait` breaks this: it enables interrupts before it
calls `dispatch_sleep`, so a timer interrupt may wake the caller and preempt it, and
when it resumes it goes to sleep in no queue at all.

## Main definitions

* `Kernel.Places` — the task is in one of the four places
* `SleepsLinked` — a task that goes to sleep can still be found

## Main results

* `places_of_guarded_run` — runs in which sleeping tasks can be found lose no task
* `resume_loses_task` — a task that sleeps otherwise is lost
* `devWait_loses_task` — such a run, from boot
-/

namespace Gravel

open Library

/-- The task is in the run queue. -/
def Kernel.Queued (k : Kernel) (t : TcbPtr) : Prop :=
  ∃ p < Config.osMaxTasks, k.runQueue.slot p = some t

/-- The task waits for a device. -/
def Kernel.OnDevice (k : Kernel) (t : TcbPtr) : Prop :=
  ∃ d, Linked k.link (k.devices d).sleepQueue t

/-- The task waits for a mutex. -/
def Kernel.OnMutex (k : Kernel) (t : TcbPtr) : Prop :=
  ∃ m, Linked k.link (k.gtMutex m).pSleepQueue t

/-- The task is somewhere. -/
def Kernel.Places (k : Kernel) (t : TcbPtr) : Prop :=
  k.curTcb = some t ∨ k.Queued t ∨ k.OnDevice t ∨ k.OnMutex t

/-- A task that is about to execute the `dispatch_sleep` of `dev_wait` is queued or
waits for a device. -/
def SleepsLinked (s : Machine) : Event → Prop
  | .resume => ∀ t, s.kernel.curTcb = some t → s.control t = .devWait →
      s.kernel.Queued t ∨ s.kernel.OnDevice t
  | _ => True

variable {live : Finset TcbPtr} {stale : Set MutexPtr} {v v' : View} {k : Kernel} {t : TcbPtr}
  {s s' : Machine} {pf : Platform} {e : Event} {n : ℕ}

theorem Agrees.queued_iff (agrees : Agrees live stale v k) : k.Queued t ↔ t ∈ v.ready := by
  constructor
  · rintro ⟨p, inside, found⟩
    exact ((agrees.slots p inside t).mp found).2
  · intro ready
    exact ⟨t.val, t.isLt, agrees.slots.slot ready⟩

theorem Models.onDevice_iff (models : Models live stale v k) :
    k.OnDevice t ↔ ∃ d, t ∈ v.waits d :=
  exists_congr fun d => (models.chains d).linked_iff

/-- A representation of a placed scheduler state has every live task in place. -/
theorem Models.places (models : Models live stale v k) (placed : v.Placed live)
    (member : t ∈ live) : k.Places t := by
  rcases placed t member with rfl | ready | waiting
  · exact Or.inl models.cur
  · exact Or.inr (Or.inl (models.queued_iff.mpr ready))
  · exact Or.inr (Or.inr (Or.inl (models.onDevice_iff.mpr waiting)))

/-- Only the second half of a wait can lose a task. -/
theorem Moves.placed (move : Moves v e v') (inv : v.Inv live idleTcb) (placed : v.Placed live)
    (kept : e = .resume → v.cur ∈ v.window → v.cur ∈ v.ready ∨ ∃ d, v.cur ∈ v.waits d) :
    v'.Placed live := by
  cases move with
  | stay => exact placed
  | lock => exact placed
  | unlock => exact placed
  | wait d => exact placed.wait d
  | sleep window => exact (inv.placed_sleep_iff window placed).mpr (kept rfl window)
  | tick due => exact placed.tick

/-- The steps of a run in which mutex calls name no stale mutex, and tasks that go to
sleep can be found. -/
def PlacedStep (pf : Platform) (stale : Set MutexPtr) (s : Machine) (label : Label)
    (s' : Machine) : Prop :=
  s.TaskStep pf label s' ∧ FreshCall stale label.1 ∧ SleepsLinked s label.1

theorem Represents.kept (rep : Represents live stale v s) (inv : v.Inv live idleTcb)
    (linked : SleepsLinked s e) (resumes : e = .resume) (window : v.cur ∈ v.window) :
    v.cur ∈ v.ready ∨ ∃ d, v.cur ∈ v.waits d := by
  subst resumes
  have busy := rep.control v.cur inv.cur_live
  rw [if_pos window] at busy
  exact (linked v.cur rep.cur busy).imp rep.queued_iff.mp rep.onDevice_iff.mp

/-- What every step of such a run keeps. -/
theorem placed_step {label : Label} (step : PlacedStep pf stale s label s')
    (before : ∃ v, Represents live stale v s ∧ v.Inv live idleTcb ∧ v.Placed live) :
    ∃ v, Represents live stale v s' ∧ v.Inv live idleTcb ∧ v.Placed live := by
  obtain ⟨v, rep, inv, placed⟩ := before
  obtain ⟨taken, fresh, linked⟩ := step
  obtain ⟨v', move, rep'⟩ := rep.step inv taken fresh
  exact ⟨v', rep', move.inv inv, move.placed inv placed (rep.kept inv linked)⟩

/-- No task is lost in a run in which no mutex call names a mutex that was not free when
the set was launched, and every task that executes the `dispatch_sleep` of `dev_wait` is
still queued or linked. -/
theorem places_of_guarded_run {w : List Label} (launched : Launched pf k n s)
    (run : Run (PlacedStep pf k.stale) s w s') : ∀ t ∈ liveTcbs n, s'.kernel.Places t := by
  obtain ⟨v, rep, -, placed⟩ := run.invariant (fun _ _ _ before step => placed_step step before)
    ⟨View.launch n, launched.represents, View.inv_launch, View.placed_launch⟩
  exact fun t member => rep.places placed member

/-- A task that resumes is the last that waited for device 3. -/
def headOfDevice3 (s : Machine) : Event → Bool
  | .resume => decide (s.kernel.curTcb = (s.kernel.devices 3).sleepQueue)
  | _ => true

theorem sleepsLinked_of_headOfDevice3 (head : headOfDevice3 s e = true) : SleepsLinked s e := by
  cases e with
  | resume =>
    intro t current _
    have first := of_decide_eq_true head
    rw [current] at first
    exact Or.inr ⟨3, first ▸ .head t⟩
  | _ => trivial

/-- A run from boot in which a task waits for its device and sleeps there. -/
theorem places_of_guarded_run_twoTasks :
    ∃ s w s', Launched exactPlatform boot.kernel 2 s ∧
      Run (PlacedStep exactPlatform boot.kernel.stale) s w s' ∧ s'.kernel.curTcb = some 2 ∧
      ∀ t ∈ liveTcbs 2, s'.kernel.Places t := by
  obtain ⟨s, w, s', launched, run, second⟩ := exists_run_of_executed (k := boot.kernel)
    (G := fun s e => FreshCall boot.kernel.stale e ∧ SleepsLinked s e)
    (fun _ _ head => ⟨freshCall_of_clean stale_boot, sleepsLinked_of_headOfDevice3 head⟩)
    (by decide +kernel : ((launch exactPlatform twoTasks Config.usrStartAddr 2 boot.kernel).bind
      (Machine.execAll exactPlatform headOfDevice3 [.eventWait 3, .tick, .resume])).any
        (fun s => s.kernel.curTcb = some 2) = true)
  exact ⟨s, w, s', launched, run, of_decide_eq_true second, places_of_guarded_run launched run⟩

/-- The condition is exact: with every mutex free at the start, a task that goes to sleep
unlinked is lost. -/
theorem resume_loses_task {w : List Label} {s'' : Machine} {label : Label}
    (launched : Launched pf k n s) (clean : k.stale = ∅) (run : Run (PlacedStep pf k.stale) s w s')
    (step : s'.TaskStep pf label s'') (unlinked : ¬ SleepsLinked s' label.1) :
    ∃ t ∈ liveTcbs n, ¬ s''.kernel.Places t := by
  obtain ⟨v, rep, inv, -⟩ := run.invariant (fun _ _ _ before step => placed_step step before)
    ⟨View.launch n, launched.represents, View.inv_launch, View.placed_launch⟩
  rw [clean] at rep
  obtain ⟨e, r⟩ := label
  cases e with
  | resume =>
    obtain ⟨v', move, rep'⟩ := rep.step inv step trivial
    cases move with
    | stay impossible => exact absurd rfl impossible
    | sleep window =>
      simp only [SleepsLinked, not_forall, not_or] at unlinked
      obtain ⟨t, current, -, unqueued, unlisted⟩ := unlinked
      obtain rfl : v.cur = t := Option.some.inj (rep.cur.symm.trans current)
      rw [rep.queued_iff] at unqueued
      rw [rep.onDevice_iff] at unlisted
      refine ⟨v.cur, inv.cur_live, ?_⟩
      -- Unlinked before the sleep, the task is in none of the places after it.
      rintro (runs | queued | listed | ⟨m, linked⟩)
      · have same : v.best = v.cur := Option.some.inj (rep'.cur.symm.trans runs)
        exact unqueued (same ▸ Scheduler.best_mem ⟨idleTcb, inv.idle_ready window⟩)
      · exact unqueued (Finset.mem_of_mem_erase (rep'.queued_iff.mp queued))
      · exact unlisted (rep'.onDevice_iff.mp listed)
      · rw [(rep'.mutex m (Set.notMem_empty m)).2.2] at linked
        exact not_linked_none linked
  | _ => exact absurd trivial unlinked

/-! ### A run that loses a task -/

/-- The first task waits for device 3; the second does so just before its next event. The
interrupt wakes both and preempts the second between its two halves of `dev_wait`. The
first waits again, and the second resumes and sleeps in no queue. -/
def losingEvents : List Event :=
  [.eventWait 3, .resume] ++ List.replicate 9 .tick ++
    [.eventWait 3, .tick, .eventWait 3, .resume, .resume]

/-- The idle task runs, TCB 2 has an empty slot, only TCB 1 waits for a device, and no
mutex has a waiter. -/
def losesSecond (s : Machine) : Bool :=
  decide (s.kernel.curTcb = some idleTcb ∧
    (∀ p < Config.osMaxTasks, s.kernel.runQueue.slot p ≠ some 2) ∧
    (∀ d, Chain s.kernel.link (s.kernel.devices d).sleepQueue (if d = 3 then [1] else [])) ∧
    ∀ m, (s.kernel.gtMutex m).pSleepQueue = none)

theorem not_places_of_losesSecond (lost : losesSecond s = true) : ¬ s.kernel.Places 2 := by
  obtain ⟨current, slots, chains, mutexes⟩ := of_decide_eq_true lost
  rintro (runs | ⟨p, inside, found⟩ | ⟨d, linked⟩ | ⟨m, linked⟩)
  · rw [current] at runs
    exact absurd runs (by decide)
  · exact slots p inside found
  · rw [(chains d).linked_iff] at linked
    split at linked <;> simp at linked
  · rw [mutexes m] at linked
    exact not_linked_none linked

/-- The general statement fails: `dev_wait` loses a task. -/
theorem devWait_loses_task :
    ¬ ∀ n s w s', Launched exactPlatform boot.kernel n s →
      Run (Machine.TaskStep exactPlatform) s w s' → ∀ t ∈ liveTcbs n, s'.kernel.Places t := by
  intro placed
  obtain ⟨s, w, s', launched, run, lost⟩ := exists_run_of_executed (k := boot.kernel)
    (G := fun _ _ => True) (fun _ _ _ => trivial)
    (by decide +kernel : ((launch exactPlatform twoTasks Config.usrStartAddr 2 boot.kernel).bind
      (Machine.execAll exactPlatform (fun _ _ => true) losingEvents)).any losesSecond = true)
  have unguarded := run.mono (fun _ _ _ step => step.1)
  exact not_places_of_losesSecond lost (placed 2 s w s' launched unguarded 2 (by decide))

end Gravel
