import Gravel.Kernel.Mutex
import Gravel.Kernel.Process
import Gravel.Library.Run

/-!
# The kernel under interleaving

A `Machine` is the kernel together with where every task's execution stands: in
user code, in `dev_wait` between `enable_interrupts()` and `dispatch_sleep()`, or
in `mutex_lock` after the `dispatch_sleep()` that put it to sleep. One step is a
system call of the running task, the continuation of a system call it was
switched out of, or a timer interrupt. Mutex calls and timer interrupts are atomic;
a timer interrupt may come between the two steps of `dev_wait`.

The idle task spins in the kernel and makes no calls. Before the first successful
`task_create` the boot program runs without a TCB: `curTcb` is NULL.

## Main definitions

* `Control`, `Machine`, `Event`
* `Return`, `returns`, `HeldBy` — completed mutex calls, and what their history says
* `Machine.Enabled` — the running task can take this step
* `Machine.exec` — the step, with the return it completes, if any
* `Machine.Effect` — what the step does to the kernel
* `Machine.Step` — the labelled step relation
* `boot` — the state in which `kmain` enters the boot program
-/

namespace Gravel

open Library

/-- Where the execution of a task stands. -/
inductive Control
  /-- In user code, or asleep in a `dispatch_sleep` that returns there. -/
  | user
  /-- In `dev_wait`, inserted and about to call `dispatch_sleep`. -/
  | devWait
  /-- In `mutex_lock` on this mutex, with the tail still to execute. -/
  | lockTail (m : MutexPtr)
  deriving DecidableEq, Repr

structure Machine where
  kernel : Kernel
  control : TcbPtr → Control

inductive Event
  | mutexCreate
  | mutexLock (mutex : ℤ)
  | mutexUnlock (mutex : ℤ)
  | eventWait (dev : UInt32)
  | taskCreate (mem : UserMem) (tasks numTasks : UInt32)
  /-- The running task continues the system call it is in. -/
  | resume
  /-- A timer interrupt. -/
  | tick

/-- A mutex call, as it appears in a history. -/
inductive MutexCall
  | create
  | lock (mutex : ℤ)
  | unlock (mutex : ℤ)
  deriving DecidableEq, Repr

/-- A completed mutex call: who made it, and what it returned. The boot program is
the caller without a TCB. -/
structure Return where
  caller : Option TcbPtr
  call : MutexCall
  code : ℤ
  deriving DecidableEq, Repr

/-- The returns among the labels of a run. -/
def returns {E : Type} (w : List (E × Option Return)) : List Return := w.filterMap Prod.snd

theorem returns_snoc {E : Type} {w : List (E × Option Return)} {label : E × Option Return} :
    returns (w ++ [label]) = returns w ++ label.2.toList := by
  cases same : label.2 <;> simp [returns, same]

/-- The caller has taken the mutex by a call that returned 0, and not released it since. -/
def HeldBy (history : List Return) (caller : Option TcbPtr) (mutex : ℤ) : Prop :=
  Since (fun r => r = ⟨caller, .lock mutex, 0⟩) (fun r => r = ⟨caller, .unlock mutex, 0⟩) history

/-- What one more return changes. -/
theorem heldBy_snoc {history : List Return} {r : Return} {caller : Option TcbPtr}
    {mutex : ℤ} : HeldBy (history ++ [r]) caller mutex ↔
      r = ⟨caller, .lock mutex, 0⟩ ∨
        (r ≠ ⟨caller, .unlock mutex, 0⟩ ∧ HeldBy history caller mutex) :=
  since_snoc

namespace Machine

/-- Where the running program stands. -/
def curControl (s : Machine) : Control :=
  match s.kernel.curTcb with
  | none => .user
  | some t => s.control t

/-- System calls come from user code of a task other than the idle task, a continuation
from inside a call; a timer interrupt can always come. -/
def Enabled (s : Machine) : Event → Prop
  | .tick => True
  | .resume => s.curControl ≠ .user
  | _ => s.curControl = .user ∧ s.kernel.curTcb ≠ some idleTcb

instance (s : Machine) (e : Event) : Decidable (s.Enabled e) := by
  cases e <;> unfold Enabled <;> infer_instance

def setControl (s : Machine) (t : TcbPtr) (c : Control) : Machine :=
  { s with control := Function.update s.control t c }

/-- The caller of a blocking call is left with its continuation. -/
def leave (s : Machine) (k : Kernel) (c : Control) : Machine :=
  match s.kernel.curTcb with
  | none => { s with kernel := k }
  | some t => { s.setControl t c with kernel := k }

@[simp] theorem leave_kernel (s : Machine) (k : Kernel) (c : Control) :
    (s.leave k c).kernel = k := by
  unfold leave
  split <;> rfl

/-- The continuation of the call the running task is in: the `dispatch_sleep()` of
`dev_wait`, or the tail of `mutex_lock`. -/
def resume (s : Machine) : Except Fault (Machine × Option Return) :=
  match s.kernel.curTcb with
  | none => .ok (s, none)
  | some t =>
    match s.control t with
    | .user => .ok (s, none)
    | .devWait =>
      match dispatchSleep s.kernel with
      | .error fault => .error fault
      | .ok k => .ok (s.leave k .user, none)
    | .lockTail m =>
      .ok (s.leave (mutexLockTail s.kernel m t) .user, some ⟨some t, .lock m.val, 0⟩)

/-- One step. -/
def exec (pf : Platform) (s : Machine) : Event → Except Fault (Machine × Option Return)
  | .mutexCreate =>
    let (code, k) := mutexCreate s.kernel
    .ok ({ s with kernel := k }, some ⟨s.kernel.curTcb, .create, code⟩)
  | .mutexLock mutex =>
    match Gravel.mutexLock s.kernel mutex with
    | .error fault => .error fault
    | .ok (.ret code, k) =>
      .ok ({ s with kernel := k }, some ⟨s.kernel.curTcb, .lock mutex, code⟩)
    -- The call returns when the caller has run its tail.
    | .ok (.asleep m, k) => .ok (s.leave k (.lockTail m), none)
  | .mutexUnlock mutex =>
    match Gravel.mutexUnlock s.kernel mutex with
    | .error fault => .error fault
    | .ok (code, k) =>
      .ok ({ s with kernel := k }, some ⟨s.kernel.curTcb, .unlock mutex, code⟩)
  | .eventWait dev =>
    match Gravel.eventWait s.kernel dev with
    | .error fault => .error fault
    | .ok (some _, k) => .ok ({ s with kernel := k }, none)
    | .ok (none, k) => .ok (s.leave k .devWait, none)
  | .taskCreate mem tasks numTasks =>
    match Gravel.taskCreate pf mem s.kernel tasks numTasks with
    | .error fault => .error fault
    | .ok (some _, k) => .ok ({ s with kernel := k }, none)
    -- Every TCB that can run is launched afresh.
    | .ok (none, k) => .ok ({ kernel := k, control := fun _ => .user }, none)
  | .resume => s.resume
  | .tick =>
    match cIrqHandler s.kernel with
    | .error fault => .error fault
    | .ok k => .ok ({ s with kernel := k }, none)

/-- What a step does to the kernel, with the return it completes. -/
inductive Effect (pf : Platform) (s : Machine) : Event → Option Return → Kernel → Prop
  | mutexCreate : Effect pf s .mutexCreate
      (some ⟨s.kernel.curTcb, .create, (Gravel.mutexCreate s.kernel).1⟩)
      (Gravel.mutexCreate s.kernel).2
  | mutexLock {mutex code : ℤ} {k : Kernel} :
      Gravel.mutexLock s.kernel mutex = .ok (.ret code, k) →
      Effect pf s (.mutexLock mutex) (some ⟨s.kernel.curTcb, .lock mutex, code⟩) k
  | asleep {mutex : ℤ} {m : MutexPtr} {k : Kernel} :
      Gravel.mutexLock s.kernel mutex = .ok (.asleep m, k) → Effect pf s (.mutexLock mutex) none k
  | mutexUnlock {mutex code : ℤ} {k : Kernel} :
      Gravel.mutexUnlock s.kernel mutex = .ok (code, k) →
      Effect pf s (.mutexUnlock mutex) (some ⟨s.kernel.curTcb, .unlock mutex, code⟩) k
  | eventWait {dev : UInt32} {code : Option ℤ} {k : Kernel} :
      Gravel.eventWait s.kernel dev = .ok (code, k) → Effect pf s (.eventWait dev) none k
  | taskCreate {mem : UserMem} {tasks numTasks : UInt32} {code : Option ℤ} {k : Kernel} :
      Gravel.taskCreate pf mem s.kernel tasks numTasks = .ok (code, k) →
      Effect pf s (.taskCreate mem tasks numTasks) none k
  | user : s.curControl = .user → Effect pf s .resume none s.kernel
  | devWait {k : Kernel} : s.curControl = .devWait → dispatchSleep s.kernel = .ok k →
      Effect pf s .resume none k
  | lockTail {t : TcbPtr} {m : MutexPtr} : s.kernel.curTcb = some t → s.control t = .lockTail m →
      Effect pf s .resume (some ⟨some t, .lock m.val, 0⟩) (mutexLockTail s.kernel m t)
  | tick {k : Kernel} : cIrqHandler s.kernel = .ok k → Effect pf s .tick none k

variable {pf : Platform} {s s' : Machine} {e : Event} {r : Option Return}

theorem exec_effect (executed : s.exec pf e = .ok (s', r)) : s.Effect pf e r s'.kernel := by
  cases e with
  | mutexCreate =>
    obtain ⟨rfl, rfl⟩ := Prod.mk.inj (Except.ok.inj executed)
    exact .mutexCreate
  | mutexLock mutex =>
    simp only [exec] at executed
    split at executed
    · simp at executed
    · rename_i called
      obtain ⟨rfl, rfl⟩ := Prod.mk.inj (Except.ok.inj executed)
      exact .mutexLock called
    · rename_i called
      obtain ⟨rfl, rfl⟩ := Prod.mk.inj (Except.ok.inj executed)
      rw [leave_kernel]
      exact .asleep called
  | mutexUnlock mutex =>
    simp only [exec] at executed
    split at executed
    · simp at executed
    · rename_i called
      obtain ⟨rfl, rfl⟩ := Prod.mk.inj (Except.ok.inj executed)
      exact .mutexUnlock called
  | eventWait dev =>
    simp only [exec] at executed
    split at executed
    · simp at executed
    · rename_i called
      obtain ⟨rfl, rfl⟩ := Prod.mk.inj (Except.ok.inj executed)
      exact .eventWait called
    · rename_i called
      obtain ⟨rfl, rfl⟩ := Prod.mk.inj (Except.ok.inj executed)
      rw [leave_kernel]
      exact .eventWait called
  | taskCreate mem tasks numTasks =>
    simp only [exec] at executed
    split at executed
    · simp at executed
    · rename_i called
      obtain ⟨rfl, rfl⟩ := Prod.mk.inj (Except.ok.inj executed)
      exact .taskCreate called
    · rename_i called
      obtain ⟨rfl, rfl⟩ := Prod.mk.inj (Except.ok.inj executed)
      exact .taskCreate called
  | resume =>
    simp only [exec, resume] at executed
    split at executed
    · rename_i current
      obtain ⟨rfl, rfl⟩ := Prod.mk.inj (Except.ok.inj executed)
      exact .user (by simp only [curControl, current])
    · rename_i t current
      split at executed
      · rename_i control
        obtain ⟨rfl, rfl⟩ := Prod.mk.inj (Except.ok.inj executed)
        exact .user (by simp only [curControl, current, control])
      · rename_i control
        split at executed
        · simp at executed
        · rename_i slept
          obtain ⟨rfl, rfl⟩ := Prod.mk.inj (Except.ok.inj executed)
          rw [leave_kernel]
          exact .devWait (by simp only [curControl, current, control]) slept
      · rename_i control
        obtain ⟨rfl, rfl⟩ := Prod.mk.inj (Except.ok.inj executed)
        rw [leave_kernel]
        exact .lockTail current control
  | tick =>
    simp only [exec] at executed
    split at executed
    · simp at executed
    · rename_i handled
      obtain ⟨rfl, rfl⟩ := Prod.mk.inj (Except.ok.inj executed)
      exact .tick handled

end Machine

/-- A step as the label of a run: the event, and the return it completes. -/
abbrev Label := Event × Option Return

/-- The labelled steps of the machine. -/
def Machine.Step (pf : Platform) (s : Machine) (label : Label) (s' : Machine) : Prop :=
  s.Enabled label.1 ∧ s.exec pf label.1 = .ok (s', label.2)

def Event.isTaskCreate : Event → Bool
  | .taskCreate .. => true
  | _ => false

/-- A step other than a call of `task_create`. -/
def Machine.TaskStep (pf : Platform) (s : Machine) (label : Label) (s' : Machine) : Prop :=
  s.Step pf label s' ∧ label.1.isTaskCreate = false

/-- `bss` is zero: no task, no waiter, empty queue, time 0. -/
def bssKernel : Kernel where
  systemTcb _ :=
    { nativePrio := 0, curPrio := 0, context := default, holdsLock := 0, sleepQueue := none }
  curTcb := none
  runQueue := { runList := fun _ => none, runBits := fun _ => 0, groupRunBits := 0, added := [] }
  devices _ := { sleepQueue := none, nextMatch := 0 }
  gtMutex _ := { bAvailable := false, pHoldingTcb := none, bLock := false, pSleepQueue := none }
  curMutexNum := 0
  sysTime := 0
  regs := default

/-- `kmain` has run `init_timer` and `mutex_init` and enters the boot program. -/
def boot : Machine := { kernel := mutexInit bssKernel, control := fun _ => .user }

/-! ### Executing a list of events -/

/-- Take the listed steps, as long as each is enabled, does not fault, and passes the
guard. -/
def Machine.execAll (pf : Platform) (guard : Machine → Event → Bool) :
    List Event → Machine → Option Machine
  | [], s => some s
  | e :: es, s =>
    if s.Enabled e ∧ guard s e = true ∧ e.isTaskCreate = false then
      match s.exec pf e with
      | .ok (s, _) => execAll pf guard es s
      | .error _ => none
    else none

/-- What executes is a run. -/
theorem Machine.run_of_execAll {pf : Platform} {guard : Machine → Event → Bool}
    {G : Machine → Event → Prop} (sound : ∀ s e, guard s e = true → G s e) {es : List Event}
    {s s' : Machine} (executed : s.execAll pf guard es = some s') :
    ∃ w, Run (fun s label s' => s.TaskStep pf label s' ∧ G s label.1) s w s' := by
  induction es generalizing s with
  | nil =>
    obtain rfl := Option.some.inj executed
    exact ⟨[], .nil s⟩
  | cons e es ih =>
    simp only [execAll] at executed
    split at executed
    · rename_i allowed
      split at executed
      · rename_i t r took
        obtain ⟨w, rest⟩ := ih executed
        exact ⟨(e, r) :: w, .cons ⟨⟨⟨allowed.1, took⟩, allowed.2.2⟩, sound s e allowed.2.1⟩ rest⟩
      · simp at executed
    · simp at executed

end Gravel
