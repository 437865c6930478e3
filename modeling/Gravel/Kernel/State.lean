import Mathlib.Data.BitVec
import Mathlib.Data.Fin.Basic
import Mathlib.Logic.Function.Basic

/-!
# The kernel's data

The records of `task.h`, `lock.h` and `device.c`, and the static variables of
the scheduler, the mutex layer, the devices and the clock, gathered in one
`Kernel` state. A pointer into `system_tcb` is an index of that array, and a
pointer that may be NULL is an `Option` of it.

Kernel code runs with interrupts disabled except where a function says so, so
every operation is a function from states to states. An operation fails with a
`Fault` where the machine would stop or leave the language: a failed `assert`
halts the processor in `panic`, NULL is not a `tcb_t`, and a pointer loop that
never meets NULL never returns.

## Main definitions

* `Config` — the constants of `config.h`, `device.h`, `physmem.h`, `fileno.h` and `errno.h`
* `Task`, `Tcb`, `Mutex`, `Dev`, `RunQueue` — the records of the source
* `Kernel` — the static variables of the kernel
* `Platform` — what the linker and the float library supply
-/

namespace Gravel

namespace Config

/-- Entries of `system_tcb`, and number of priorities. -/
abbrev osMaxTasks : ℕ := 64

/-- Largest task set: one TCB is the idle task's, and priority 0 is kept for lock holders. -/
abbrev osAvailTasks : ℕ := 62

abbrev numRunGroup : ℕ := 8

abbrev osNumMutex : ℕ := 32

abbrev numDevices : ℕ := 4

abbrev idlePrio : ℕ := 63

/-- The ceiling every lock holder runs at. -/
abbrev highestPrio : ℕ := 0

abbrev timeResolution : UInt32 := 5

abbrev usrStartAddr : UInt32 := 0xa0000000

abbrev usrEndAddr : UInt32 := 0xa3000000

abbrev ramStartAddr : UInt32 := 0xa0000000
abbrev ramEndAddr : UInt32 := 0xa4000000
abbrev flashStartAddr : UInt32 := 0x00000000
abbrev flashEndAddr : UInt32 := 0x01000000

abbrev stdinFileno : ℤ := 0
abbrev stdoutFileno : ℤ := 1

abbrev eperm : ℤ := 1
abbrev ebadf : ℤ := 9
abbrev enomem : ℤ := 12
abbrev efault : ℤ := 14
abbrev einval : ℤ := 22
abbrev edeadlock : ℤ := 58
abbrev eholdslock : ℤ := 60
abbrev esched : ℤ := 100

end Config

/-! The arrays are not empty, so numerals name their entries. -/

instance : NeZero Config.osMaxTasks := ⟨by decide⟩
instance : NeZero Config.osNumMutex := ⟨by decide⟩
instance : NeZero Config.numDevices := ⟨by decide⟩

/-- A non-NULL `tcb_t *`: an entry of `system_tcb`. -/
abbrev TcbPtr := Fin Config.osMaxTasks

/-- An entry of `gtMutex`. -/
abbrev MutexPtr := Fin Config.osNumMutex

/-- An entry of `devices`. -/
abbrev DevPtr := Fin Config.numDevices

/-- The TCB of the idle task. -/
abbrev idleTcb : TcbPtr := 63

/-- Where the machine stops executing the kernel's own code. -/
inductive Fault
  /-- An `assert` failed: `panic` disables interrupts and spins. -/
  | assertFailure
  /-- A NULL `tcb_t *` was dereferenced. -/
  | nullDeref
  /-- A loop over links never meets NULL. -/
  | divergence
  deriving DecidableEq, Repr

/-- A task descriptor supplied by user code. -/
structure Task where
  lambda : UInt32
  data : UInt32
  stackPos : UInt32
  C : UInt32
  T : UInt32
  B : UInt32
  deriving DecidableEq, Repr

/-- The callee-saved registers a context switch saves and loads. -/
structure SchedContext where
  r4 : UInt32
  r5 : UInt32
  r6 : UInt32
  r7 : UInt32
  r8 : UInt32
  r9 : UInt32
  r10 : UInt32
  r11 : UInt32
  sp : UInt32
  lr : UInt32
  deriving DecidableEq, Repr, Inhabited

structure Tcb where
  nativePrio : ℕ
  curPrio : ℕ
  context : SchedContext
  holdsLock : ℤ
  /-- The link of whichever sleep queue the task is in. -/
  sleepQueue : Option TcbPtr
  deriving DecidableEq, Repr, Inhabited

/-- A mutex. `bAvailable` is cleared when the mutex is created. -/
structure Mutex where
  bAvailable : Bool
  pHoldingTcb : Option TcbPtr
  bLock : Bool
  pSleepQueue : Option TcbPtr
  deriving DecidableEq, Repr

structure Dev where
  sleepQueue : Option TcbPtr
  nextMatch : UInt32
  deriving DecidableEq, Repr

/-- One call of `runqueue_add`: its arguments, and the task it found queued at
that priority. -/
structure AddCall where
  tcb : TcbPtr
  prio : ℕ
  found : Option TcbPtr
  deriving DecidableEq, Repr

/-- The call overwrites no other task, and its priority has a slot. -/
def AddCall.Ok (call : AddCall) : Prop :=
  call.prio < Config.osMaxTasks ∧ (call.found = none ∨ call.found = some call.tcb)

/-- The static variables of `run_queue.c`. The arrays are total functions of the
index; only indices below 64 and 8 are inside the C arrays. The list `added` is
a record kept for the proofs: the calls of `runqueue_add` since the last
`runqueue_init`, in order. No operation reads it. -/
structure RunQueue where
  runList : ℕ → Option TcbPtr
  runBits : ℕ → BitVec 8
  groupRunBits : BitVec 8
  added : List AddCall

/-- The static variables of the kernel, and `regs`, the callee-saved registers of
the processor while kernel code runs. -/
structure Kernel where
  systemTcb : TcbPtr → Tcb
  curTcb : Option TcbPtr
  runQueue : RunQueue
  devices : DevPtr → Dev
  gtMutex : MutexPtr → Mutex
  curMutexNum : ℕ
  sysTime : UInt32
  regs : SchedContext

/-- The links of all sleep queues. -/
def Kernel.link (s : Kernel) (t : TcbPtr) : Option TcbPtr := (s.systemTcb t).sleepQueue

/-- Overwrite one TCB. -/
def Kernel.setTcb (s : Kernel) (t : TcbPtr) (tcb : Tcb) : Kernel :=
  { s with systemTcb := Function.update s.systemTcb t tcb }

/-- Overwrite one mutex. -/
def Kernel.setMutex (s : Kernel) (m : MutexPtr) (mutex : Mutex) : Kernel :=
  { s with gtMutex := Function.update s.gtMutex m mutex }

/-- Overwrite one device. -/
def Kernel.setDev (s : Kernel) (d : DevPtr) (dev : Dev) : Kernel :=
  { s with devices := Function.update s.devices d dev }

/-- The arithmetic of `float` as the admission test uses it: conversion from
`unsigned long`, decimal literals in ten-thousandths, sum, quotient, and `>`. -/
structure FloatOps (F : Type) where
  ofUnsigned : UInt32 → F
  ofDecimal : ℕ → F
  add : F → F → F
  div : F → F → F
  gt : F → F → Bool

/-- What is not in the C sources: the float library, the addresses the linker
assigns, and U-Boot's `global_data` pointer. -/
structure Platform where
  F : Type
  float : FloatOps F
  kstackHigh : TcbPtr → UInt32
  launchTask : UInt32
  idle : UInt32
  globalData : UInt32

/-! ### Reading one overwritten field -/

section Simp

variable (s : Kernel) (t u : TcbPtr) (tcb : Tcb) (m : MutexPtr) (mutex : Mutex) (d : DevPtr)
  (dev : Dev)

@[simp] theorem Kernel.setTcb_curTcb : (s.setTcb t tcb).curTcb = s.curTcb := rfl
@[simp] theorem Kernel.setTcb_runQueue : (s.setTcb t tcb).runQueue = s.runQueue := rfl
@[simp] theorem Kernel.setTcb_devices : (s.setTcb t tcb).devices = s.devices := rfl
@[simp] theorem Kernel.setTcb_gtMutex : (s.setTcb t tcb).gtMutex = s.gtMutex := rfl
@[simp] theorem Kernel.setTcb_sysTime : (s.setTcb t tcb).sysTime = s.sysTime := rfl
@[simp] theorem Kernel.setTcb_curMutexNum : (s.setTcb t tcb).curMutexNum = s.curMutexNum := rfl

@[simp] theorem Kernel.setTcb_systemTcb :
    (s.setTcb t tcb).systemTcb = Function.update s.systemTcb t tcb := rfl

@[simp] theorem Kernel.setTcb_link :
    (s.setTcb t tcb).link = Function.update s.link t tcb.sleepQueue := by
  funext u
  by_cases h : u = t
  · subst h
    simp [Kernel.link]
  · simp [Kernel.link, Function.update_of_ne h]

@[simp] theorem Kernel.setMutex_systemTcb : (s.setMutex m mutex).systemTcb = s.systemTcb := rfl
@[simp] theorem Kernel.setMutex_curTcb : (s.setMutex m mutex).curTcb = s.curTcb := rfl
@[simp] theorem Kernel.setMutex_runQueue : (s.setMutex m mutex).runQueue = s.runQueue := rfl
@[simp] theorem Kernel.setMutex_devices : (s.setMutex m mutex).devices = s.devices := rfl
@[simp] theorem Kernel.setMutex_link : (s.setMutex m mutex).link = s.link := rfl

@[simp] theorem Kernel.setMutex_gtMutex :
    (s.setMutex m mutex).gtMutex = Function.update s.gtMutex m mutex := rfl

@[simp] theorem Kernel.setDev_systemTcb : (s.setDev d dev).systemTcb = s.systemTcb := rfl
@[simp] theorem Kernel.setDev_curTcb : (s.setDev d dev).curTcb = s.curTcb := rfl
@[simp] theorem Kernel.setDev_runQueue : (s.setDev d dev).runQueue = s.runQueue := rfl
@[simp] theorem Kernel.setDev_gtMutex : (s.setDev d dev).gtMutex = s.gtMutex := rfl
@[simp] theorem Kernel.setDev_link : (s.setDev d dev).link = s.link := rfl

@[simp] theorem Kernel.setDev_devices :
    (s.setDev d dev).devices = Function.update s.devices d dev := rfl

end Simp

end Gravel
