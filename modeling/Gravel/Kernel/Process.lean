import Gravel.Kernel.Admission
import Gravel.Kernel.Device

/-!
# Task creation

`allocate_tasks` and `sched_init` of `sched.c`, and `task_create` of `proc.c`.
The descriptors are read from user memory, which the kernel does not write.

## Main definitions

* `readTask` — the descriptor at an address
* `allocateTasks` — TCB `j + 1` is given the task at index `j`
* `taskCreate`
-/

namespace Gravel

/-- User memory, by the address of a word. -/
abbrev UserMem := UInt32 → UInt32

/-- `sizeof(task_t)` -/
abbrev sizeofTask : UInt32 := 24

/-- The six words of a `task_t`. -/
def readTask (mem : UserMem) (p : UInt32) : Task where
  lambda := mem p
  data := mem (p + 4)
  stackPos := mem (p + 8)
  C := mem (p + 12)
  T := mem (p + 16)
  B := mem (p + 20)

/-- User memory that holds an array of descriptors. -/
def taskArray (base : UInt32) (tasks : List Task) : UserMem := fun p =>
  let offset := (p - base).toNat
  match tasks[offset / 24]? with
  | none => 0
  | some task =>
    match offset % 24 with
    | 0 => task.lambda
    | 4 => task.data
    | 8 => task.stackPos
    | 12 => task.C
    | 16 => task.T
    | _ => task.B

/-- The TCB of priority `i`. -/
def tcbOf (i : ℕ) : TcbPtr := Fin.ofNat Config.osMaxTasks i

/-- The TCB of a new task at priority `i`. The registers r7 and r9 to r11 of the
context keep what they held. -/
def launchTcb (pf : Platform) (task : Task) (i : ℕ) (old : Tcb) : Tcb where
  nativePrio := i
  curPrio := i
  context :=
    { old.context with
      r4 := task.lambda
      r5 := task.data
      r6 := task.stackPos
      r8 := pf.globalData
      sp := pf.kstackHigh (tcbOf i)
      lr := pf.launchTask }
  holdsLock := 0
  sleepQueue := none

/-- The loop body of `allocate_tasks` at index `j`. -/
def allocateTask (pf : Platform) (task : Task) (j : ℕ) (s : Kernel) : Kernel :=
  let i := j + 1
  let s := s.setTcb (tcbOf i) (launchTcb pf task i (s.systemTcb (tcbOf i)))
  { s with runQueue := runqueueAdd s.runQueue (tcbOf i) i }

/-- `for (j = num_tasks - 1; j >= 0; j--)` -/
def allocateLoop (pf : Platform) (task : ℕ → Task) : ℕ → Kernel → Kernel
  | 0, s => s
  | j + 1, s => allocateLoop pf task j (allocateTask pf (task j) j s)

/-- The idle task. Its link is left alone. -/
def allocateIdle (pf : Platform) (s : Kernel) : Kernel :=
  let s := s.setTcb idleTcb
    { nativePrio := Config.idlePrio
      curPrio := Config.idlePrio
      context :=
        { r4 := 0, r5 := 0, r6 := 0, r7 := 0, r8 := pf.globalData, r9 := 0, r10 := 0, r11 := 0
          sp := pf.kstackHigh idleTcb
          lr := pf.idle }
      holdsLock := 0
      sleepQueue := (s.systemTcb idleTcb).sleepQueue }
  { s with runQueue := runqueueAdd s.runQueue idleTcb Config.idlePrio }

def allocateTasks (pf : Platform) (task : ℕ → Task) (numTasks : ℕ) (s : Kernel) : Kernel :=
  let s := { s with runQueue := runqueueInit s.runQueue }
  let s := allocateLoop pf task numTasks s
  allocateIdle pf s

def schedInit (s : Kernel) : Except Fault Kernel := dispatchNosave s

/-- A platform whose `float` is exact. -/
def exactPlatform : Platform where
  F := ℚ
  float := exactFloat
  kstackHigh _ := 0
  launchTask := 0
  idle := 0
  globalData := 0

/-- `task_create`: an error code, or `none` in the state in which the first new task
starts. The allocation of the pointer array is assumed to succeed. -/
def taskCreate (pf : Platform) (mem : UserMem) (s : Kernel) (tasks numTasks : UInt32) :
    Except Fault (Option ℤ × Kernel) :=
  if numTasks.toNat > Config.osAvailTasks then .ok (some (-Config.einval), s)
  else if !validAddr tasks (numTasks * sizeofTask) Config.usrStartAddr Config.usrEndAddr then
    .ok (some (-Config.efault), s)
  else
    let tasksPtrArr := fun i : ℕ => tasks + sizeofTask * UInt32.ofNat i
    let (schedulable, tasksPtrArr) :=
      assignSchedule pf.float (readTask mem) tasksPtrArr numTasks.toNat
    if !schedulable then .ok (some (-Config.esched), s)
    else
      -- From here on the old task set is gone. The mutexes are not reset.
      let s := devInit s
      let s := allocateTasks pf (fun j => readTask mem (tasksPtrArr j)) numTasks.toNat s
      match schedInit s with
      | .error fault => .error fault
      | .ok s => .ok (none, s)

/-- A call of `task_create` that returns a code changes nothing. -/
theorem taskCreate_eq_ok_some {pf : Platform} {mem : UserMem} {k k' : Kernel}
    {tasks numTasks : UInt32} {code : ℤ}
    (refused : taskCreate pf mem k tasks numTasks = .ok (some code, k')) : k' = k := by
  unfold taskCreate at refused
  split at refused
  · exact (Prod.mk.inj (Except.ok.inj refused)).2.symm
  · split at refused
    · exact (Prod.mk.inj (Except.ok.inj refused)).2.symm
    · dsimp only at refused
      split at refused
      · exact (Prod.mk.inj (Except.ok.inj refused)).2.symm
      · split at refused <;> simp at refused

end Gravel
